import WordTape.Proofs.History
import WordTape.Proofs.Structure.Reading
import WordTape.Proofs.Tape.Bounds
import WordTape.Proofs.Transition

/-!
# The tape of a session

Through all runs and resets of a session the tape keeps its cells, and the pointer is on
one of them or at rest behind the last. A dispatch brings it there only if it stores a run
of bytes, or if it looks for a zero and faults.
-/

set_option autoImplicit false

namespace WordTape

open Machine

def Progress.isFaulted : Progress → Bool
  | .next _ _ => false
  | .faulted _ _ => true

/-- What the dispatch of a token does with the pointer of a tape of so many cells. -/
structure Machine.KeepsBounds (size : Nat) (tokens : Array Token) (position : Nat)
    (token : Token) (before : Tape) (progress : Progress) : Prop where
  within : progress.machine.device.tape.Within size
  rests : progress.machine.device.tape.pointer = size → before.pointer = size ∨
    ∃ mnemonic, token.kind = .instruction mnemonic ∧
      (mnemonic.storesRun = true ∨ mnemonic.seeksZero = true ∧ progress.isFaulted = true)
  lands : ∀ mnemonic, token.kind = .instruction mnemonic → mnemonic.landsOnCell = true →
    progress.isFaulted = false → progress.machine.device.tape.pointer < size
  /-- Moving forward adds the steps as they are, and succeeds if that is a cell. -/
  moves : ∀ steps, Stands tokens position token (.moveForward steps) →
    steps < 2 ^ 64 ∧ progress.isFaulted = decide (size ≤ before.pointer + steps) ∧
      progress.machine.device.tape.pointer =
        if before.pointer + steps < size then before.pointer + steps else before.pointer

namespace Machine

variable {tokens : Array Token} {position size : Nat} {machine : Machine} {token : Token}
  {instruction : Instruction} {progress : Progress}

theorem device_invariant_within (size : Nat) :
    Device.Invariant fun device => device.tape.Within size :=
  fun instruction _ within => instruction.act_within within

/-- A dispatch that leaves the tape alone, of what does not land on another cell. -/
theorem KeepsBounds.of_unchanged {before : Tape} (within : before.Within size)
    (same : progress.machine.device.tape = before)
    (other : ∀ mnemonic, token.kind = .instruction mnemonic → progress.isFaulted = false →
      mnemonic.landsOnCell = false)
    (unmoved : ∀ steps, ¬Stands tokens position token (.moveForward steps)) :
    KeepsBounds size tokens position token before progress where
  within := same ▸ within
  rests := fun rests => .inl (same ▸ rests)
  lands := by
    intro mnemonic kind lands advanced
    rw [other mnemonic kind advanced] at lands
    cases lands
  moves := fun steps stands => absurd stands (unmoved steps)

/-- The loop instructions leave the tape alone. -/
theorem KeepsBounds.of_loop {before : Tape} (within : before.Within size)
    (stands : Stands tokens position token instruction)
    (loop : instruction = .loopOpen ∨ instruction = .loopClose)
    (same : progress.machine.device.tape = before) :
    KeepsBounds size tokens position token before progress := by
  refine .of_unchanged within same ?_ ?_
  · intro mnemonic kind _
    rw [← stands.eq_mnemonic kind]
    rcases loop with rfl | rfl <;> rfl
  · intro steps moves
    cases stands.eq_of_stands moves
    simp at loop

/-- A dispatch that has come to what an instruction does. -/
theorem KeepsBounds.of_act {device : Device} (within : device.tape.Within size)
    (stands : Stands tokens position token instruction)
    (acted : progress.machine.device = (instruction.act device).state)
    (stopped : progress.isFaulted = (instruction.act device).cause?.isSome) :
    KeepsBounds size tokens position token device.tape progress := by
  have landed (lands : instruction.mnemonic.landsOnCell = true)
      (advanced : progress.isFaulted = false) :
      progress.machine.device.tape.pointer < size := by
    have stays := instruction.act_within within
    rw [advanced] at stopped
    rw [acted]
    cases done : instruction.act device with
    | stopped last cause =>
        rw [done] at stopped
        cases stopped
    | done last =>
        rw [done] at stays
        have onCell := Instruction.act_landsOnCell within lands done
        exact stays.size_eq ▸ onCell.2
  refine ⟨acted ▸ instruction.act_within within, ?_, ?_, ?_⟩
  · intro rests
    rcases Instruction.act_rests within (acted ▸ rests) with before | stores | seeks
    · exact .inl before
    · exact .inr ⟨_, stands.kind, .inl stores⟩
    · refine .inr ⟨_, stands.kind, .inr ⟨seeks, ?_⟩⟩
      by_contra advanced
      have behind := landed (Mnemonic.landsOnCell_of_seeksZero seeks)
        (Bool.not_eq_true _ ▸ advanced)
      exact absurd rests (Int.ne_of_lt behind)
  · intro mnemonic kind lands advanced
    exact landed (stands.eq_mnemonic kind ▸ lands) advanced
  · intro steps moves
    cases stands.eq_of_stands moves
    obtain ⟨pointer, past⟩ := within.moveForward_eq steps
    rw [acted, stopped, Instruction.act, Device.tape_state_onTape, Device.cause?_onTape]
    exact ⟨moves.steps_lt, past, pointer⟩

theorem keepsBounds_dispatch (within : machine.device.tape.Within size)
    (found : tokens[position]? = some token) :
    KeepsBounds size tokens position token machine.device.tape
      (machine.dispatch tokens position token) := by
  have described := describes_dispatch found machine
  cases dispatched : machine.dispatch tokens position token with
  | next next later =>
      rw [dispatched] at described
      cases described with
      | act stands notOpen notClose acted =>
          cases found.symm.trans stands.found
          refine .of_act within stands ?_ ?_ <;> rw [acted] <;> rfl
      | openLoop stands =>
          cases found.symm.trans stands.found
          exact .of_loop within stands (.inl rfl) rfl
      | closeLoop stands | repeatLoop stands =>
          cases found.symm.trans stands.found
          exact .of_loop within stands (.inr rfl) rfl
  | faulted last fault =>
      rw [dispatched] at described
      cases described with
      | notInstruction here unread =>
          cases found.symm.trans here
          refine .of_unchanged within rfl (fun _ _ advanced => ?_) ?_
          · cases advanced
          · intro steps stands
            cases unread.symm.trans stands.reads
      | noOpenLoop stands | test stands =>
          cases found.symm.trans stands.found
          exact .of_loop within stands (.inr rfl) rfl
      | act stands notOpen notClose acted =>
          cases found.symm.trans stands.found
          refine .of_act within stands ?_ ?_ <;> rw [acted] <;> rfl

end Machine

private theorem Session.after_within (size : Nat) (input : Input) (output : Output)
    (calls : List Session.Call) :
    ((Session.start size input output).after calls).machine.device.tape.Within size := by
  refine after_invariant (device_invariant_within size) ?_ ?_ calls (Tape.blank_within size)
  · intro device within
    rwa [Device.tape_state_flush]
  · intro device within
    simp only [Tape.reset, within.size_eq]
    exact Tape.blank_within size

/-- After any calls of a session and any number of instructions, the tape has its cells,
all of them bytes, and the pointer is on one of them or behind the last; so it is after the
next dispatch, which keeps the bounds of its instruction. -/
theorem tape_keeps_its_bounds (size : Nat) (input : Input) (output : Output)
    (calls : List Session.Call) (program : Bytes) (bound : Nat) :
    let session := (Session.start size input output).after calls
    let tokens := Lexer.tokenize program
    let ran := execute tokens bound 0 (session.machineFor program)
    session.machine.device.tape.Within size ∧ ran.machine.device.tape.Within size ∧
      (∀ cell ∈ ran.machine.device.tape.cells, cell.toNat ≤ 255) ∧
      ∀ position paused token, ran = .suspended position paused →
        tokens[position]? = some token →
        KeepsBounds size tokens position token paused.device.tape
          (paused.dispatch tokens position token) := by
  intro session tokens ran
  have within := Session.after_within size input output calls
  have kept : ran.machine.device.tape.Within size :=
    (device_invariant_within size).execute bound 0 within
  refine ⟨within, kept, fun cell _ => Nat.le_of_lt_succ cell.toNat_lt, ?_⟩
  intro position paused token suspended found
  rw [suspended] at kept
  exact keepsBounds_dispatch kept found

end WordTape
