import WordTape.Proofs.Invariants
import WordTape.Proofs.Structure.Execution

/-!
# Transitions

What a dispatch can do is said once: it advances in one of four ways, or it faults in
one of four. A property that no advance breaks holds at every moment of a run, and a
run that faults does so by a dispatch at such a moment.
-/

set_option autoImplicit false

namespace WordTape.Machine

/-- A dispatch at a position goes on at another position with another machine. -/
inductive Advances (tokens : Array Token) (position : Nat) (machine : Machine) :
    Nat → Machine → Prop where
  | act {token : Token} {instruction : Instruction} {device : Device} :
      Stands tokens position token instruction →
      instruction ≠ .loopOpen → instruction ≠ .loopClose →
      instruction.act machine.device = .done device →
      Advances tokens position machine (position + instruction.length)
        { machine with device, index := position }
  | openLoop {token : Token} :
      Stands tokens position token .loopOpen →
      Advances tokens position machine (position + 1)
        { machine with
          loops := position :: machine.loops
          index := position
          events := machine.events.push (.loopOpened position (machine.loops.length + 1)) }
  | closeLoop {token : Token} {opened : Nat} {outer : List Nat} :
      Stands tokens position token .loopClose →
      machine.loops = opened :: outer → machine.device.tape.current = .ok 0 →
      Advances tokens position machine (position + 1)
        { machine with
          loops := outer
          index := position
          events := machine.events.push (.loopClosed position outer.length) }
  | repeatLoop {token : Token} {opened : Nat} {outer : List Nat} {value : UInt8} :
      Stands tokens position token .loopClose →
      machine.loops = opened :: outer → machine.device.tape.current = .ok value → value ≠ 0 →
      Advances tokens position machine (opened + 1) { machine with index := position }

/-- A dispatch at a position faults and leaves a machine. -/
inductive Faults (tokens : Array Token) (position : Nat) (machine : Machine) :
    Machine → RunFault → Prop where
  | notInstruction {token : Token} {error : InstructionError} :
      tokens[position]? = some token →
      Instruction.fetch tokens position token = .error error →
      Faults tokens position machine { machine with index := position } (.notInstruction error)
  | noOpenLoop {token : Token} :
      Stands tokens position token .loopClose → machine.loops = [] →
      Faults tokens position machine { machine with index := position } (.noOpenLoop token)
  | test {token : Token} {opened : Nat} {outer : List Nat} {fault : Fault} :
      Stands tokens position token .loopClose →
      machine.loops = opened :: outer → machine.device.tape.current = .error fault →
      Faults tokens position machine { machine with index := position }
        (.interrupted token (.fault fault))
  | act {token : Token} {instruction : Instruction} {device : Device} {cause : Interruption} :
      Stands tokens position token instruction →
      instruction ≠ .loopOpen → instruction ≠ .loopClose →
      instruction.act machine.device = .stopped device cause →
      Faults tokens position machine { machine with device, index := position }
        (.interrupted token cause)

variable {tokens : Array Token} {position next bound : Nat} {machine later last : Machine}
  {token : Token} {fault : RunFault}

/-- What a dispatch comes to, by what it can do. -/
def Progress.Describes (tokens : Array Token) (position : Nat) (machine : Machine) :
    Progress → Prop
  | .next next later => Advances tokens position machine next later
  | .faulted last fault => Faults tokens position machine last fault

theorem describes_dispatch (found : tokens[position]? = some token) (machine : Machine) :
    Progress.Describes tokens position machine (machine.dispatch tokens position token) := by
  cases read : Instruction.fetch tokens position token with
  | error error =>
      rw [dispatch_unread read]
      exact .notInstruction found read
  | ok instruction =>
      have stands : Stands tokens position token instruction := ⟨found, read⟩
      rw [dispatch_eq_perform stands]
      by_cases opens : instruction = .loopOpen
      · subst opens
        exact .openLoop stands
      by_cases closes : instruction = .loopClose
      · subst closes
        rw [perform]
        by_cases empty : machine.loops = []
        · rw [closeLoop_empty { machine with index := position } empty]
          exact .noOpenLoop stands empty
        obtain ⟨opened, outer, top⟩ := List.exists_cons_of_ne_nil empty
        cases current : machine.device.tape.current with
        | error fault =>
            rw [closeLoop_error { machine with index := position } top current]
            exact .test stands top current
        | ok value =>
            by_cases zero : value = 0
            · subst zero
              rw [closeLoop_zero { machine with index := position } top current]
              exact .closeLoop stands top current
            · rw [closeLoop_nonzero { machine with index := position } top current zero]
              exact .repeatLoop stands top current zero
      · have performed := perform_eq_act opens closes position token
          { machine with index := position }
        cases acted : instruction.act machine.device with
        | done device =>
            simp only [acted] at performed
            rw [performed]
            exact .act stands opens closes acted
        | stopped device cause =>
            simp only [acted] at performed
            rw [performed]
            exact .act stands opens closes acted

theorem Advances.dispatch (advances : Advances tokens position machine next later) :
    ∃ token, tokens[position]? = some token ∧
      machine.dispatch tokens position token = .next next later := by
  cases advances with
  | @act token _ device stands notOpen notClose acted =>
      refine ⟨token, stands.found, (dispatch_eq_perform stands machine).trans ?_⟩
      rw [perform_eq_act notOpen notClose]
      simp only [acted]
  | @openLoop token stands => exact ⟨token, stands.found, dispatch_eq_perform stands machine⟩
  | @closeLoop token _ _ stands top current =>
      refine ⟨token, stands.found, (dispatch_eq_perform stands machine).trans ?_⟩
      exact closeLoop_zero { machine with index := position } top current
  | @repeatLoop token _ _ value stands top current nonzero =>
      refine ⟨token, stands.found, (dispatch_eq_perform stands machine).trans ?_⟩
      exact closeLoop_nonzero { machine with index := position } top current nonzero

theorem Faults.dispatch (faults : Faults tokens position machine last fault) :
    ∃ token, tokens[position]? = some token ∧
      machine.dispatch tokens position token = .faulted last fault := by
  cases faults with
  | @notInstruction token error found unread =>
      exact ⟨token, found, dispatch_unread unread machine⟩
  | @noOpenLoop token stands empty =>
      refine ⟨token, stands.found, (dispatch_eq_perform stands machine).trans ?_⟩
      exact closeLoop_empty { machine with index := position } empty
  | @test token _ _ fault stands top current =>
      refine ⟨token, stands.found, (dispatch_eq_perform stands machine).trans ?_⟩
      exact closeLoop_error { machine with index := position } top current
  | @act token _ device cause stands notOpen notClose acted =>
      refine ⟨token, stands.found, (dispatch_eq_perform stands machine).trans ?_⟩
      rw [perform_eq_act notOpen notClose]
      simp only [acted]

theorem Faults.index_eq (faults : Faults tokens position machine last fault) :
    last.index = position := by
  cases faults <;> rfl

theorem Faults.loops_eq (faults : Faults tokens position machine last fault) :
    last.loops = machine.loops := by
  cases faults <;> rfl

theorem Faults.events_eq (faults : Faults tokens position machine last fault) :
    last.events = machine.events := by
  cases faults <;> rfl

theorem Advances.execute (advances : Advances tokens position machine next later) (bound : Nat) :
    execute tokens (bound + 1) position machine = execute tokens bound next later := by
  obtain ⟨token, found, dispatched⟩ := advances.dispatch
  exact execute_next found dispatched bound

theorem Faults.execute (faults : Faults tokens position machine last fault) (bound : Nat) :
    execute tokens (bound + 1) position machine = .faulted last fault := by
  obtain ⟨token, found, dispatched⟩ := faults.dispatch
  exact execute_faulted found dispatched bound

/-- A dispatch advances or faults. -/
theorem advances_or_faults (found : tokens[position]? = some token) (machine : Machine) :
    (∃ next later, Advances tokens position machine next later) ∨
      ∃ last fault, Faults tokens position machine last fault := by
  have described := describes_dispatch found machine
  cases dispatched : machine.dispatch tokens position token with
  | next next later =>
      rw [dispatched] at described
      exact .inl ⟨next, later, described⟩
  | faulted last fault =>
      rw [dispatched] at described
      exact .inr ⟨last, fault, described⟩

/-- A run has ended within the property: it is suspended before an instruction, over at
the end of the tokens, or stopped by a dispatch before which the property held. -/
def EndsWithin (holds : Nat → Machine → Prop) (tokens : Array Token) (position : Nat)
    (machine : Machine) (bound : Nat) : Run → Prop
  | .suspended next later => holds next later ∧ next < tokens.size
  | .finished last => ∃ next, holds next last ∧ tokens[next]? = none
  | .faulted last fault => ∃ earlier next later, earlier < bound ∧
      execute tokens earlier position machine = .suspended next later ∧
      holds next later ∧ Faults tokens next later last fault

/-- A property that no advance breaks holds at every moment of a run. -/
theorem execute_endsWithin {holds : Nat → Machine → Prop}
    (keeps : ∀ position machine next later, holds position machine →
      Advances tokens position machine next later → holds next later)
    (bound : Nat) (start : holds position machine) :
    EndsWithin holds tokens position machine bound (execute tokens bound position machine) := by
  cases found : tokens[position]? with
  | none =>
      rw [execute_end found]
      exact ⟨position, start, found⟩
  | some token =>
      induction bound generalizing position machine token with
      | zero =>
          rw [execute_zero found]
          exact ⟨start, (Array.getElem?_eq_some_iff.mp found).1⟩
      | succ bound ih =>
          rcases advances_or_faults found machine with
            ⟨next, later, advances⟩ | ⟨last, fault, faults⟩
          · have holdsNext := keeps _ _ _ _ start advances
            rw [advances.execute]
            cases onward : tokens[next]? with
            | none =>
                rw [execute_end onward]
                exact ⟨next, holdsNext, onward⟩
            | some token =>
                have ends := ih holdsNext token onward
                cases ran : execute tokens bound next later with
                | suspended place paused =>
                    rw [ran] at ends
                    exact ends
                | finished last =>
                    rw [ran] at ends
                    exact ends
                | faulted last fault =>
                    rw [ran] at ends
                    obtain ⟨earlier, place, paused, within, suspended, held, faults⟩ := ends
                    refine ⟨earlier + 1, place, paused, Nat.succ_lt_succ within, ?_, held, faults⟩
                    rw [advances.execute]
                    exact suspended
          · rw [faults.execute]
            exact ⟨0, position, machine, Nat.succ_pos bound, execute_zero found machine, start,
              faults⟩

/-- A property of machines that no dispatch breaks holds where a run ends. -/
theorem execute_keeps {holds : Machine → Prop}
    (advance : ∀ position machine next later, holds machine →
      Advances tokens position machine next later → holds later)
    (fault : ∀ position machine last fault, holds machine →
      Faults tokens position machine last fault → holds last)
    (bound position : Nat) (start : holds machine) :
    holds (execute tokens bound position machine).machine := by
  have ends : EndsWithin (fun _ => holds) tokens position machine bound _ :=
    execute_endsWithin (fun position machine next later => advance position machine next later)
      bound start
  cases ran : execute tokens bound position machine with
  | suspended next later =>
      rw [ran] at ends
      exact ends.1
  | finished last =>
      rw [ran] at ends
      obtain ⟨_, held, _⟩ := ends
      exact held
  | faulted last error =>
      rw [ran] at ends
      obtain ⟨_, next, later, _, _, held, faults⟩ := ends
      exact fault next later last error held faults

end WordTape.Machine
