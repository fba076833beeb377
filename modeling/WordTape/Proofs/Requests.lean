import WordTape.Proofs.Device.Healing
import WordTape.Proofs.Transition

/-!
# Requests in a run

A run makes its requests within the instructions that it dispatches. With streams that may
fail it is the same run as with streams that never fail, up to the first request that is
refused: there it stops, as the request has found it.
-/

set_option autoImplicit false

namespace WordTape

/-- An instruction comes to a request that is refused, or what holds of the device still
holds and the instruction does the same with streams that never fail. -/
theorem Instruction.act_cases {holds : Device → Prop} (steady : Nat → Reply)
    (kept : Device.Kept holds) (instruction : Instruction) {device : Device}
    (start : holds device) :
    (∃ request moment reason, (instruction.dialogue device.tape).Makes device request moment ∧
      moment.refusal? request = some reason ∧
      instruction.act device = .stopped (moment.ask request) (.fault (.stream reason))) ∨
    holds (instruction.act device).state ∧
      instruction.act (device.healed steady) = (instruction.act device).map (.healed steady) := by
  rw [instruction.act_eq_hold, instruction.act_eq_hold]
  exact Dialogue.hold_cases steady kept (instruction.dialogue device.tape) start

private theorem Instruction.act_of_done {holds : Device → Prop} (steady : Nat → Reply)
    (kept : Device.Kept holds) {instruction : Instruction} {device next : Device}
    (start : holds device) (acted : instruction.act device = .done next) :
    holds next ∧ instruction.act (device.healed steady) = .done (next.healed steady) := by
  have cases := instruction.act_cases steady kept start
  rw [acted] at cases
  rcases cases with ⟨_, _, _, _, _, stopped⟩ | ⟨still, same⟩
  · cases stopped
  · exact ⟨still, same⟩

def Run.map (change : Machine → Machine) : Run → Run
  | finished machine => finished (change machine)
  | faulted machine fault => faulted (change machine) fault
  | suspended position machine => suspended position (change machine)

namespace Machine

def healed (steady : Nat → Reply) (machine : Machine) : Machine :=
  { machine with device := machine.device.healed steady }

/-- A run from a position comes to a request within so many dispatches: while it dispatches
a token it makes the request, with the machine at that moment. -/
inductive ComesTo (tokens : Array Token) :
    (bound position : Nat) → Machine → Token → Request → Machine → Prop where
  | here {bound position : Nat} {machine : Machine} {token : Token} {instruction : Instruction}
      {request : Request} {device : Device} :
      Stands tokens position token instruction →
      (instruction.dialogue machine.device.tape).Makes machine.device request device →
      ComesTo tokens (bound + 1) position machine token request
        { machine with device, index := position }
  | later {bound position next : Nat} {machine later moment : Machine} {token : Token}
      {request : Request} :
      Advances tokens position machine next later →
      ComesTo tokens bound next later token request moment →
      ComesTo tokens (bound + 1) position machine token request moment

variable {tokens : Array Token} {position next bound : Nat} {machine later last moment : Machine}
  {token : Token} {request : Request} {fault : RunFault} {holds : Device → Prop}

section

variable (steady : Nat → Reply) (kept : Device.Kept holds) (start : holds machine.device)

include kept start

theorem Advances.granted (advances : Advances tokens position machine next later) :
    holds later.device ∧
      Advances tokens position (machine.healed steady) next (later.healed steady) := by
  cases advances with
  | openLoop stands => exact ⟨start, .openLoop stands⟩
  | closeLoop stands top current => exact ⟨start, .closeLoop stands top current⟩
  | repeatLoop stands top current nonzero =>
      exact ⟨start, .repeatLoop stands top current nonzero⟩
  | act stands notOpen notClose acted =>
      obtain ⟨still, same⟩ := Instruction.act_of_done steady kept start acted
      exact ⟨still, .act stands notOpen notClose same⟩

/-- A dispatch faults because a request is refused, or as it does with streams that never
fail. -/
theorem Faults.cases (bound : Nat) (faults : Faults tokens position machine last fault) :
    (∃ token request moment reason,
      ComesTo tokens (bound + 1) position machine token request moment ∧
      moment.device.refusal? request = some reason ∧
      last = { moment with device := moment.device.ask request } ∧
      fault = .interrupted token (.fault (.stream reason))) ∨
    holds last.device ∧
      Faults tokens position (machine.healed steady) (last.healed steady) fault := by
  cases faults with
  | notInstruction found unread => exact .inr ⟨start, .notInstruction found unread⟩
  | noOpenLoop stands empty => exact .inr ⟨start, .noOpenLoop stands empty⟩
  | test stands top current => exact .inr ⟨start, .test stands top current⟩
  | @act token instruction device cause stands notOpen notClose acted =>
      rcases instruction.act_cases steady kept start with
        ⟨request, moment, reason, makes, stops, stopped⟩ | ⟨still, same⟩
      · cases acted.symm.trans stopped
        exact .inl ⟨token, request, _, reason, .here stands makes, stops, rfl, rfl⟩
      · rw [acted] at still same
        exact .inr ⟨still, .act stands notOpen notClose same⟩

end

theorem ComesTo.keeps (kept : Device.Kept holds) (start : holds machine.device)
    (comes : ComesTo tokens bound position machine token request moment) :
    holds moment.device := by
  induction comes with
  | here stands makes => exact makes.keeps kept start
  | later advances comes ih =>
      exact ih (advances.granted (fun _ => .endOfInput) kept start).1

theorem ComesTo.healed (steady : Nat → Reply)
    (comes : ComesTo tokens bound position machine token request moment) :
    ComesTo tokens bound position (machine.healed steady) token request
      (moment.healed steady) := by
  induction comes with
  | here stands makes => exact .here stands (makes.healed steady)
  | later advances comes ih =>
      exact .later (advances.granted steady Device.kept_true trivial).2 ih

/-- A run stops at a request that is refused, or what holds of its device holds where it
ends, and the run is the same with streams that never fail. -/
theorem execute_cases (steady : Nat → Reply) (kept : Device.Kept holds)
    (start : holds machine.device) (tokens : Array Token) (bound position : Nat) :
    (∃ token request moment reason,
      ComesTo tokens bound position machine token request moment ∧
      moment.device.refusal? request = some reason ∧
      execute tokens bound position machine =
        .faulted { moment with device := moment.device.ask request }
          (.interrupted token (.fault (.stream reason)))) ∨
    holds (execute tokens bound position machine).machine.device ∧
      execute tokens bound position (machine.healed steady) =
        (execute tokens bound position machine).map (healed steady) := by
  induction bound generalizing position machine with
  | zero =>
      cases found : tokens[position]? with
      | none =>
          rw [execute_end found, execute_end found]
          exact .inr ⟨start, rfl⟩
      | some token =>
          rw [execute_zero found, execute_zero found]
          exact .inr ⟨start, rfl⟩
  | succ bound ih =>
      cases found : tokens[position]? with
      | none =>
          rw [execute_end found, execute_end found]
          exact .inr ⟨start, rfl⟩
      | some token =>
          rcases advances_or_faults found machine with
            ⟨next, later, advances⟩ | ⟨last, fault, faults⟩
          · obtain ⟨still, healing⟩ := advances.granted steady kept start
            rw [advances.execute, healing.execute]
            rcases ih still next with ⟨token, request, moment, reason, comes, stopped⟩ | same
            · exact .inl ⟨token, request, moment, reason, .later advances comes, stopped⟩
            · exact .inr same
          · rw [faults.execute]
            rcases faults.cases steady kept start bound with
              ⟨token, request, moment, reason, comes, stops, rfl, rfl⟩ | ⟨still, healing⟩
            · exact .inl ⟨token, request, moment, reason, comes, stops, rfl⟩
            · rw [healing.execute]
              exact .inr ⟨still, rfl⟩

theorem act_invariant (kept : Device.Kept holds) :
    Device.Invariant fun device => device.Healthy ∧ holds device := by
  rintro instruction device ⟨healthy, start⟩
  have both := Device.healthy_kept.and kept
  rw [instruction.act_eq_hold]
  exact Dialogue.hold_keeps both healthy _ ⟨healthy, start⟩

/-- What holds after a request of a run whose streams never fail holds where the run ends. -/
theorem ComesTo.execute_keeps (kept : Device.Kept holds) (healthy : machine.device.Healthy)
    (comes : ComesTo tokens bound position machine token request moment)
    (after : holds (moment.device.ask request)) :
    holds (execute tokens bound position machine).machine.device := by
  induction comes with
  | later advances comes ih =>
      rw [advances.execute]
      exact ih (advances.granted (fun _ => .endOfInput) Device.healthy_kept healthy).1 after
  | @here bound position machine token instruction request device stands makes =>
      have notOpen : instruction ≠ .loopOpen := by
        rintro rfl
        cases makes
      have notClose : instruction ≠ .loopClose := by
        rintro rfl
        cases makes
      have still := And.intro (Dialogue.hold_keeps Device.healthy_kept healthy
        (instruction.dialogue machine.device.tape) healthy) (makes.hold_keeps kept healthy after)
      rw [← instruction.act_eq_hold] at still
      cases acted : instruction.act machine.device with
      | done next =>
          rw [acted] at still
          rw [(Advances.act stands notOpen notClose acted).execute]
          exact ((act_invariant kept).execute bound _ still).2
      | stopped last cause =>
          rw [acted] at still
          rw [(Faults.act stands notOpen notClose acted).execute]
          exact still.2

end Machine

end WordTape
