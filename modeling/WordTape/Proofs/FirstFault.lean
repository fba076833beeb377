import WordTape.Proofs.Invariants
import WordTape.Proofs.SessionRun
import WordTape.Proofs.Structure.Reading
import WordTape.Proofs.Transition

/-!
# The first fault

Every fault that stops a run has a kind and a description, whatever the program. The
error of the run tells this fault exactly if the flush after it is accepted: a flush
that is refused is reported in its place.
-/

set_option autoImplicit false

namespace WordTape

open Machine

def Run.fault? : Run → Option RunFault
  | .faulted _ fault => some fault
  | .finished _ | .suspended _ _ => none

theorem Run.eq_of_fault? {run : Run} {fault : RunFault} (shown : run.fault? = some fault) :
    run = .faulted run.machine fault := by
  cases run with
  | finished machine => cases shown
  | suspended position machine => cases shown
  | faulted machine other =>
      cases shown
      rfl

/-- The error tells the fault: its kind, its description and the place of its token. -/
def RunError.Tells (fault : RunFault) (error : RunError) : Prop :=
  ∃ report, error = .reported report ∧ fault.cause = .ok (report.kind, report.description) ∧
    report.line = some (fault.token.position.line : Int) ∧
    report.column = some (fault.token.position.column : Int)

section

variable {tokens : Array Token} {position bound : Nat} {machine last : Machine}
  {fault : RunFault}

theorem Machine.Faults.exists_cause (faults : Faults tokens position machine last fault) :
    ∃ kind description, fault.cause = .ok (kind, description) := by
  cases faults with
  | @notInstruction token error found unread => cases error <;> exact ⟨_, _, rfl⟩
  | noOpenLoop stands empty => exact ⟨_, _, rfl⟩
  | test stands top current => exact ⟨_, _, rfl⟩
  | act stands notOpen notClose acted =>
      obtain ⟨fault, rfl⟩ := Instruction.act_faultsOnly stands.encodable _ _ _ acted
      exact ⟨_, _, rfl⟩

theorem Machine.Faults.exists_report (faults : Faults tokens position machine last fault)
    (source : Bytes) : ∃ report, fault.report source = .ok report := by
  obtain ⟨kind, description, cause⟩ := faults.exists_cause
  simp only [RunFault.report, cause, Except.map]
  exact ⟨_, rfl⟩

private theorem Machine.exists_cause_of_faulted
    (faulted : execute tokens bound position machine = .faulted last fault) :
    ∃ kind description, fault.cause = .ok (kind, description) := by
  have ends : EndsWithin (fun _ _ => True) tokens position machine bound _ :=
    execute_endsWithin (fun _ _ _ _ _ _ => trivial) bound trivial
  rw [faulted] at ends
  obtain ⟨_, _, _, _, _, _, faults⟩ := ends
  exact faults.exists_cause

/-- The error for a fault of a run is a report that tells it. -/
theorem Session.errorOf_tells
    (faulted : execute tokens bound position machine = .faulted last fault) (program : Bytes) :
    (errorOf program fault).Tells fault := by
  obtain ⟨kind, description, cause⟩ := exists_cause_of_faulted faulted
  simp only [errorOf, RunFault.report, cause, Except.map]
  exact ⟨_, rfl, cause, rfl, rfl⟩

end

/-- The error of a run that a fault stops tells this fault if the flush at its end is
accepted, and only then: a flush that is refused is reported in place of the fault. -/
theorem first_fault_is_told_iff_flushed {source : Source} {program : Bytes} {session : Session}
    {bound : Nat} {last : Machine} {fault : RunFault} (readable : source.read = .ok program)
    (faulted : execute (Lexer.tokenize program) bound 0 (session.machineFor program) =
      .faulted last fault) :
    ∃ final error, session.run bound source = .failed final error ∧
      (error.Tells fault ↔ Session.AcceptsFlush last) ∧
      ∀ reason, last.device.output.flushRefusal last.device.output.flushes = some reason →
        error = .reported (.ofFault (.stream reason)) := by
  rw [Session.run_eq_of_readable readable, faulted]
  cases flush : last.device.output.flushRefusal last.device.output.flushes with
  | none =>
      refine ⟨_, _, Session.conclude_failed flush _, ?_, nofun⟩
      exact ⟨fun _ => flush, fun _ => Session.errorOf_tells faulted program⟩
  | some reason =>
      refine ⟨_, _, Session.conclude_refused _ flush, ?_, ?_⟩
      · constructor
        · intro told
          obtain ⟨report, same, cause, line, column⟩ := told
          cases same
          cases line
        · intro accepted
          rw [Session.AcceptsFlush, flush] at accepted
          cases accepted
      · intro other same
        cases same
        rfl

/-- Adding to a full cell is an overflow, which is told with its place. -/
theorem overflow_is_told :
    let program := Bytes.ofString "inc 255 inc 1"
    let session := Session.start 1 (.ofBytes #[]) {}
    let token : Token :=
      { value := Bytes.ofString "inc", position := ⟨1, 9⟩, kind := .instruction .increment }
    Source.read (.contents program) = .ok program ∧
    ∃ final error, session.run 2 (.contents program) = .failed final error ∧
      error.Tells (.interrupted token (.fault (.addition 1))) := by
  intro program session token
  let ran := execute (Lexer.tokenize program) 2 0 (session.machineFor program)
  have faulted : ran = .faulted _ (.interrupted token (.fault (.addition 1))) :=
    Run.eq_of_fault? (by decide +kernel)
  have accepted : Session.AcceptsFlush ran.machine :=
    congrFun (execute_sameBehavior _ _ _ _).flushRefusal _
  have readable : Source.read (.contents program) = .ok program := rfl
  obtain ⟨final, error, failed, told, _⟩ := first_fault_is_told_iff_flushed readable faulted
  exact ⟨readable, final, error, failed, told.mpr accepted⟩

/-- A `pol` without an open loop is not told if the flush is refused. -/
theorem refused_flush_hides_stray_close :
    let program := Bytes.ofString "pol"
    let session := Session.start 1 (.ofBytes #[])
      { flushRefusal := fun _ => some (Bytes.ofString "no space left") }
    ∃ last fault final error,
      execute (Lexer.tokenize program) 1 0 (session.machineFor program) = .faulted last fault ∧
      session.run 1 (.contents program) = .failed final error ∧ ¬error.Tells fault := by
  intro program session
  let token : Token :=
    { value := Bytes.ofString "pol", position := ⟨1, 1⟩, kind := .instruction .loopClose }
  have faulted : execute (Lexer.tokenize program) 1 0 (session.machineFor program) =
      .faulted _ (.noOpenLoop token) := Run.eq_of_fault? (by decide +kernel)
  have hidden : (session.run 1 (.contents program)).error? =
      some (.reported (.ofFault (.stream (Bytes.ofString "no space left")))) := by decide +kernel
  refine ⟨_, _, _, _, faulted, SessionRun.eq_failed hidden, ?_⟩
  intro told
  obtain ⟨report, same, cause, line, column⟩ := told
  cases same
  cases line

end WordTape
