import WordTape.Proofs.Invariants
import WordTape.Proofs.Structure.Execution
import WordTape.Session

/-!
# Runs of a session

A run of a source that can be read executes its tokens on the device of the session,
with no open loop, and flushes the output when that has ended. If the flush fails,
the run has failed whatever it has come to.
-/

set_option autoImplicit false

namespace WordTape

theorem Source.read_contents (program : Bytes) : (contents program).read = .ok program := rfl

namespace SessionRun

def completed? : SessionRun → Option Session
  | completed session => some session
  | failed _ _ | suspended _ _ => none

theorem eq_completed {run : SessionRun} (completes : run.completed?.isSome) :
    run = .completed run.session := by
  cases run with
  | completed session => rfl
  | failed session error | suspended session position => cases completes

theorem eq_failed {run : SessionRun} {error : RunError} (fails : run.error? = some error) :
    run = .failed run.session error := by
  cases run with
  | failed session other =>
      cases fails
      rfl
  | completed session | suspended session position => cases fails

end SessionRun

namespace Session

open Machine

def machineFor (program : Bytes) (session : Session) : Machine :=
  (session.load program).machine

@[simp] theorem device_machineFor (program : Bytes) (session : Session) :
    (session.machineFor program).device = session.machine.device := rfl

theorem machineFor_eq (program : Bytes) (session : Session) :
    ∃ events, session.machineFor program =
      { device := session.machine.device, loops := [], index := 0, events } :=
  ⟨_, rfl⟩

def errorOf (program : Bytes) (fault : RunFault) : RunError :=
  match fault.report (Utf8.replaceIllFormed program) with
  | .ok report => .reported report
  | .error error => .codec error

variable {session : Session} {source : Source} {program : Bytes} {bound : Nat}
  {tokens : Array Token} {machine : Machine}

theorem run_eq_of_readable (readable : source.read = .ok program) :
    session.run bound source =
      match execute (Lexer.tokenize program) bound 0 (session.machineFor program) with
      | .suspended position machine =>
          .suspended { machine, tokens := Lexer.tokenize program } position
      | .finished machine => conclude (Lexer.tokenize program) machine none
      | .faulted machine fault =>
          conclude (Lexer.tokenize program) machine (some (errorOf program fault)) := by
  obtain ⟨⟨device, loops, index, events⟩, tokens⟩ := session
  simp only [run, readable, load, resume, machineFor]
  rfl

/-- The machine after a flush, whether it was accepted or not. -/
def flushed (machine : Machine) : Machine :=
  { machine with device.output.flushes := machine.device.output.flushes + 1 }

def AcceptsFlush (machine : Machine) : Prop :=
  machine.device.output.flushRefusal machine.device.output.flushes = none

/-- The machine after a run that has completed, as the log records. -/
def recorded (machine : Machine) : Machine :=
  { flushed machine with events := machine.events.push (.runFinished machine.loops.length) }

theorem conclude_completed (tokens : Array Token) (accepts : AcceptsFlush machine) :
    conclude tokens machine none = .completed { machine := recorded machine, tokens } := by
  obtain ⟨⟨tape, input, output⟩, loops, index, events⟩ := machine
  simp only [AcceptsFlush] at accepts
  simp only [conclude, Device.flush, Output.flush, accepts]
  rfl

theorem conclude_failed (accepts : AcceptsFlush machine) (error : RunError) :
    conclude tokens machine (some error) =
      .failed { machine := flushed machine, tokens } error := by
  obtain ⟨⟨tape, input, output⟩, loops, index, events⟩ := machine
  simp only [AcceptsFlush] at accepts
  simp only [conclude, Device.flush, Output.flush, accepts]
  rfl

/-- A flush that fails hides what the run has come to. -/
theorem conclude_refused {reason : Bytes} (error? : Option RunError)
    (refused : machine.device.output.flushRefusal machine.device.output.flushes = some reason) :
    conclude tokens machine error? =
      .failed { machine := flushed machine, tokens } (.reported (.ofFault (.stream reason))) := by
  obtain ⟨⟨tape, input, output⟩, loops, index, events⟩ := machine
  simp only at refused
  simp only [conclude, Device.flush, Output.flush, refused]
  rfl

/-- The end of a run leaves the open loops and the position of a machine as they are, and
adds to its log only if the run has completed. -/
theorem conclude_keeps (tokens : Array Token) (machine : Machine) (error? : Option RunError) :
    let ended := conclude tokens machine error?
    let last := ended.session.machine
    last.loops = machine.loops ∧ last.index = machine.index ∧
      (last.events = machine.events.push (.runFinished machine.loops.length) ∨
        last.events = machine.events ∧ ∀ final, ended ≠ .completed final) := by
  cases flush : machine.device.output.flushRefusal machine.device.output.flushes with
  | some reason =>
      rw [conclude_refused error? flush]
      exact ⟨rfl, rfl, .inr ⟨rfl, nofun⟩⟩
  | none =>
      cases error? with
      | some error =>
          rw [conclude_failed flush error]
          exact ⟨rfl, rfl, .inr ⟨rfl, nofun⟩⟩
      | none =>
          rw [conclude_completed tokens flush]
          exact ⟨rfl, rfl, .inl rfl⟩

/-- No flush of the output is refused. -/
def AlwaysFlushes (session : Session) : Prop :=
  ∀ flush, session.machine.device.output.flushRefusal flush = none

/-- What a run comes to if its flush is accepted. -/
def accepted (program : Bytes) : Run → SessionRun
  | .suspended position machine =>
      .suspended { machine, tokens := Lexer.tokenize program } position
  | .finished machine =>
      .completed { machine := recorded machine, tokens := Lexer.tokenize program }
  | .faulted machine fault =>
      .failed { machine := flushed machine, tokens := Lexer.tokenize program }
        (errorOf program fault)

theorem run_eq_of_alwaysFlushes (readable : source.read = .ok program)
    (flushes : session.AlwaysFlushes) (bound : Nat) :
    session.run bound source =
      accepted program
        (execute (Lexer.tokenize program) bound 0 (session.machineFor program)) := by
  have same := execute_sameBehavior (Lexer.tokenize program) bound 0 (session.machineFor program)
  have accepts : AcceptsFlush
      (execute (Lexer.tokenize program) bound 0 (session.machineFor program)).machine :=
    (congrFun same.flushRefusal _).trans (flushes _)
  rw [run_eq_of_readable readable]
  cases ran : execute (Lexer.tokenize program) bound 0 (session.machineFor program) with
  | suspended position machine => rfl
  | finished machine =>
      rw [ran] at accepts
      exact conclude_completed (Lexer.tokenize program) accepts
  | faulted machine fault =>
      rw [ran] at accepts
      exact conclude_failed accepts (errorOf program fault)

/-- A run completes because its execution has finished, and its session flushes as before. -/
theorem exists_finished_of_completed {last : Session} (readable : source.read = .ok program)
    (flushes : session.AlwaysFlushes) (completed : session.run bound source = .completed last) :
    ∃ machine, execute (Lexer.tokenize program) bound 0 (session.machineFor program) =
        .finished machine ∧
      last = { machine := recorded machine, tokens := Lexer.tokenize program } ∧
      last.AlwaysFlushes := by
  have same := execute_sameBehavior (Lexer.tokenize program) bound 0 (session.machineFor program)
  rw [run_eq_of_alwaysFlushes readable flushes] at completed
  cases ran : execute (Lexer.tokenize program) bound 0 (session.machineFor program) with
  | suspended position machine | faulted machine fault =>
      rw [ran] at completed
      cases completed
  | finished machine =>
      rw [ran] at completed same
      cases completed
      refine ⟨machine, rfl, rfl, ?_⟩
      intro flush
      exact (congrFun same.flushRefusal flush).trans (flushes flush)

/-- A run fails because a fault has stopped its execution. -/
theorem exists_faulted_of_failed {last : Session} {error : RunError}
    (readable : source.read = .ok program) (flushes : session.AlwaysFlushes)
    (failed : session.run bound source = .failed last error) :
    ∃ machine fault, execute (Lexer.tokenize program) bound 0 (session.machineFor program) =
        .faulted machine fault ∧
      last = { machine := flushed machine, tokens := Lexer.tokenize program } ∧
      error = errorOf program fault := by
  rw [run_eq_of_alwaysFlushes readable flushes] at failed
  cases ran : execute (Lexer.tokenize program) bound 0 (session.machineFor program) with
  | suspended position machine | finished machine =>
      rw [ran] at failed
      cases failed
  | faulted machine fault =>
      rw [ran] at failed
      cases failed
      exact ⟨machine, fault, rfl, rfl, rfl⟩

/-- A run that has ended is not changed by a larger bound. -/
theorem run_persists (session : Session) (source : Source) (bound more : Nat)
    (ended : ∀ last position, session.run bound source ≠ .suspended last position) :
    session.run (bound + more) source = session.run bound source := by
  cases source with
  | unreadable reason => rfl
  | foreign typeName => rfl
  | contents program =>
      have persists (verdict : Verdict) := execute_persists (Lexer.tokenize program) bound more 0
        (session.machineFor program) verdict
      have here : session.run bound (.contents program) = _ :=
        run_eq_of_readable (Source.read_contents program)
      have later : session.run (bound + more) (.contents program) = _ :=
        run_eq_of_readable (Source.read_contents program)
      cases ran : execute (Lexer.tokenize program) bound 0 (session.machineFor program) with
      | suspended position machine =>
          rw [ran] at here
          exact absurd here (ended _ _)
      | finished machine =>
          rw [persists (.completed machine.device) (by rw [ran]; rfl)] at later
          rw [later, here]
      | faulted machine fault =>
          rw [persists (.faulted machine.device fault) (by rw [ran]; rfl)] at later
          rw [later, here]

/-- What a run shows of the verdict of its execution: the verdict itself, unless the
last flush fails. -/
inductive Shows (program : Bytes) (verdict? : Option Verdict) : SessionRun → Prop where
  | completed {device : Device} {last : Session} :
      verdict? = some (.completed device) → Shows program verdict? (.completed last)
  | faulted {device : Device} {fault : RunFault} {last : Session} :
      verdict? = some (.faulted device fault) →
      Shows program verdict? (.failed last (errorOf program fault))
  | unflushed {verdict : Verdict} {last : Session} {report : Report} :
      verdict? = some verdict → report.kind = .io →
      Shows program verdict? (.failed last (.reported report))
  | suspended {last : Session} {position : Nat} :
      verdict? = none → Shows program verdict? (.suspended last position)

theorem run_shows (session : Session) (bound : Nat) (readable : source.read = .ok program) :
    Shows program (execute (Lexer.tokenize program) bound 0 (session.machineFor program)).verdict?
      (session.run bound source) := by
  rw [run_eq_of_readable readable]
  cases execute (Lexer.tokenize program) bound 0 (session.machineFor program) with
  | suspended position machine => exact .suspended rfl
  | finished machine =>
      cases refused : machine.device.output.flushRefusal machine.device.output.flushes with
      | none =>
          simp only [conclude_completed (Lexer.tokenize program) refused]
          exact .completed rfl
      | some reason =>
          simp only [conclude_refused none refused]
          exact .unflushed rfl rfl
  | faulted machine fault =>
      cases refused : machine.device.output.flushRefusal machine.device.output.flushes with
      | none =>
          simp only [conclude_failed refused]
          exact .faulted rfl
      | some reason =>
          simp only [conclude_refused (some _) refused]
          exact .unflushed rfl rfl

end Session

end WordTape
