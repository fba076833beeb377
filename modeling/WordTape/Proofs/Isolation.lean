import WordTape.Proofs.History
import WordTape.Proofs.RunsAbreast

/-!
# Runs of a session are isolated

What a run does depends on the tape and on the streams as it finds them, and on nothing else
that earlier calls of the session have left: not on their loops, their positions, their
tokens or their sources. So a reset makes a session as good as new, and a source that cannot
be read changes nothing.
-/

set_option autoImplicit false

namespace WordTape

theorem Device.SameBehavior.symm {first second : Device} (same : first.SameBehavior second) :
    second.SameBehavior first :=
  ⟨same.reply.symm, same.refusal.symm, same.flushRefusal.symm⟩

/-- Devices with equal streams have the same before them where these have had equally many
requests. -/
theorem Device.SameBehavior.sameAhead {first second : Device} (same : first.SameBehavior second)
    (tape : second.tape = first.tape) (requests : second.input.requests = first.input.requests)
    (writes : second.output.writes = first.output.writes)
    (flushes : second.output.flushes = first.output.flushes) : first.SameAhead second where
  tape := tape
  reply := by
    intro more
    rw [same.reply, requests]
  refusal := by
    intro more
    rw [same.refusal, writes]
  flushRefusal := by
    intro more
    rw [same.flushRefusal, flushes]

namespace Session

private theorem flush_sameBehavior (device : Device) : device.SameBehavior device.flush.state := by
  obtain ⟨tape, input, output⟩ := device
  simp only [Device.flush, Output.flush]
  cases output.flushRefusal output.flushes <;> exact ⟨rfl, rfl, rfl⟩

/-- No calls change how the streams answer. -/
theorem after_sameBehavior (session : Session) (calls : List Call) :
    session.machine.device.SameBehavior (session.after calls).machine.device :=
  after_invariant
    (fun instruction device same => same.trans (instruction.act_sameBehavior device))
    (fun device same => same.trans (flush_sameBehavior device))
    (fun _ same => same.trans ⟨rfl, rfl, rfl⟩) calls (.refl _)

/-- Faults that match in two runs of one program are reported by the same error. -/
theorem errorOf_eq_of_matches {program : Bytes} {fault other : RunFault}
    (matched : RunFault.Matches (Lexer.tokenize program) (Lexer.tokenize program) fault other) :
    errorOf program fault = errorOf program other := by
  obtain ⟨cause, position, found, there⟩ := matched
  have token : fault.token = other.token := Option.some.inj (found.symm.trans there)
  simp only [errorOf, RunFault.report, cause, token]

variable {session other : Session}

private theorem error?_eq_of_abreast {run otherRun : SessionRun}
    (abreast : SessionRun.Abreast Eq session other Eq run otherRun) :
    otherRun.error? = run.error? := by
  cases abreast with
  | completed last | suspended last => rfl
  | failed last same => exact congrArg some same.symm

theorem run_isolated (ahead : session.machine.device.SameAhead other.machine.device)
    {source : Source} {program : Bytes} (readable : source.read = .ok program) (bound : Nat) :
    SessionRun.Abreast Eq session other Eq (session.run bound source) (other.run bound source) := by
  cases source with
  | unreadable reason | foreign typeName => cases readable
  | contents text =>
      exact run_abreast (fun _ => rfl) ahead (.refl _) rfl (fun _ _ => errorOf_eq_of_matches) bound

/-- A source that cannot be read leaves the session as it is. -/
theorem run_of_unreadable {source : Source} {reason : SourceError}
    (unreadable : source.read = .error reason) (session : Session) (bound : Nat) :
    ∃ error, session.run bound source = .failed session error := by
  cases source with
  | contents text => cases unreadable
  | unreadable reason | foreign typeName => exact ⟨_, rfl⟩

/-- A session on the streams that another has come to, with a blank tape of the same size. -/
def renewed (session : Session) : Session :=
  start session.machine.device.tape.size session.machine.device.input
    session.machine.device.output

private theorem run_reset (session : Session) (bound : Nat) (source : Source) :
    SessionRun.Abreast Eq session.reset session.renewed Eq (session.reset.run bound source)
      (session.renewed.run bound source) := by
  have ahead : session.reset.machine.device.SameAhead session.renewed.machine.device := .refl _
  have abreast : Abreast Eq session.reset session.renewed session.reset session.renewed :=
    ⟨⟨ahead.abreast, rfl, rfl⟩, rfl⟩
  cases source with
  | contents program => exact run_isolated ahead (Source.read_contents program) bound
  | unreadable reason | foreign typeName => exact .failed abreast rfl

/-- Whatever two sessions have been called for, they run a source alike if they have come to
the same tape and to streams that go on alike. After a reset a session runs every source as
one does that has just started on its streams; and a source that cannot be read leaves it as
it is. -/
theorem runs_are_isolated (first second : Session) (calls otherCalls : List Call)
    (bound : Nat) :
    let session := first.after calls
    let other := second.after otherCalls
    (session.machine.device.SameAhead other.machine.device →
      ∀ source program, source.read = .ok program →
        SessionRun.Abreast Eq session other Eq (session.run bound source)
          (other.run bound source)) ∧
    (∀ source, SessionRun.Abreast Eq session.reset session.renewed Eq
      (session.reset.run bound source) (session.renewed.run bound source)) ∧
    ∀ source reason, source.read = .error reason →
      ∃ error, session.run bound source = .failed session error := by
  intro session other
  refine ⟨fun ahead source program readable => run_isolated ahead readable bound,
    session.run_reset bound, fun source reason unreadable => ?_⟩
  exact run_of_unreadable unreadable session bound

/-- A loop that a fault has left open does not serve the next run: a stray `pol` is refused
as in a session whose programs had no loop. -/
theorem abandoned_loop_is_forgotten :
    let begun := Session.start 1 (.ofBytes #[]) {}
    let calls : List Call := [.run (.contents (Bytes.ofString "lop inc 1 stop")) 3]
    let otherCalls : List Call := [.run (.unreadable (Bytes.ofString "no such disk")) 1,
      .run (.contents (Bytes.ofString "inc 1")) 1]
    let session := begun.after calls
    let other := begun.after otherCalls
    let source : Source := .contents (Bytes.ofString "pol")
    session.machine.device.SameAhead other.machine.device ∧
      source.read = .ok (Bytes.ofString "pol") ∧
      session.machine.loops = [0] ∧ other.machine.loops = [] ∧
      ∃ report, report.kind = .loopStackUnderflow ∧
        (session.run 1 source).error? = some (.reported report) ∧
        (other.run 1 source).error? = some (.reported report) := by
  intro begun calls otherCalls session other source
  have streams : session.machine.device.SameBehavior other.machine.device :=
    (after_sameBehavior begun calls).symm.trans (after_sameBehavior begun otherCalls)
  have ahead : session.machine.device.SameAhead other.machine.device := by
    apply streams.sameAhead <;> decide +kernel
  have fails : (session.run 1 source).error? = some (.reported (.make .loopStackUnderflow
      (Bytes.ofString "Expected an index on the loop stack. Found nothing.")
      (some (Bytes.ofString "pol")) (some 1) (some 1))) := by decide +kernel
  obtain ⟨alike, -, -⟩ := runs_are_isolated begun begun calls otherCalls 1
  have same := error?_eq_of_abreast (alike ahead source _ rfl)
  exact ⟨ahead, rfl, by decide +kernel, by decide +kernel, _, rfl, fails,
    same.trans fails⟩

end Session

end WordTape
