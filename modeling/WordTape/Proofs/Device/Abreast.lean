import WordTape.Proofs.Device.Dialogue

/-!
# Devices with the same before them

Two devices may have come to the same tape and to streams that answer alike from here on,
whatever lies behind them. An instruction does the same on both: it reads and writes the
same bytes, and leaves them with the same before them again.
-/

set_option autoImplicit false

namespace WordTape

/-- Two outcomes are of the same sort, with states that are related, and of the same cause. -/
inductive Outcome.Alike {State : Type} (related : State → State → Prop) :
    Outcome State → Outcome State → Prop where
  | done {first second : State} : related first second → Alike related (.done first) (.done second)
  | stopped {first second : State} (cause : Interruption) : related first second →
      Alike related (.stopped first cause) (.stopped second cause)

/-- A write adds to the count of writes and perhaps to what was written. -/
theorem Output.exists_write (output : Output) (chunk : Bytes) :
    ∃ chunks, (output.write chunk).2 = { output with writes := output.writes + 1, chunks } := by
  simp only [write]
  split <;> exact ⟨_, rfl⟩

namespace Device

/-- Two devices have the same tape, and their streams answer all requests to come alike. -/
structure SameAhead (first second : Device) : Prop where
  tape : second.tape = first.tape
  reply : ∀ more, second.input.reply (second.input.requests + more) =
    first.input.reply (first.input.requests + more)
  refusal : ∀ more, second.output.refusal (second.output.writes + more) =
    first.output.refusal (first.output.writes + more)
  flushRefusal : ∀ more, second.output.flushRefusal (second.output.flushes + more) =
    first.output.flushRefusal (first.output.flushes + more)

/-- Since it was at the start, a device has consumed so many bytes and written these chunks. -/
structure Gained (start last : Device) (bytes : Nat) (written : List Bytes) : Prop where
  consumed : last.input.consumed = start.input.consumed + bytes
  chunks : last.output.chunks.toList = start.output.chunks.toList ++ written

/-- Two devices have the same before them, and they have gained the same since each was at
its start. -/
structure Abreast (start other first second : Device) : Prop where
  ahead : first.SameAhead second
  gained : ∃ bytes written, start.Gained first bytes written ∧ other.Gained second bytes written

variable {start other first second : Device}

theorem SameAhead.refl (device : Device) : device.SameAhead device :=
  ⟨rfl, fun _ => rfl, fun _ => rfl, fun _ => rfl⟩

theorem SameAhead.abreast (ahead : first.SameAhead second) : Abreast first second first second :=
  ⟨ahead, 0, [], ⟨rfl, (List.append_nil _).symm⟩, ⟨rfl, (List.append_nil _).symm⟩⟩

private theorem SameAhead.refusal?_eq (ahead : first.SameAhead second) (request : Request) :
    second.refusal? request = first.refusal? request := by
  cases request with
  | read =>
      have reply := ahead.reply 0
      simp only [Nat.add_zero] at reply
      simp only [refusal?, reply]
  | write chunk => exact ahead.refusal 0

private theorem SameAhead.answer?_eq (ahead : first.SameAhead second) (request : Request) :
    second.answer? request = first.answer? request := by
  cases request with
  | read =>
      have reply := ahead.reply 0
      simp only [Nat.add_zero] at reply
      simp only [answer?, reply]
  | write chunk => rfl

theorem SameAhead.ask (ahead : first.SameAhead second) (request : Request) :
    (first.ask request).SameAhead (second.ask request) := by
  obtain ⟨tape, reply, refusal, flushRefusal⟩ := ahead
  cases request with
  | read =>
      refine ⟨tape, fun more => ?_, refusal, flushRefusal⟩
      have later := reply (1 + more)
      simp only [← Nat.add_assoc] at later
      exact later
  | write chunk =>
      have later (more : Nat) := refusal (1 + more)
      simp only [← Nat.add_assoc] at later
      obtain ⟨_, written⟩ := first.output.exists_write chunk
      obtain ⟨_, otherWritten⟩ := second.output.exists_write chunk
      simp only [Device.ask, written, otherWritten]
      exact ⟨tape, reply, later, flushRefusal⟩

theorem Abreast.withTape (abreast : Abreast start other first second) (tape : Tape) :
    Abreast start other { first with tape } { second with tape } := by
  obtain ⟨⟨_, reply, refusal, flushRefusal⟩, bytes, written, own, others⟩ := abreast
  exact ⟨⟨rfl, reply, refusal, flushRefusal⟩, bytes, written, ⟨own.consumed, own.chunks⟩,
    others.consumed, others.chunks⟩

/-- What a request adds to what a device has gained depends on its answer. -/
theorem exists_gained_ask (first : Device) (request : Request) : ∃ bytes written,
    ∀ second : Device, first.SameAhead second →
      second.Gained (second.ask request) bytes written := by
  cases request with
  | read =>
      refine ⟨(first.ask .read).input.consumed - first.input.consumed, [], fun second ahead => ?_⟩
      have reply := ahead.reply 0
      simp only [Nat.add_zero] at reply
      refine ⟨?_, (List.append_nil _).symm⟩
      simp only [ask, Input.read, reply]
      omega
  | write chunk =>
      cases refused : first.output.refusal first.output.writes with
      | some reason =>
          refine ⟨0, [], fun second ahead => ⟨rfl, ?_⟩⟩
          have same := (ahead.refusal 0).trans refused
          simp only [Nat.add_zero] at same
          simp only [ask, Output.write, same, List.append_nil]
      | none =>
          refine ⟨0, [chunk], fun second ahead => ⟨rfl, ?_⟩⟩
          have same := (ahead.refusal 0).trans refused
          simp only [Nat.add_zero] at same
          simp only [ask, Output.write, same, Array.toList_push]

theorem Gained.trans {bytes more : Nat} {written later : List Bytes}
    (gained : start.Gained first bytes written) (onward : first.Gained second more later) :
    start.Gained second (bytes + more) (written ++ later) where
  consumed := by rw [onward.consumed, gained.consumed, Nat.add_assoc]
  chunks := by rw [onward.chunks, gained.chunks, List.append_assoc]

theorem Abreast.ask (abreast : Abreast start other first second) (request : Request) :
    Abreast start other (first.ask request) (second.ask request) := by
  obtain ⟨ahead, bytes, written, own, others⟩ := abreast
  obtain ⟨more, later, adds⟩ := exists_gained_ask first request
  exact ⟨ahead.ask request, bytes + more, written ++ later, own.trans (adds first (.refl first)),
    others.trans (adds second ahead)⟩

theorem Abreast.flush (abreast : Abreast start other first second) :
    Outcome.Alike (Abreast start other) first.flush second.flush := by
  obtain ⟨⟨tape, reply, refusal, flushRefusal⟩, bytes, written, own, others⟩ := abreast
  have here := flushRefusal 0
  simp only [Nat.add_zero] at here
  have later (more : Nat) := flushRefusal (1 + more)
  simp only [← Nat.add_assoc] at later
  have flushed : Abreast start other
      { first with output.flushes := first.output.flushes + 1 }
      { second with output.flushes := second.output.flushes + 1 } :=
    ⟨⟨tape, reply, refusal, later⟩, bytes, written, ⟨own.consumed, own.chunks⟩,
      others.consumed, others.chunks⟩
  simp only [Device.flush, Output.flush, here]
  cases first.output.flushRefusal first.output.flushes with
  | none => exact .done flushed
  | some reason => exact .stopped _ flushed

/-- A dialogue goes the same way on both devices. -/
theorem Abreast.hold (abreast : Abreast start other first second) (dialogue : Dialogue) :
    Outcome.Alike (Abreast start other) (dialogue.hold first) (dialogue.hold second) := by
  induction dialogue generalizing first second with
  | finish outcome =>
      cases outcome with
      | done tape => exact .done (abreast.withTape tape)
      | stopped tape cause => exact .stopped cause (abreast.withTape tape)
  | ask tape request next ih =>
      have asked := (abreast.withTape tape).ask request
      simp only [Dialogue.hold, abreast.ahead.refusal?_eq, abreast.ahead.answer?_eq]
      cases first.refusal? request with
      | some reason => exact .stopped _ asked
      | none => exact ih _ asked

theorem Abreast.act (abreast : Abreast start other first second) (instruction : Instruction) :
    Outcome.Alike (Abreast start other) (instruction.act first) (instruction.act second) := by
  rw [instruction.act_eq_hold, instruction.act_eq_hold, abreast.ahead.tape]
  exact abreast.hold (instruction.dialogue first.tape)

end Device

end WordTape
