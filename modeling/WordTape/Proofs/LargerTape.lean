import WordTape.Proofs.Device.Extension
import WordTape.Proofs.Invariants
import WordTape.Proofs.Lockstep
import WordTape.Proofs.SessionRun

/-!
# Larger tapes

A larger tape never changes a good run. A run that completes, that does not end, or that
any fault but an index stops, goes the same way on more cells: the tape ends in more
zeros, and everything else is as it was.
-/

set_option autoImplicit false

namespace WordTape

open Machine

/-- The error is an index that is on no cell. -/
def RunError.IsIndex : RunError → Prop
  | reported report => report.kind = .index
  | foreignSource _ | codec _ => False

/-- Two sessions differ in nothing but zero cells at the end of the tape and the log. -/
structure Session.Widened (extra : Nat) (session wider : Session) : Prop where
  cells : wider.machine.device.tape.cells =
    session.machine.device.tape.cells ++ Array.replicate extra 0
  pointer : wider.machine.device.tape.pointer = session.machine.device.tape.pointer
  output : wider.machine.device.output = session.machine.device.output
  input : wider.machine.device.input = session.machine.device.input
  loops : wider.machine.loops = session.machine.loops
  index : wider.machine.index = session.machine.index

namespace Session

variable {extra : Nat} {machine other : Machine}

private theorem isIndex_errorOf {fault : RunFault} (program : Bytes)
    (eased : fault.Excused (Interruption.EasedBy extra)) : (errorOf program fault).IsIndex := by
  cases fault with
  | notInstruction _ | noOpenLoop _ => cases eased
  | interrupted token cause =>
      obtain ⟨_, fault, rfl, kind⟩ := eased
      simp only [errorOf, RunFault.report, RunFault.cause, kind, Except.map]
      rfl

theorem machineFor_inStep (program : Bytes) (size extra : Nat) (input : Input) (output : Output) :
    ((start size input output).machineFor program).InStep (Device.extend extra id) 0
      ((start (size + extra) input output).machineFor program) where
  device := by
    simp only [device_machineFor, start, Device.extend, Tape.blank_extend]
    rfl
  loops := rfl
  index := rfl

theorem widened_of_inStep (inStep : machine.InStep (Device.extend extra id) 0 other)
    (tokens : Array Token) : Widened extra { machine, tokens } { machine := other, tokens } := by
  obtain ⟨device, loops, index⟩ := inStep
  refine ⟨?_, ?_, ?_, ?_, ?_, ?_⟩
  · simp only [device, Device.extend, Tape.extend]
  · simp only [device, Device.extend, Tape.pointer_extend]
  · simp only [device, Device.extend]
    rfl
  · simp only [device, Device.extend]
  · simp [loops]
  · rw [index, Nat.zero_add]

theorem widened_start (size extra : Nat) (input : Input) (output : Output) :
    Widened extra (start size input output) (start (size + extra) input output) where
  cells := congrArg Tape.cells (Tape.blank_extend size extra).symm
  pointer := rfl
  output := rfl
  input := rfl
  loops := rfl
  index := rfl

private theorem widened_flushed (inStep : machine.InStep (Device.extend extra id) 0 other)
    (tokens : Array Token) :
    Widened extra { machine := flushed machine, tokens } { machine := flushed other, tokens } := by
  obtain ⟨cells, pointer, output, input, loops, index⟩ := widened_of_inStep inStep tokens
  refine ⟨cells, pointer, ?_, input, loops, index⟩
  simp only [flushed]
  rw [output]

private theorem widened_recorded (inStep : machine.InStep (Device.extend extra id) 0 other)
    (tokens : Array Token) :
    Widened extra { machine := recorded machine, tokens }
      { machine := recorded other, tokens } := by
  obtain ⟨cells, pointer, output, input, loops, index⟩ := widened_flushed inStep tokens
  exact ⟨cells, pointer, output, input, loops, index⟩

/-- More cells change nothing of a run that completes, that does not end, or that any
fault but an index stops, except for the zeros at the end of the tape. -/
theorem larger_tape_changes_no_good_run {size larger : Nat} (fits : size ≤ larger)
    (source : Source) (input : Input) {output : Output}
    (flushes : ∀ flush, output.flushRefusal flush = none) (bound : Nat) :
    match (start size input output).run bound source with
    | .completed last => ∃ wider,
        (start larger input output).run bound source = .completed wider ∧
          last.Widened (larger - size) wider
    | .failed last error => error.IsIndex ∨ ∃ wider,
        (start larger input output).run bound source = .failed wider error ∧
          last.Widened (larger - size) wider
    | .suspended last position => ∃ wider,
        (start larger input output).run bound source = .suspended wider position ∧
          last.Widened (larger - size) wider := by
  obtain ⟨extra, rfl⟩ := Nat.exists_eq_add_of_le fits
  rw [Nat.add_sub_cancel_left]
  cases source with
  | unreadable reason => exact .inr ⟨_, rfl, widened_start size extra input output⟩
  | foreign typeName => exact .inr ⟨_, rfl, widened_start size extra input output⟩
  | contents program =>
      have agree := execute_inStep (Device.extend_mirror extra id)
        (Placed.refl (Lexer.tokenize program)) (Nat.zero_add _).symm bound 0
        (machineFor_inStep program size extra input output)
      have narrow : (start size input output).AlwaysFlushes := flushes
      have wide : (start (size + extra) input output).AlwaysFlushes := flushes
      rw [run_eq_of_alwaysFlushes (Source.read_contents program) narrow,
        run_eq_of_alwaysFlushes (Source.read_contents program) wide]
      rw [Nat.zero_add] at agree
      generalize execute _ _ _ ((start size input output).machineFor program) = ran at agree ⊢
      generalize execute _ _ _ ((start (size + extra) input output).machineFor program) = wider
        at agree ⊢
      cases agree with
      | @suspended position machine other inStep =>
          rw [Nat.zero_add]
          exact ⟨_, rfl, widened_of_inStep inStep _⟩
      | finished inStep => exact ⟨_, rfl, widened_recorded inStep _⟩
      | @faulted machine other fault inStep =>
          rw [RunFault.below_zero]
          exact .inr ⟨_, rfl, widened_flushed inStep _⟩
      | excused eased => exact .inl (isIndex_errorOf program eased)

/-- A text that fills a tape, with the pointer at rest behind it, stands on a larger one. -/
theorem text_stands_on_larger_tape :
    let source : Source := .contents (Bytes.ofString "set A")
    1 ≤ 2 ∧ (∀ flush, ({} : Output).flushRefusal flush = none) ∧
      ∃ last wider, (start 1 (.ofBytes #[]) {}).run 1 source = .completed last ∧
        (start 2 (.ofBytes #[]) {}).run 1 source = .completed wider ∧ last.Widened 1 wider := by
  intro source
  have flushes : ∀ flush, ({} : Output).flushRefusal flush = none := fun _ => rfl
  have completes : ((start 1 (.ofBytes #[]) {}).run 1 source).completed?.isSome := by
    decide +kernel
  have ran := SessionRun.eq_completed completes
  have wide := larger_tape_changes_no_good_run (by decide : 1 ≤ 2) source (.ofBytes #[]) flushes 1
  rw [ran] at wide
  obtain ⟨wider, widerRan, widened⟩ := wide
  exact ⟨by decide, flushes, _, wider, ran, widerRan, widened⟩

end Session

end WordTape
