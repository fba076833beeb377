import WordTape.Proofs.Device.Extension
import WordTape.Proofs.Device.Lines
import WordTape.Proofs.Device.Operations
import WordTape.Proofs.Tape.ZeroCells
import WordTape.Proofs.TypedCells

/-!
# Runs up to a zero

The cells from the pointer on up to the next zero are written byte by byte, or cleared. The
pointer comes to the zero, or to the end of the tape if there is none, and a write that is
refused leaves it on the cell that was to be written.
-/

set_option autoImplicit false

namespace WordTape

/-! ## Written runs -/

/-- The next writes, so many of them, are accepted. -/
def Output.AcceptsNext (count : Nat) (output : Output) : Prop :=
  ∀ write, write < count → output.refusal (output.writes + write) = none

instance (count : Nat) (output : Output) : Decidable (output.AcceptsNext count) :=
  inferInstanceAs (Decidable (∀ write, write < count → _))

namespace Tape

variable {tape : Tape} {start count : Nat}

theorem span_eq (starts : tape.pointer = start) (count : Nat) :
    tape.span count = (tape.cells.toList.drop start).take count := by
  rw [span, starts, Int.toNat_natCast, Array.toList_extract, List.extract_eq_take_drop,
    Nat.add_sub_cancel_left]

theorem length_span (starts : tape.pointer = start) (within : start + count ≤ tape.size) :
    (tape.span count).length = count := by
  rw [span_eq starts, List.length_take, List.length_drop, Array.length_toList]
  simp only [size] at within
  omega

private theorem span_succ {value : UInt8} (starts : tape.pointer = start)
    (found : tape.cells[start + count]? = some value) :
    tape.span (count + 1) = tape.span count ++ [value] := by
  rw [span_eq starts, span_eq starts, List.take_add_one, List.getElem?_drop,
    Array.getElem?_toList, found]
  rfl

end Tape

namespace Device

/-- The device has gone over bytes and written each by itself. -/
def wrote (bytes : Bytes) (device : Device) : Device where
  tape := { device.tape with pointer := device.tape.pointer + bytes.length }
  input := device.input
  output :=
    { device.output with
      writes := device.output.writes + bytes.length
      chunks := device.output.chunks ++ (bytes.map fun byte => [byte]).toArray }

/-- Since it was at a first state, a device has gone over bytes and written each by itself. -/
structure HasWritten (bytes : Bytes) (device last : Device) : Prop where
  cells : last.tape.cells = device.tape.cells
  pointer : last.tape.pointer = device.tape.pointer + bytes.length
  chunks : last.output.chunks.toList =
    device.output.chunks.toList ++ bytes.map fun byte => [byte]
  input : last.input = device.input

variable {device : Device} {start count : Nat} {value : UInt8}

private theorem wrote_nil (device : Device) : device.wrote [] = device := by
  simp [wrote]

private theorem wrote_wrote (first second : Bytes) (device : Device) :
    (device.wrote first).wrote second = device.wrote (first ++ second) := by
  simp [wrote, Nat.add_assoc, Int.add_assoc]

theorem hasWritten_wrote (bytes : Bytes) (device : Device) :
    device.HasWritten bytes (device.wrote bytes) where
  cells := rfl
  pointer := rfl
  chunks := by simp [wrote]
  input := rfl

private theorem text_wrote (bytes : Bytes) (device : Device) :
    (device.wrote bytes).output.text = device.output.text ++ bytes := by
  have joined : (bytes.map fun byte => [byte]).flatten = bytes := List.flatMap_singleton' bytes
  simp [wrote, Output.text, joined]

private theorem writeRun_step (current : device.tape.current = .ok value) (nonzero : value ≠ 0)
    (accepted : device.output.refusal device.output.writes = none) :
    device.writeRun = (device.wrote [value]).writeRun := by
  have emitted := emit_accepted accepted [value]
  have stepped := stepForward_after_emit current emitted
  rw [writeRun_eq, current]
  simp only [nonzero, ↓reduceIte]
  rw [emitted, Outcome.andThen, stepped, Outcome.andThen]
  simp [wrote, Output.accept]

section

variable (starts : device.tape.pointer = start) (within : start ≤ device.tape.size)

include starts

theorem pointer_wrote_span (room : start + count ≤ device.tape.size) :
    (device.wrote (device.tape.span count)).tape.pointer = (start + count : Nat) := by
  simp only [wrote, starts, Tape.length_span starts room, Nat.cast_add]

theorem writes_wrote_span (room : start + count ≤ device.tape.size) :
    (device.wrote (device.tape.span count)).output.writes = device.output.writes + count := by
  simp only [wrote, Tape.length_span starts room]

private theorem writeRun_of_zero (zero : device.tape.cells[start]? = some 0) :
    device.writeRun = .done device := by
  have current : device.tape.current = .ok 0 := (Tape.current_eq_ok_iff starts).mpr zero
  rw [writeRun_eq, current]
  rfl

include within

/-- In front of the next zero there is a cell to write. -/
theorem exists_current_wrote_span (inside : start + count < device.tape.zeroFrom start) :
    ∃ value, device.tape.cells[start + count]? = some value ∧ value ≠ 0 ∧
      (device.wrote (device.tape.span count)).tape.current = .ok value := by
  have room : start + count < device.tape.size :=
    Nat.lt_of_lt_of_le inside (Tape.zeroFrom_le within)
  obtain ⟨value, found, nonzero⟩ :=
    Tape.exists_nonzero_of_lt_zeroFrom within (Nat.le_add_right start count) inside
  have pointer := pointer_wrote_span starts (Nat.le_of_lt room)
  exact ⟨value, found, nonzero, (Tape.current_eq_ok_iff pointer).mpr found⟩

/-- Written up to the next zero, the run leaves the pointer there. -/
theorem pointer_wrote_run :
    (device.wrote (device.tape.span (device.tape.zeroFrom start - start))).tape.pointer =
      device.tape.zeroFrom start := by
  have reached : start + (device.tape.zeroFrom start - start) = device.tape.zeroFrom start :=
    Nat.add_sub_cancel' (Tape.le_zeroFrom start device.tape)
  have moved := pointer_wrote_span starts (reached.symm ▸ Tape.zeroFrom_le within)
  rwa [reached] at moved

/-- As long as the run goes on and writes are accepted, it is written. -/
theorem writeRun_wrote (inside : start + count ≤ device.tape.zeroFrom start)
    (accepts : device.output.AcceptsNext count) :
    device.writeRun = (device.wrote (device.tape.span count)).writeRun := by
  induction count with
  | zero => rw [Tape.span_eq starts, List.take_zero, wrote_nil]
  | succ count ih =>
      have bound := Tape.zeroFrom_le within
      have earlier := ih (by omega) fun write below => accepts write (by omega)
      obtain ⟨value, found, nonzero, current⟩ :=
        exists_current_wrote_span starts within (Nat.lt_of_succ_le inside)
      have accepted := accepts count (Nat.lt_succ_self count)
      rw [← writes_wrote_span starts (by omega)] at accepted
      rw [earlier, writeRun_step current nonzero accepted, wrote_wrote,
        ← Tape.span_succ starts found]

/-- A run whose writes are all accepted is written up to the next zero. -/
theorem writeRun_of_accepts
    (accepts : device.output.AcceptsNext (device.tape.zeroFrom start - start)) :
    device.writeRun =
      if device.tape.zeroFrom start = device.tape.size then
        .stopped (device.wrote (device.tape.span (device.tape.zeroFrom start - start)))
          (.fault (.noCellToRead device.tape.size))
      else .done (device.wrote (device.tape.span (device.tape.zeroFrom start - start))) := by
  let last := device.wrote (device.tape.span (device.tape.zeroFrom start - start))
  have bound := Tape.zeroFrom_le within
  have reached : start + (device.tape.zeroFrom start - start) = device.tape.zeroFrom start :=
    Nat.add_sub_cancel' (Tape.le_zeroFrom start device.tape)
  have pointer : last.tape.pointer = (device.tape.zeroFrom start : Nat) :=
    pointer_wrote_run starts within
  rw [writeRun_wrote starts within (Nat.le_of_eq reached) accepts, writeRun_eq]
  by_cases ends : device.tape.zeroFrom start = device.tape.size
  · have current : last.tape.current = .error (.noCellToRead last.tape.size) :=
      Tape.current_at_size (ends ▸ pointer)
    rw [if_pos ends, current]
    rfl
  · have zero := Tape.zero_at_zeroFrom (Nat.lt_of_le_of_ne bound ends)
    rw [if_neg ends, (Tape.current_eq_ok_iff pointer).mpr zero]
    rfl

theorem state_writeRun
    (accepts : device.output.AcceptsNext (device.tape.zeroFrom start - start)) :
    device.writeRun.state =
      device.wrote (device.tape.span (device.tape.zeroFrom start - start)) := by
  rw [writeRun_of_accepts starts within accepts]
  split <;> rfl

theorem cause?_writeRun
    (accepts : device.output.AcceptsNext (device.tape.zeroFrom start - start)) :
    device.writeRun.cause? =
      if device.tape.zeroFrom start = device.tape.size then
        some (.fault (.noCellToRead device.tape.size))
      else none := by
  rw [writeRun_of_accepts starts within accepts]
  split <;> rfl

theorem pointer_writeRun
    (accepts : device.output.AcceptsNext (device.tape.zeroFrom start - start)) :
    device.writeRun.state.tape.pointer = device.tape.zeroFrom start := by
  rw [state_writeRun starts within accepts, pointer_wrote_run starts within]

/-- Where a cell is to be written, the run that is written is the one that would be cleared. -/
theorem writeRun_like_clearRun (before : start < device.tape.size)
    (nonzero : device.tape.cells[start]? ≠ some 0)
    (accepts : device.output.AcceptsNext (device.tape.zeroFrom start - start)) :
    device.writeRun.state.tape.pointer = device.tape.clearRun.state.pointer ∧
      device.writeRun.cause? = device.tape.clearRun.cause? := by
  have found : device.tape.cells[start]? = some _ := Array.getElem?_eq_getElem before
  have same : device.tape.zeroFrom start = device.tape.zeroFrom (start + 1) :=
    Tape.zeroFrom_of_nonzero found fun zero => nonzero (zero ▸ found)
  refine ⟨?_, ?_⟩
  · rw [pointer_writeRun starts within accepts, Tape.pointer_clearRun starts before, same]
  · rw [cause?_writeRun starts within accepts, Tape.cause?_clearRun starts before, same]

/-- A write of a run that is refused stops it. -/
theorem writeRun_of_refusal {reason : Bytes}
    (inside : start + count < device.tape.zeroFrom start)
    (accepts : device.output.AcceptsNext count)
    (refused : device.output.refusal (device.output.writes + count) = some reason) :
    ∃ last, device.writeRun = .stopped last (.fault (.stream reason)) ∧
      device.HasWritten (device.tape.span count) last := by
  have bound := Tape.zeroFrom_le within
  let last := device.wrote (device.tape.span count)
  have written : device.HasWritten _ last := device.hasWritten_wrote (device.tape.span count)
  obtain ⟨value, _, nonzero, current⟩ := exists_current_wrote_span starts within inside
  rw [← writes_wrote_span starts (by omega)] at refused
  refine ⟨{ last with output.writes := last.output.writes + 1 }, ?_,
    written.cells, written.pointer, written.chunks, written.input⟩
  rw [writeRun_wrote starts within (Nat.le_of_lt inside) accepts, writeRun_eq, current]
  simp only [nonzero, ↓reduceIte]
  rw [emit_refused refused]
  rfl

end

section

variable {text : Bytes} (solid : 0 ∉ text)
  (zero : device.tape.cells[start + text.length]? = some 0)

include solid zero

private theorem zeroFrom_stored : (device.stored start text start).tape.zeroFrom start =
    start + text.length := by
  have room : start + text.length ≤ device.tape.cells.size :=
    Nat.le_of_lt (Array.getElem?_eq_some_iff.mp zero).1
  apply Tape.zeroFrom_eq (Nat.le_add_right _ _)
  · intro index behind before zero
    rw [stored, getElem?_overwrite room, if_pos ⟨behind, before⟩] at zero
    exact solid (List.mem_of_getElem? zero)
  · rw [stored, getElem?_overwrite room, if_neg (by omega), zero]

/-- A string without a zero that is stored in front of a zero is the run that is written from
its start. -/
theorem actAll_setString_writeRun (starts : device.tape.pointer = start)
    (accepts : device.output.AcceptsNext text.length) :
    Instruction.actAll [.setString text, .moveBackward text.length, .writeRun] device =
      .done ((device.stored start text start).wrote text) := by
  let back := device.stored start text start
  have before : start + text.length < device.tape.size := (Array.getElem?_eq_some_iff.mp zero).1
  have stored : (Instruction.setString text).act device =
      .done (device.stored start text (start + text.length)) :=
    onTape_done (Tape.setString_eq starts (Nat.le_of_lt before))
  have size : back.tape.size = device.tape.size := size_overwrite _ _ _
  have place : back.tape.zeroFrom start = start + text.length := zeroFrom_stored solid zero
  have width : back.tape.zeroFrom start - start = text.length := by omega
  have span : back.tape.span text.length = text := extract_overwrite (Nat.le_of_lt before)
  have written : back.writeRun = _ :=
    writeRun_of_accepts rfl (by omega) (width.symm ▸ accepts)
  rw [place, size, if_neg (Nat.ne_of_lt before), Nat.add_sub_cancel_left, span] at written
  have ran : Instruction.writeRun.act back = .done (back.wrote text) := written
  rw [Instruction.actAll_cons stored, Instruction.actAll_cons (act_moveBackward start text.length),
    Instruction.actAll_cons ran]
  rfl

end

end Device

/-- The cells from the pointer on up to the next zero are written one by one, and an index fault
tells that no zero ends them. A write that is refused stops the run on its cell. Either way no
cell changes, and the pointer has gone over the bytes that were written. So a string that is
stored in front of a zero is written as it is. -/
theorem run_is_written_up_to_zero (device : Device) (start : Nat)
    (starts : device.tape.pointer = start) (within : start ≤ device.tape.size) :
    let place := device.tape.zeroFrom start
    let wrote := device.writeRun
    (device.output.AcceptsNext (place - start) →
      device.HasWritten (device.tape.span (place - start)) wrote.state ∧
      wrote.state.tape.pointer = place ∧
      wrote.FaultsIff .index (place = device.tape.size)) ∧
    (∀ count reason, count < place - start → device.output.AcceptsNext count →
      device.output.refusal (device.output.writes + count) = some reason →
      device.HasWritten (device.tape.span count) wrote.state ∧
      wrote.state.tape.pointer = (start + count : Nat) ∧
      ∃ fault, wrote.cause? = some (.fault fault) ∧ fault.kind = .io ∧
        fault.description = reason) ∧
    ∀ text, 0 ∉ text → start + text.length < device.tape.size →
      device.tape.cells[start + text.length]? = some 0 →
      device.output.AcceptsNext text.length →
      ∃ last,
        Instruction.actAll [.setString text, .moveBackward text.length, .writeRun] device =
          .done last ∧
        last.output.text = device.output.text ++ text := by
  intro place wrote
  have bound : place ≤ device.tape.size := Tape.zeroFrom_le within
  refine ⟨?_, ?_, ?_⟩
  · intro accepts
    have written := device.hasWritten_wrote (device.tape.span (place - start))
    rw [← Device.state_writeRun starts within accepts] at written
    exact ⟨written, Device.pointer_writeRun starts within accepts,
      .of_cause? rfl (Device.cause?_writeRun starts within accepts)⟩
  · intro count reason inside accepts refused
    obtain ⟨last, stopped, written⟩ :=
      Device.writeRun_of_refusal starts within (by omega) accepts refused
    have length : (device.tape.span count).length = count :=
      Tape.length_span starts (by omega)
    have state : wrote.state = last := congrArg Outcome.state stopped
    refine ⟨state ▸ written, ?_, .stream reason, congrArg Outcome.cause? stopped, rfl, rfl⟩
    rw [state, written.pointer, starts, length, Nat.cast_add]
  · intro text solid _ zero accepts
    exact ⟨_, Device.actAll_setString_writeRun solid zero starts accepts,
      Device.text_wrote text _⟩

/-- A run of two bytes, on a sound output and on one that refuses the second write. A string of
two bytes that takes its place is written like it. -/
theorem two_bytes_are_written_or_one :
    let tape : Tape := { cells := #[65, 66, 0], pointer := 0 }
    let sound : Device := { tape, input := .ofBytes #[], output := {} }
    let failing : Device :=
      { tape, input := .ofBytes #[]
        output := { refusal := Output.refusingAfter 1 (Bytes.ofString "full") } }
    tape.pointer = 0 ∧ 0 ≤ tape.size ∧
    (sound.writeRun.state.tape.pointer = 2 ∧ sound.writeRun.cause? = none ∧
      sound.writeRun.state.output.chunks.toList = [[65], [66]]) ∧
    (failing.writeRun.state.tape.pointer = 1 ∧
      failing.writeRun.state.output.chunks.toList = [[65]] ∧
      ∃ fault, failing.writeRun.cause? = some (.fault fault) ∧ fault.kind = .io ∧
        fault.description = Bytes.ofString "full") ∧
    ∃ last,
      Instruction.actAll [.setString [72, 73], .moveBackward 2, .writeRun] sound = .done last ∧
      last.output.text = [72, 73] := by
  intro tape sound failing
  have starts : tape.pointer = (0 : Nat) := rfl
  have within : 0 ≤ tape.size := Nat.zero_le _
  have place : tape.zeroFrom 0 = 2 := by decide
  have accepts (count : Nat) : sound.output.AcceptsNext count := fun _ _ => rfl
  obtain ⟨whole, _, stored⟩ := run_is_written_up_to_zero sound 0 starts within
  obtain ⟨written, pointer, faults⟩ := whole (accepts _)
  obtain ⟨_, refuses, _⟩ := run_is_written_up_to_zero failing 0 starts within
  obtain ⟨first, stopped, fault⟩ :=
    refuses 1 (Bytes.ofString "full") (by decide) (by decide) (by decide)
  exact ⟨starts, within, ⟨pointer.trans (congrArg _ place), faults.done (by decide),
    written.chunks.trans (by decide)⟩, ⟨stopped, first.chunks.trans (by decide), fault⟩,
    stored [72, 73] (by decide) (by decide) (by decide) (accepts _)⟩

/-- Clearing zeroes the cell at the pointer and the cells behind it up to the next zero, and
leaves the others. An index fault tells that no zero ends them. On a cell that is not zero the
run is the one that would be written; on a zero nothing would be written, and the cells up to
the zero behind it are cleared. -/
theorem run_is_cleared_up_to_zero (tape : Tape) (start : Nat) (starts : tape.pointer = start) :
    let cleared := tape.clearRun
    let place := tape.zeroFrom (start + 1)
    (start < tape.size →
      (∀ index, cleared.state.cells[index]? =
        if start ≤ index ∧ index < place then some 0 else tape.cells[index]?) ∧
      cleared.state.pointer = place ∧
      cleared.FaultsIff .index (place = tape.size) ∧
      ∀ input output, output.AcceptsNext (tape.zeroFrom start - start) →
        let wrote := Device.writeRun { tape, input, output }
        (tape.cells[start]? ≠ some 0 →
          wrote.state.tape.pointer = cleared.state.pointer ∧ wrote.cause? = cleared.cause?) ∧
        (tape.cells[start]? = some 0 →
          wrote = .done { tape, input, output } ∧ tape.pointer < cleared.state.pointer)) ∧
    (start = tape.size → cleared.state = tape ∧ cleared.FaultsIff .index True) := by
  intro cleared place
  refine ⟨?_, ?_⟩
  · intro before
    have behind : start + 1 ≤ place := Tape.le_zeroFrom (start + 1) tape
    have bound : place ≤ tape.size := Tape.zeroFrom_le before
    have reached : start + (place - start) = place := by omega
    have state : cleared.state = tape.cleared start (place - start) :=
      Tape.state_clearRun starts before
    have pointer : cleared.state.pointer = place := Tape.pointer_clearRun starts before
    refine ⟨?_, pointer, .of_cause? rfl (Tape.cause?_clearRun starts before), ?_⟩
    · intro index
      rw [state, Tape.getElem?_cleared (reached.symm ▸ bound), reached]
    · intro input output accepts wrote
      let device : Device := { tape, input, output }
      refine ⟨?_, ?_⟩
      · intro nonzero
        exact device.writeRun_like_clearRun starts (Nat.le_of_lt before) before nonzero accepts
      · intro zero
        have stays : wrote = .done device := Device.writeRun_of_zero starts zero
        refine ⟨stays, ?_⟩
        rw [pointer, starts]
        omega
  · rintro rfl
    have stopped := Tape.clearRun_at_size starts
    exact ⟨congrArg Outcome.state stopped,
      .of_cause? rfl ((congrArg Outcome.cause? stopped).trans (if_pos trivial).symm)⟩

/-- From a zero on, where no cell would be written, the run behind it is cleared. The last run
has no zero behind it, and it ends with the same fault as if it were written. -/
theorem zero_cell_joins_run_behind :
    let tape : Tape := { cells := #[0, 5, 6, 0, 7], pointer := 0 }
    let second : Tape := { cells := #[0, 5, 6, 0, 7], pointer := 4 }
    tape.clearRun.state.cells[2]? = some 0 ∧ tape.clearRun.state.cells[4]? = some 7 ∧
    tape.clearRun.state.pointer = 3 ∧ tape.clearRun.cause? = none ∧
    Device.writeRun { tape, input := .ofBytes #[], output := {} } =
      .done { tape, input := .ofBytes #[], output := {} } ∧
    second.clearRun.state.pointer = 5 ∧
    (∃ fault, second.clearRun.cause? = some (.fault fault) ∧ fault.kind = .index) ∧
    (Device.writeRun { tape := second, input := .ofBytes #[], output := {} }).cause? =
      second.clearRun.cause? := by
  intro tape second
  obtain ⟨before, _⟩ := run_is_cleared_up_to_zero tape 0 rfl
  obtain ⟨cells, pointer, faults, writes⟩ := before (by decide)
  obtain ⟨_, stays⟩ := writes (.ofBytes #[]) {} fun _ _ => rfl
  obtain ⟨last, _⟩ := run_is_cleared_up_to_zero second 4 rfl
  obtain ⟨_, rests, ends, alike⟩ := last (by decide)
  obtain ⟨same, _⟩ := alike (.ofBytes #[]) {} fun _ _ => rfl
  exact ⟨cells 2, cells 4, pointer, faults.done (by decide), (stays rfl).1, rests,
    ends.faults (by decide), (same (by decide)).2⟩

end WordTape
