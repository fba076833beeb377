import WordTape.Proofs.Tape.Extension

/-!
# Devices with more cells

An instruction does the same on a device with more cells, unless it stops at the end of
the shorter tape. How often the output was flushed makes no difference to it.
-/

set_option autoImplicit false

namespace WordTape

open Outcome

namespace Device

/-- The device with more cells, which are zero, and another count of its flushes. -/
def extend (extra : Nat) (recount : Nat → Nat) (device : Device) : Device :=
  { device with
    tape := device.tape.extend extra
    output.flushes := recount device.output.flushes }

variable (extra : Nat) (recount : Nat → Nat)

private theorem onTape_mirrors {operation : Tape → Outcome Tape}
    (mirrors : Mirrors (Tape.extend extra) (Interruption.EasedBy extra) operation) :
    Mirrors (extend extra recount) (Interruption.EasedBy extra) (onTape operation) := by
  intro device
  obtain ⟨tape, input, output⟩ := device
  have mirrored := mirrors tape
  simp only [onTape, extend]
  generalize operation tape = outcome at mirrored ⊢
  generalize operation (tape.extend extra) = other at mirrored ⊢
  cases mirrored with
  | done tape => exact .done (Device.mk tape input output)
  | stopped tape cause => exact .stopped (Device.mk tape input output) cause
  | excused eased => exact .excused eased

private theorem emit_mirrors (chunk : Bytes) :
    Mirrors (extend extra recount) (Interruption.EasedBy extra) (emit chunk) := by
  intro device
  obtain ⟨tape, input, output⟩ := device
  simp only [emit, extend, Output.write]
  cases output.refusal output.writes with
  | none => exact .done (Device.mk tape input _)
  | some reason => exact .stopped (Device.mk tape input _) _

private theorem writeCell_mirrors :
    Mirrors (extend extra recount) (Interruption.EasedBy extra) writeCell := by
  intro device
  cases current : device.tape.current with
  | error fault =>
      simp only [writeCell, current]
      apply mirrored_of_kind (Tape.kind_of_current current)
      intro none
      simp only [extend, none, Tape.extend_zero, current]
  | ok value =>
      have same := Tape.current_extend extra (Tape.onCell_of_current current)
      simp only [writeCell, current, extend, same]
      exact emit_mirrors extra recount [value] device

private theorem writeAs_mirrors (type : NumericType) :
    Mirrors (extend extra recount) (Interruption.EasedBy extra) (writeAs type) := by
  intro device
  cases placed : device.tape.misplaced? type.width with
  | some fault =>
      simp only [writeAs, Tape.numberText, placed]
      apply mirrored_of_kind (Tape.kind_of_misplaced placed)
      intro none
      simp only [extend, none, Tape.extend_zero, placed]
  | none =>
      simp only [writeAs, extend, Tape.numberText_extend extra placed]
      cases device.tape.numberText type with
      | error cause => exact .stopped device cause
      | ok text => exact emit_mirrors extra recount text device

private theorem readByte_mirrors :
    Mirrors (extend extra recount) (Interruption.EasedBy extra) readByte := by
  intro device
  obtain ⟨tape, input, output⟩ := device
  simp only [readByte, extend]
  split
  · exact .stopped (Device.mk tape _ output) _
  · exact .done (Device.mk tape _ output)
  · rename_i byte later answered
    exact onTape_mirrors extra recount (Tape.store_mirrors extra byte)
      { tape, input := later, output }

theorem readLine_eq (device : Device) :
    device.readLine =
      match device.input.read with
      | (.failure reason, input) => .stopped { device with input } (.fault (.stream reason))
      | (.endOfInput, input) => .done { device with input }
      | (.byte byte, input) =>
          if byte = Bytes.lineFeed then .done { device with input }
          else (onTape (Tape.storeNext byte) { device with input }).andThen readLine := by
  obtain ⟨tape, input, output⟩ := device
  rw [readLine]
  cases input.read with
  | mk answer later =>
      cases answer with
      | failure reason => rfl
      | endOfInput => rfl
      | byte value =>
          dsimp only
          split
          · rfl
          · split
            · rename_i stored
              simp only [onTape, stored]
              rfl
            · rename_i stored
              simp only [onTape, stored]
              rfl

private theorem readLine_mirrors :
    Mirrors (extend extra recount) (Interruption.EasedBy extra) readLine := by
  intro device
  have stores (byte : UInt8) (device : Device) :=
    onTape_mirrors extra recount (Tape.storeNext_mirrors extra byte) device
  fun_induction readLine device with
  | case1 tape input output reason later answered =>
      rw [readLine_eq]
      simp only [extend, answered]
      exact .stopped (Device.mk tape later output) _
  | case2 tape input output later answered =>
      rw [readLine_eq]
      simp only [extend, answered]
      exact .done (Device.mk tape later output)
  | case3 tape input output later answered =>
      rw [readLine_eq]
      simp only [extend, answered, ↓reduceIte]
      exact .done (Device.mk tape later output)
  | case4 tape input output byte later answered notLineFeed last cause stored =>
      have stopped : onTape (Tape.storeNext byte) { tape, input := later, output } =
          .stopped { tape := last, input := later, output } cause := by
        simp only [onTape, stored]
      have stops := stores byte { tape, input := later, output }
      rw [stopped] at stops
      rw [readLine_eq]
      simp only [extend, answered, notLineFeed, ↓reduceIte]
      exact stops.stop readLine
  | case5 tape input output byte later answered notLineFeed next stored ih =>
      have stepped : onTape (Tape.storeNext byte) { tape, input := later, output } =
          .done { tape := next, input := later, output } := by
        simp only [onTape, stored]
      have steps := stores byte { tape, input := later, output }
      rw [stepped] at steps
      have reads : (extend extra recount { tape, input, output }).readLine =
          (onTape (Tape.storeNext byte)
            (extend extra recount { tape, input := later, output })).andThen readLine := by
        rw [readLine_eq]
        simp only [extend, answered, notLineFeed, ↓reduceIte]
      rw [reads, steps.of_done]
      exact ih

theorem writeRun_eq (device : Device) :
    device.writeRun =
      match device.tape.current with
      | .error fault => .stopped device (.fault fault)
      | .ok value =>
          if value = 0 then .done device
          else ((device.emit [value]).andThen (onTape Tape.stepForward)).andThen writeRun := by
  rw [writeRun]
  cases device.tape.current with
  | error fault => rfl
  | ok value =>
      dsimp only
      split
      · rfl
      · split
        · rename_i emitted
          rw [emitted]
          rfl
        · rename_i emitted
          rw [emitted, andThen]
          split
          · rename_i stepped
            rw [stepped]
            rfl
          · rename_i stepped
            rw [stepped]
            rfl

private theorem writeRun_extend {device : Device} {value : UInt8}
    (current : device.tape.current = .ok value) (nonzero : value ≠ 0) :
    (extend extra recount device).writeRun =
      (((extend extra recount device).emit [value]).andThen
        (onTape Tape.stepForward)).andThen writeRun := by
  have same := Tape.current_extend extra (Tape.onCell_of_current current)
  rw [writeRun_eq]
  simp only [extend, same, current, nonzero, ↓reduceIte]

private theorem writeRun_mirrors :
    Mirrors (extend extra recount) (Interruption.EasedBy extra) writeRun := by
  intro device
  have steps := onTape_mirrors extra recount (Tape.stepForward_mirrors extra)
  fun_induction writeRun device with
  | case1 device fault current =>
      apply mirrored_of_kind (Tape.kind_of_current current)
      intro none
      rw [writeRun_eq]
      simp only [extend, none, Tape.extend_zero, current]
  | case2 device current =>
      have same := Tape.current_extend extra (Tape.onCell_of_current current)
      rw [writeRun_eq]
      simp only [extend, same, current, ↓reduceIte]
      exact .done device
  | case3 device value current nonzero last cause emitted =>
      have stops := emit_mirrors extra recount [value] device
      rw [emitted] at stops
      rw [writeRun_extend extra recount current nonzero]
      exact (stops.stop _).stop _
  | case4 device value current nonzero written emitted last cause stopped =>
      have emits := emit_mirrors extra recount [value] device
      rw [emitted] at emits
      have stops := steps written
      rw [stopped] at stops
      rw [writeRun_extend extra recount current nonzero, emits.of_done]
      exact stops.stop writeRun
  | case5 device value current nonzero written emitted next moved ih =>
      have emits := emit_mirrors extra recount [value] device
      rw [emitted] at emits
      have moves := steps written
      rw [moved] at moves
      rw [writeRun_extend extra recount current nonzero, emits.of_done, andThen, moves.of_done]
      exact ih

end Device

open Device in
/-- An instruction does the same on a device with more cells. -/
theorem Instruction.act_mirrors (extra : Nat) (recount : Nat → Nat) (instruction : Instruction) :
    Mirrors (Device.extend extra recount) (Interruption.EasedBy extra) instruction.act := by
  cases instruction with
  | moveForward steps => exact onTape_mirrors extra recount (Tape.moveForward_mirrors extra steps)
  | moveBackward steps => exact onTape_mirrors extra recount (Tape.moveBackward_mirrors extra steps)
  | increment amount => exact onTape_mirrors extra recount (Tape.increment_mirrors extra amount)
  | decrement amount => exact onTape_mirrors extra recount (Tape.decrement_mirrors extra amount)
  | loopOpen | loopClose => exact .done
  | readByte => exact readByte_mirrors extra recount
  | readLine => exact readLine_mirrors extra recount
  | writeCell => exact writeCell_mirrors extra recount
  | writeAs type => exact writeAs_mirrors extra recount type
  | setString text => exact onTape_mirrors extra recount (Tape.setString_mirrors extra text)
  | setAs type value => exact onTape_mirrors extra recount (Tape.setAs_mirrors extra type value)
  | writeRun => exact writeRun_mirrors extra recount
  | clearRun => exact onTape_mirrors extra recount (Tape.clearRun_mirrors extra)

theorem Device.extend_mirror (extra : Nat) (recount : Nat → Nat) :
    Mirror (extend extra recount) (Interruption.EasedBy extra) where
  act := Instruction.act_mirrors extra recount
  current := by
    intro device value current
    exact (Tape.current_extend extra (Tape.onCell_of_current current)).trans current
  test := by
    intro device fault current
    rcases extra.eq_zero_or_pos with none | more
    · right
      simp only [extend, none, Tape.extend_zero, current]
    · exact .inl ⟨more, fault, rfl, Tape.kind_of_current current⟩

end WordTape
