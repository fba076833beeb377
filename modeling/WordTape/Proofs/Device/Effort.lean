import WordTape.Proofs.Device.OffCell

/-!
# What the loops of the device cost

Writing, clearing and reading go on from cell to cell, so that the cells from the pointer on
bound what they do, also where nothing else ends them: an input without a line feed or a tape
without a zero. A write, a step or a read takes one of these cells or is the last.
-/

set_option autoImplicit false

namespace WordTape

namespace Tape

variable {tape next : Tape}

theorem remaining_eq {start : Nat} (starts : tape.pointer = start) :
    tape.remaining = tape.size - start := by
  rw [remaining, starts]
  exact Int.toNat_sub tape.size start

theorem remaining_pos (onCell : tape.OnCell) : 0 < tape.remaining :=
  Int.lt_toNat.mpr (Int.sub_pos_of_lt onCell.2)

/-- Clears as `clearRun` does, with so many steps of the pointer at most. If these are not
enough, there is no outcome. -/
def clearWithin : (steps : Nat) → Tape → Option (Outcome Tape)
  | 0, tape =>
      match tape.store 0 with
      | .stopped last cause => some (.stopped last cause)
      | .done _ => none
  | steps + 1, tape =>
      match tape.storeNext 0 with
      | .stopped last cause => some (.stopped last cause)
      | .done next =>
          match next.current with
          | .error fault => some (.stopped next (.fault fault))
          | .ok value => if value = 0 then some (.done next) else clearWithin steps next

/-- Without a step, only a store that is refused has an outcome. -/
private theorem clearWithin_zero (offCell : ¬tape.OnCell) :
    tape.clearWithin 0 = some (.stopped tape (.fault (.noCellToStore tape.pointer))) := by
  simp only [clearWithin, store, offCell, ↓reduceIte]

/-- The cells from the pointer on are steps enough. -/
theorem clearWithin_eq {steps : Nat} (enough : tape.remaining ≤ steps) :
    tape.clearWithin steps = some tape.clearRun := by
  induction steps generalizing tape with
  | zero =>
      have offCell : ¬tape.OnCell := fun onCell => Nat.not_lt.mpr enough (remaining_pos onCell)
      rw [clearWithin_zero offCell, clearRun_of_not_onCell offCell]
  | succ steps ih =>
      rw [clearWithin, clearRun_eq]
      cases stored : tape.storeNext 0 with
      | stopped last cause => rfl
      | done next =>
          have fewer := remaining_lt_of_storeNext stored
          simp only [Outcome.andThen]
          cases next.current with
          | error fault => rfl
          | ok value =>
              by_cases zero : value = 0
              · simp only [zero, ↓reduceIte]
              · simp only [zero, ↓reduceIte]
                exact ih (Nat.le_of_lt_succ (fewer.trans_le enough))

end Tape

private theorem Input.requests_of_read {input later : Input} {answer : Reply}
    (asked : input.read = (answer, later)) : later.requests = input.requests + 1 :=
  (congrArg (fun reading => reading.2.requests) asked).symm

namespace Device

private theorem writes_emit (chunk : Bytes) (device : Device) :
    (device.emit chunk).state.output.writes = device.output.writes + 1 := by
  obtain ⟨tape, input, ⟨refusal, flushRefusal, writes, flushes, chunks⟩⟩ := device
  simp only [emit, Output.write]
  cases refusal writes <;> rfl

theorem writes_writeRun_le (device : Device) :
    device.writeRun.state.output.writes ≤ device.output.writes + device.tape.remaining := by
  fun_induction writeRun device with
  | case1 device fault current => exact Nat.le_add_right _ _
  | case2 device current => exact Nat.le_add_right _ _
  | case3 device value current nonzero last cause emitted =>
      have wrote := writes_emit [value] device
      have room := Tape.remaining_pos (Tape.onCell_of_current current)
      rw [emitted] at wrote
      exact wrote.le.trans (Nat.add_le_add_left room _)
  | case4 device value current nonzero written emitted last cause stopped =>
      rw [stepForward_after_emit current emitted] at stopped
      cases stopped
  | case5 device value current nonzero written emitted next stepped ih =>
      have wrote := writes_emit [value] device
      have unmoved := tape_state_emit [value] device
      have output := output_state_onTape Tape.stepForward written
      have fewer := remaining_lt_of_step stepped
      rw [emitted, Outcome.state] at wrote unmoved
      rw [stepped, Outcome.state] at output
      rw [unmoved] at fewer
      calc
        _ ≤ next.output.writes + next.tape.remaining := ih
        _ = device.output.writes + 1 + next.tape.remaining := by rw [output, wrote]
        _ ≤ device.output.writes + device.tape.remaining := by omega

theorem requests_readLine_le (device : Device) :
    device.readLine.state.input.requests ≤
      device.input.requests + (device.tape.remaining + 1) := by
  fun_induction readLine device with
  | case1 tape input output reason later answered | case2 tape input output later answered
  | case3 tape input output later answered
  | case4 tape input output byte later answered _ last cause stored =>
      have asked := Input.requests_of_read answered
      exact asked.trans_le (Nat.add_le_add_left (Nat.le_add_left 1 _) _)
  | case5 tape input output byte later answered _ next stored ih =>
      have asked := Input.requests_of_read answered
      have fewer := Tape.remaining_lt_of_storeNext stored
      calc
        _ ≤ later.requests + (next.remaining + 1) := ih
        _ ≤ input.requests + (tape.remaining + 1) := by omega

end Device

end WordTape
