import WordTape.Proofs.Device.Faults
import WordTape.Proofs.Tape.Extension

/-!
# Zero cells

A run of cells goes up to the next zero cell, or to the end of the tape. Clearing zeroes the
cell that the pointer is on whatever it holds, and looks for the zero that ends the run behind
it, so that it never takes a cell that it has cleared for this zero.
-/

set_option autoImplicit false

namespace WordTape

namespace Tape

/-- The first place from a start on with a zero cell, or else the place behind the last cell. -/
def zeroFrom (start : Nat) (tape : Tape) : Nat :=
  start + (tape.cells.toList.drop start).findIdx (· == 0)

variable {tape : Tape} {start : Nat} {value : UInt8}

/-! ## The cell at the pointer -/

theorem current_eq_ok_iff (starts : tape.pointer = start) :
    tape.current = .ok value ↔ tape.cells[start]? = some value := by
  by_cases before : start < tape.size
  · have onCell := (onCell_iff_lt starts).mpr before
    rw [current_of_onCell onCell, starts, Int.toNat_natCast, Array.getD_eq_getD_getElem?,
      Array.getElem?_eq_getElem before]
    simp
  · have offCell := mt (onCell_iff_lt starts).mp before
    rw [current_of_not_onCell offCell, Array.getElem?_eq_none (Nat.le_of_not_lt before)]
    simp

theorem current_at_size (rests : tape.pointer = (tape.size : Nat)) :
    tape.current = .error (.noCellToRead tape.size) := by
  rw [current_of_not_onCell (not_onCell_at_size rests), rests]

/-! ## The place of the next zero -/

private theorem drop_of_getElem? (found : tape.cells[start]? = some value) :
    tape.cells.toList.drop start = value :: tape.cells.toList.drop (start + 1) := by
  obtain ⟨before, rfl⟩ := Array.getElem?_eq_some_iff.mp found
  exact List.drop_eq_getElem_cons before

private theorem zeroFrom_of_zero (zero : tape.cells[start]? = some 0) :
    tape.zeroFrom start = start := by
  rw [zeroFrom, drop_of_getElem? zero, List.findIdx_cons]
  rfl

theorem zeroFrom_of_nonzero (found : tape.cells[start]? = some value) (nonzero : value ≠ 0) :
    tape.zeroFrom start = tape.zeroFrom (start + 1) := by
  have other : (value == 0) = false := beq_eq_false_iff_ne.mpr nonzero
  rw [zeroFrom, zeroFrom, drop_of_getElem? found, List.findIdx_cons, other, cond_false]
  omega

private theorem zeroFrom_size (tape : Tape) : tape.zeroFrom tape.size = tape.size := by
  have past : tape.cells.toList.drop tape.size = [] := List.drop_length
  rw [zeroFrom, past]
  rfl

theorem le_zeroFrom (start : Nat) (tape : Tape) : start ≤ tape.zeroFrom start :=
  Nat.le_add_right _ _

theorem zeroFrom_le (within : start ≤ tape.size) : tape.zeroFrom start ≤ tape.size := by
  have bound : (tape.cells.toList.drop start).findIdx (· == 0) ≤ _ := List.findIdx_le_length
  rw [List.length_drop, Array.length_toList] at bound
  simp only [size, zeroFrom] at within ⊢
  omega

/-- There is no zero in front of the next zero. -/
theorem nonzero_of_lt_zeroFrom {index : Nat} (behind : start ≤ index)
    (before : index < tape.zeroFrom start) : tape.cells[index]? ≠ some 0 := by
  intro zero
  obtain ⟨offset, rfl⟩ := Nat.exists_eq_add_of_le behind
  have earlier : offset < (tape.cells.toList.drop start).findIdx (· == 0) := by
    rw [zeroFrom] at before
    omega
  have other := List.not_of_lt_findIdx earlier
  rw [List.getElem_drop, Array.getElem_toList] at other
  obtain ⟨_, same⟩ := Array.getElem?_eq_some_iff.mp zero
  rw [same] at other
  cases other

theorem exists_nonzero_of_lt_zeroFrom {index : Nat} (within : start ≤ tape.size)
    (behind : start ≤ index) (before : index < tape.zeroFrom start) :
    ∃ value, tape.cells[index]? = some value ∧ value ≠ 0 := by
  have inside : index < tape.size := Nat.lt_of_lt_of_le before (zeroFrom_le within)
  have found : tape.cells[index]? = some _ := Array.getElem?_eq_getElem inside
  refine ⟨_, found, fun zero => ?_⟩
  rw [zero] at found
  exact nonzero_of_lt_zeroFrom behind before found

theorem zero_at_zeroFrom (inside : tape.zeroFrom start < tape.size) :
    tape.cells[tape.zeroFrom start]? = some 0 := by
  have found : (tape.cells.toList.drop start).findIdx (· == 0) <
      (tape.cells.toList.drop start).length := by
    rw [List.length_drop, Array.length_toList]
    simp only [size, zeroFrom] at inside
    omega
  have zero := List.findIdx_getElem (w := found)
  rw [List.getElem_drop, Array.getElem_toList, beq_iff_eq] at zero
  exact Array.getElem?_eq_some_iff.mpr ⟨inside, zero⟩

/-- The next zero is where a zero is and none in front of it, or at the end if there is none. -/
theorem zeroFrom_eq {place : Nat} (behind : start ≤ place)
    (nonzero : ∀ index, start ≤ index → index < place → tape.cells[index]? ≠ some 0)
    (zero : tape.cells[place]? = some 0) : tape.zeroFrom start = place := by
  have within : place < tape.size := (Array.getElem?_eq_some_iff.mp zero).1
  rcases Nat.lt_trichotomy (tape.zeroFrom start) place with before | same | past
  · have inside := zero_at_zeroFrom (Nat.lt_trans before within)
    exact absurd inside (nonzero _ (le_zeroFrom start tape) before)
  · exact same
  · exact absurd zero (nonzero_of_lt_zeroFrom behind past)

/-! ## Clearing -/

/-- The tape with so many cells from a start on cleared, and the pointer behind them. -/
def cleared (start count : Nat) (tape : Tape) : Tape where
  cells := overwrite tape.cells start (List.replicate count 0)
  pointer := (start + count : Nat)

private theorem size_cleared (start count : Nat) (tape : Tape) :
    (tape.cleared start count).size = tape.size :=
  size_overwrite _ _ _

private theorem cleared_cleared (start count : Nat) (tape : Tape) :
    (tape.cleared start 1).cleared (start + 1) count = tape.cleared start (count + 1) := by
  have further : start + 1 + count = start + (count + 1) := by omega
  simp only [cleared, further]
  rfl

private theorem storeNext_zero (starts : tape.pointer = start) (before : start < tape.size) :
    tape.storeNext 0 = .done (tape.cleared start 1) := by
  have onCell := (onCell_iff_lt starts).mpr before
  simp only [storeNext_of_onCell onCell, put, starts]
  rfl

/-- To clear the first cell of a run leaves the cells behind it. -/
private theorem drop_cleared {place : Nat} (behind : start < place) (tape : Tape) :
    (tape.cleared start 1).cells.toList.drop place = tape.cells.toList.drop place := by
  have set : (tape.cleared start 1).cells.toList = tape.cells.toList.set start 0 :=
    Array.toList_setIfInBounds
  rw [set, List.drop_set_of_lt behind]

private theorem zeroFrom_cleared {place : Nat} (behind : start < place) (tape : Tape) :
    (tape.cleared start 1).zeroFrom place = tape.zeroFrom place := by
  rw [zeroFrom, drop_cleared behind, zeroFrom]

/-- The cell behind a cleared one is read as it was. -/
private theorem current_cleared (start : Nat) (tape : Tape) :
    (tape.cleared start 1).current = .ok value ↔ tape.cells[start + 1]? = some value := by
  have other : (tape.cleared start 1).cells[start + 1]? = tape.cells[start + 1]? :=
    Array.getElem?_setIfInBounds_ne (Nat.ne_of_lt (Nat.lt_succ_self start))
  rw [current_eq_ok_iff rfl, other]

theorem clearRun_eq_cleared (starts : tape.pointer = start) (before : start < tape.size) :
    tape.clearRun =
      if tape.zeroFrom (start + 1) = tape.size then
        .stopped (tape.cleared start (tape.size - start)) (.fault (.noCellToRead tape.size))
      else .done (tape.cleared start (tape.zeroFrom (start + 1) - start)) := by
  fun_induction clearRun tape generalizing start with
  | case1 tape last cause stored =>
      rw [storeNext_zero starts before] at stored
      cases stored
  | case2 tape next stored fault current =>
      rw [storeNext_zero starts before] at stored
      cases stored
      have ends : start + 1 = tape.size := by
        by_contra other
        have inside : start + 1 < tape.size := by omega
        rw [(current_cleared start tape).mpr (Array.getElem?_eq_getElem inside)] at current
        cases current
      have all : tape.size - start = 1 := by omega
      rw [eq_of_current_error current, ends, zeroFrom_size, if_pos rfl, all, cleared, ends]
  | case3 tape next stored current =>
      rw [storeNext_zero starts before] at stored
      cases stored
      have zero := (current_cleared start tape).mp current
      have inside : start + 1 < tape.size := (Array.getElem?_eq_some_iff.mp zero).1
      rw [zeroFrom_of_zero zero, if_neg (Nat.ne_of_lt inside), Nat.add_sub_cancel_left]
  | case4 tape next stored value current nonzero ih =>
      rw [storeNext_zero starts before] at stored
      cases stored
      have found := (current_cleared start tape).mp current
      have inside : start + 1 < tape.size := (Array.getElem?_eq_some_iff.mp found).1
      have onward : (tape.cleared start 1).clearRun = _ :=
        ih rfl (size_cleared start 1 tape ▸ inside)
      have further := le_zeroFrom (start + 1 + 1) tape
      have first : tape.size - (start + 1) + 1 = tape.size - start := by omega
      have second : tape.zeroFrom (start + 1 + 1) - (start + 1) + 1 =
          tape.zeroFrom (start + 1 + 1) - start := by omega
      rw [onward, zeroFrom_cleared (by omega), size_cleared, cleared_cleared, cleared_cleared,
        zeroFrom_of_nonzero found nonzero, first, second]

theorem getElem?_cleared {count : Nat} (room : start + count ≤ tape.size) (index : Nat) :
    (tape.cleared start count).cells[index]? =
      if start ≤ index ∧ index < start + count then some 0 else tape.cells[index]? := by
  have length : (List.replicate count (0 : UInt8)).length = count := List.length_replicate
  rw [cleared, getElem?_overwrite (length.symm ▸ room), length]
  split
  · rw [List.getElem?_replicate, if_pos (by omega)]
  · rfl

theorem state_clearRun (starts : tape.pointer = start) (before : start < tape.size) :
    tape.clearRun.state = tape.cleared start (tape.zeroFrom (start + 1) - start) := by
  rw [clearRun_eq_cleared starts before]
  split
  · rename_i ends
    rw [ends]
    rfl
  · rfl

theorem pointer_clearRun (starts : tape.pointer = start) (before : start < tape.size) :
    tape.clearRun.state.pointer = tape.zeroFrom (start + 1) := by
  have behind := le_zeroFrom (start + 1) tape
  have reached : start + (tape.zeroFrom (start + 1) - start) = tape.zeroFrom (start + 1) := by
    omega
  rw [state_clearRun starts before, cleared, reached]

theorem cause?_clearRun (starts : tape.pointer = start) (before : start < tape.size) :
    tape.clearRun.cause? =
      if tape.zeroFrom (start + 1) = tape.size then some (.fault (.noCellToRead tape.size))
      else none := by
  rw [clearRun_eq_cleared starts before]
  split <;> rfl

theorem clearRun_at_size (rests : tape.pointer = (tape.size : Nat)) :
    tape.clearRun = .stopped tape (.fault (.noCellToStore tape.size)) := by
  rw [clearRun_eq, storeNext_of_not_onCell (not_onCell_at_size rests), rests]
  rfl

end Tape

end WordTape
