import WordTape.Proofs.Numeric.Codec
import WordTape.Tape.Basic

/-!
# Numbers on the tape

A string that has room is stored in one piece. So a number that has room at the pointer is
laid out there and is read from there, and laying out what is read changes no cell.
-/

set_option autoImplicit false

namespace WordTape

/-- The cells with a string stored from a place on. -/
def overwrite (cells : Array UInt8) (start : Nat) : Bytes → Array UInt8
  | [] => cells
  | byte :: rest => overwrite (cells.setIfInBounds start byte) (start + 1) rest

theorem size_overwrite (cells : Array UInt8) (start : Nat) (bytes : Bytes) :
    (overwrite cells start bytes).size = cells.size := by
  fun_induction overwrite cells start bytes with
  | case1 => rfl
  | case2 cells start byte rest ih => rw [ih, Array.size_setIfInBounds]

/-- The stored string stands in its cells, and the other cells are as before. -/
theorem getElem?_overwrite {cells : Array UInt8} {start : Nat} {bytes : Bytes}
    (room : start + bytes.length ≤ cells.size) (index : Nat) :
    (overwrite cells start bytes)[index]? =
      if start ≤ index ∧ index < start + bytes.length then bytes[index - start]?
      else cells[index]? := by
  fun_induction overwrite cells start bytes with
  | case1 cells start =>
      rw [if_neg]
      simp only [List.length_nil]
      omega
  | case2 cells start byte rest ih =>
      rw [List.length_cons] at room ⊢
      have further : start + 1 + rest.length ≤ (cells.setIfInBounds start byte).size := by
        rw [Array.size_setIfInBounds]
        omega
      have inside : start < cells.size := by omega
      rw [ih further, Array.getElem?_setIfInBounds]
      by_cases behind : start + 1 ≤ index
      · have shift : index - start = index - (start + 1) + 1 := by omega
        have other : start ≠ index := by omega
        rw [shift, List.getElem?_cons_succ, if_neg other]
        by_cases within : index < start + 1 + rest.length
        · rw [if_pos ⟨behind, within⟩, if_pos (by omega)]
        · rw [if_neg (by omega), if_neg (by omega)]
      · rw [if_neg (by omega)]
        by_cases here : start = index
        · subst here
          rw [if_pos rfl, if_pos inside, if_pos (by omega), Nat.sub_self, List.getElem?_cons_zero]
        · rw [if_neg here, if_neg (by omega)]

theorem extract_overwrite {cells : Array UInt8} {start : Nat} {bytes : Bytes}
    (room : start + bytes.length ≤ cells.size) :
    ((overwrite cells start bytes).extract start (start + bytes.length)).toList = bytes := by
  apply List.ext_getElem?
  intro index
  rw [Array.getElem?_toList, Array.getElem?_extract, size_overwrite]
  by_cases within : index < bytes.length
  · rw [if_pos (by omega), getElem?_overwrite room, if_pos (by omega), Nat.add_sub_cancel_left]
  · rw [if_neg (by omega), List.getElem?_eq_none (by omega)]

theorem overwrite_extract {cells : Array UInt8} {start width : Nat}
    (room : start + width ≤ cells.size) :
    overwrite cells start (cells.extract start (start + width)).toList = cells := by
  have length : (cells.extract start (start + width)).toList.length = width := by
    rw [Array.length_toList, Array.size_extract]
    omega
  apply Array.ext_getElem?
  intro index
  have stored : start + (cells.extract start (start + width)).toList.length ≤ cells.size := by
    rw [length]
    exact room
  rw [getElem?_overwrite stored, length]
  split
  · rename_i within
    obtain ⟨offset, rfl⟩ := Nat.exists_eq_add_of_le within.1
    rw [Array.getElem?_toList, Array.getElem?_extract, Nat.add_sub_cancel_left,
      if_pos (by omega)]
  · rfl

theorem NumericType.width_pos (type : NumericType) : 0 < type.width := by
  rcases type with type | type <;> cases type <;> decide

namespace Tape

variable {tape : Tape} {start : Nat}

theorem setString_eq {bytes : Bytes} (starts : tape.pointer = start)
    (room : start + bytes.length ≤ tape.size) :
    tape.setString bytes =
      .done { cells := overwrite tape.cells start bytes
              pointer := (start + bytes.length : Nat) } := by
  induction bytes generalizing tape start with
  | nil =>
      obtain ⟨cells, pointer⟩ := tape
      cases starts
      rfl
  | cons byte rest ih =>
      rw [List.length_cons] at room
      have onCell : tape.OnCell := (onCell_iff_lt starts).mpr (by omega)
      rw [setString, storeNext_of_onCell onCell, Outcome.andThen]
      have advanced : ({ tape.put byte with pointer := tape.pointer + 1 } : Tape).pointer =
          (start + 1 : Nat) := by
        dsimp only
        omega
      have further : start + 1 + rest.length ≤ (tape.put byte).size := by
        rw [size_put]
        omega
      have stored := ih advanced further
      have length : start + 1 + rest.length = start + (rest.length + 1) := by omega
      rw [stored, List.length_cons, length, put, starts]
      rfl

theorem misplaced?_eq_none {width : Nat} (starts : tape.pointer = start) (positive : 0 < width)
    (room : start + width ≤ tape.size) : tape.misplaced? width = none := by
  have onCell : tape.OnCell := (onCell_iff_lt starts).mpr (by omega)
  have fits : tape.pointer + width ≤ tape.size := by omega
  simp only [misplaced?, current, onCell, fits, ↓reduceIte]

/-- A number that has a place at the pointer begins and ends on the tape. -/
theorem room_of_placed {width : Nat} (placed : tape.misplaced? width = none) :
    tape.OnCell ∧ tape.pointer + width ≤ tape.size := by
  have onCell : tape.OnCell := by
    by_contra offCell
    simp only [misplaced?, current, offCell, ↓reduceIte, reduceCtorEq] at placed
  refine ⟨onCell, ?_⟩
  by_contra overshoots
  simp only [misplaced?, current, onCell, overshoots, ↓reduceIte, reduceCtorEq] at placed

section

variable {type : NumericType} {value : type.Value}

theorem numberText_eq (starts : tape.pointer = start) (room : start + type.width ≤ tape.size)
    (decoded : type.decode (tape.span type.width) = .ok value) :
    tape.numberText type = .ok (type.text value) := by
  simp only [numberText, misplaced?_eq_none starts type.width_pos room, decoded]

theorem setAs_eq {bytes : Bytes} (starts : tape.pointer = start)
    (room : start + type.width ≤ tape.size) (encoded : type.encode value = .ok bytes)
    (length : bytes.length = type.width) :
    tape.setAs type value =
      .done { cells := overwrite tape.cells start bytes
              pointer := (start + type.width : Nat) } := by
  have stored := setString_eq starts (length ▸ room)
  rw [length] at stored
  simp only [setAs, misplaced?_eq_none starts type.width_pos room, encoded, stored]

end

end Tape

end WordTape
