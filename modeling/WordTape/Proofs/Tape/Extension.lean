import WordTape.Proofs.Mirrored
import WordTape.Proofs.Tape.Numbers

/-!
# Tapes with more cells

A tape is extended by zero cells at its end. An operation does the same on the extended
tape, unless it stops at the end of the shorter one.
-/

set_option autoImplicit false

namespace WordTape

/-- The cause is an index that more cells may allow. -/
def Interruption.EasedBy (extra : Nat) (cause : Interruption) : Prop :=
  0 < extra ∧ ∃ fault, cause = .fault fault ∧ fault.kind = .index

/-- What is stopped by an index may do anything on more cells. -/
theorem Outcome.mirrored_of_kind {State : Type} {image : State → State} {extra : Nat}
    {state : State} {fault : Fault} {other : Outcome State} (kind : fault.kind = .index)
    (same : extra = 0 → other = .stopped (image state) (.fault fault)) :
    Mirrored image (Interruption.EasedBy extra) (.stopped state (.fault fault)) other := by
  rcases extra.eq_zero_or_pos with none | more
  · rw [same none]
    exact .stopped state _
  · exact .excused ⟨more, fault, rfl, kind⟩

namespace Tape

open Outcome

/-- The tape with more cells at its end, which are zero. -/
def extend (extra : Nat) (tape : Tape) : Tape :=
  { tape with cells := tape.cells ++ Array.replicate extra 0 }

variable {extra : Nat} {tape : Tape}

@[simp] theorem pointer_extend : (tape.extend extra).pointer = tape.pointer := rfl

@[simp] theorem size_extend : (tape.extend extra).size = tape.size + extra := by
  simp [extend, size]

@[simp] theorem extend_zero : tape.extend 0 = tape := by
  simp [extend]

theorem blank_extend (size extra : Nat) : (blank size).extend extra = blank (size + extra) := by
  simp [blank, extend]

theorem onCell_extend (onCell : tape.OnCell) : (tape.extend extra).OnCell := by
  have := onCell.2
  refine ⟨onCell.1, ?_⟩
  simp only [pointer_extend, size_extend, Nat.cast_add]
  omega

theorem toNat_lt_of_onCell (onCell : tape.OnCell) : tape.pointer.toNat < tape.cells.size := by
  obtain ⟨within, before⟩ := onCell
  simp only [size] at before
  omega

theorem kind_of_current {fault : Fault} (current : tape.current = .error fault) :
    fault.kind = .index := by
  rw [eq_of_current_error current]
  rfl

theorem current_extend (extra : Nat) (onCell : tape.OnCell) :
    (tape.extend extra).current = tape.current := by
  have before := toNat_lt_of_onCell onCell
  rw [current_of_onCell onCell, current_of_onCell (onCell_extend onCell)]
  simp [extend, Array.getElem?_append_left before]

theorem put_extend (onCell : tape.OnCell) (byte : UInt8) :
    (tape.extend extra).put byte = (tape.put byte).extend extra := by
  have before := toNat_lt_of_onCell onCell
  simp [extend, put, Array.setIfInBounds_append_left before]

private theorem span_extend {width : Nat} (onCell : tape.OnCell)
    (room : tape.pointer + width ≤ tape.size) :
    (tape.extend extra).span width = tape.span width := by
  have within : tape.pointer.toNat + width - tape.cells.size = 0 := by
    have := onCell.1
    simp only [size] at room
    omega
  simp only [span, extend, Array.extract_append, within]
  simp

theorem placed_extend {width : Nat} (placed : tape.misplaced? width = none) :
    (tape.extend extra).misplaced? width = none := by
  obtain ⟨onCell, room⟩ := room_of_placed placed
  have further : tape.pointer + width ≤ (tape.size + extra : Nat) := by omega
  simp only [misplaced?, current_of_onCell (onCell_extend onCell), pointer_extend, size_extend,
    further, ↓reduceIte]

theorem kind_of_misplaced {width : Nat} {fault : Fault}
    (misplaced : tape.misplaced? width = some fault) : fault.kind = .index := by
  unfold misplaced? at misplaced
  split at misplaced
  · rename_i current
    cases misplaced
    exact kind_of_current current
  · split at misplaced
    · cases misplaced
    · cases misplaced
      rfl

/-! ## Operations -/

theorem mirrored_of_index {operation : Tape → Outcome Tape} (fault : Fault)
    (stopped : operation tape = .stopped tape (.fault fault)) (kind : fault.kind = .index) :
    Mirrored (extend extra) (Interruption.EasedBy extra) (operation tape)
      (operation (tape.extend extra)) := by
  rw [stopped]
  apply mirrored_of_kind kind
  intro none
  rw [none, extend_zero, stopped]

variable (extra)

theorem store_mirrors (byte : UInt8) :
    Mirrors (extend extra) (Interruption.EasedBy extra) (store byte) := by
  intro tape
  by_cases onCell : tape.OnCell
  · simp only [store, onCell, onCell_extend onCell, ↓reduceIte, put_extend onCell]
    exact .done _
  · have stopped : tape.store byte = .stopped tape (.fault (.noCellToStore tape.pointer)) := by
      simp only [store, onCell, ↓reduceIte]
    exact mirrored_of_index _ stopped rfl

theorem stepForward_mirrors :
    Mirrors (extend extra) (Interruption.EasedBy extra) stepForward := by
  intro tape
  by_cases before : tape.pointer < tape.size
  · have further : tape.pointer < (tape.size + extra : Nat) := by omega
    simp only [stepForward, before, pointer_extend, size_extend, further, ↓reduceIte]
    exact .done _
  · have stopped : tape.stepForward = .stopped tape (.fault .stepPastEnd) := by
      simp only [stepForward, before, ↓reduceIte]
    exact mirrored_of_index _ stopped rfl

theorem storeNext_mirrors (byte : UInt8) :
    Mirrors (extend extra) (Interruption.EasedBy extra) (storeNext byte) := by
  intro tape
  exact (store_mirrors extra byte tape).andThen (stepForward_mirrors extra)

theorem moveForward_mirrors (steps : Int) :
    Mirrors (extend extra) (Interruption.EasedBy extra) (moveForward steps) := by
  intro tape
  by_cases before : tape.pointer + steps < tape.size
  · have further : tape.pointer + steps < (tape.size + extra : Nat) := by omega
    simp only [moveForward, before, pointer_extend, size_extend, further, ↓reduceIte]
    exact .done _
  · have stopped : tape.moveForward steps = .stopped tape (.fault (.moveForward steps)) := by
      simp only [moveForward, before, ↓reduceIte]
    exact mirrored_of_index _ stopped rfl

theorem moveBackward_mirrors (steps : Int) :
    Mirrors (extend extra) (Interruption.EasedBy extra) (moveBackward steps) := by
  intro tape
  by_cases behind : steps ≤ tape.pointer
  · simp only [moveBackward, behind, pointer_extend, ↓reduceIte]
    exact .done _
  · simp only [moveBackward, behind, pointer_extend, ↓reduceIte]
    exact .stopped tape _

theorem putNumber_mirrors (onCell : tape.OnCell) (number : Int) :
    Mirrored (extend extra) (Interruption.EasedBy extra) (tape.putNumber number)
      ((tape.extend extra).putNumber number) := by
  simp only [putNumber, put_extend onCell]
  split
  · exact .done _
  · exact .stopped tape _

/-- An operation that stops where there is no cell to read is looked at on the cells only. -/
private theorem mirrors_of_current {operation : Tape → Outcome Tape}
    (stops : ∀ tape fault, tape.current = .error fault →
      operation tape = .stopped tape (.fault fault))
    (reads : ∀ tape value, tape.OnCell → tape.current = .ok value →
      Mirrored (extend extra) (Interruption.EasedBy extra) (operation tape)
        (operation (tape.extend extra))) :
    Mirrors (extend extra) (Interruption.EasedBy extra) operation := by
  intro tape
  cases current : tape.current with
  | error fault =>
      exact mirrored_of_index fault (stops tape fault current) (kind_of_current current)
  | ok value => exact reads tape value (onCell_of_current current) current

theorem increment_mirrors (amount : Int) :
    Mirrors (extend extra) (Interruption.EasedBy extra) (increment amount) := by
  apply mirrors_of_current extra
  · intro tape fault current
    simp only [increment, current]
  · intro tape value onCell current
    simp only [increment, current_extend extra onCell, current]
    split
    · exact putNumber_mirrors extra onCell _
    · exact .stopped _ _

theorem decrement_mirrors (amount : Int) :
    Mirrors (extend extra) (Interruption.EasedBy extra) (decrement amount) := by
  apply mirrors_of_current extra
  · intro tape fault current
    simp only [decrement, current]
  · intro tape value onCell current
    simp only [decrement, current_extend extra onCell, current]
    split
    · exact putNumber_mirrors extra onCell _
    · exact .stopped _ _

theorem setString_mirrors (text : Bytes) :
    Mirrors (extend extra) (Interruption.EasedBy extra) (setString text) := by
  induction text with
  | nil => exact .done
  | cons byte rest ih =>
      intro tape
      exact (storeNext_mirrors extra byte tape).andThen ih

theorem setAs_mirrors (type : NumericType) (value : type.Value) :
    Mirrors (extend extra) (Interruption.EasedBy extra) (setAs type value) := by
  intro tape
  cases placed : tape.misplaced? type.width with
  | some fault =>
      have stopped : tape.setAs type value = .stopped tape (.fault fault) := by
        simp only [setAs, placed]
      exact mirrored_of_index fault stopped (kind_of_misplaced placed)
  | none =>
      simp only [setAs, placed, placed_extend placed]
      split
      · exact .stopped _ _
      · exact setString_mirrors extra _ tape

theorem numberText_extend {type : NumericType} (placed : tape.misplaced? type.width = none) :
    (tape.extend extra).numberText type = tape.numberText type := by
  obtain ⟨onCell, room⟩ := room_of_placed placed
  simp only [numberText, placed, placed_extend placed, span_extend onCell room]

theorem clearRun_eq (tape : Tape) :
    tape.clearRun = (tape.storeNext 0).andThen fun next =>
      match next.current with
      | .error fault => .stopped next (.fault fault)
      | .ok value => if value = 0 then .done next else next.clearRun := by
  rw [clearRun]
  split
  · rename_i stored
    rw [stored]
    rfl
  · rename_i stored
    rw [stored]
    rfl

theorem clearRun_mirrors : Mirrors (extend extra) (Interruption.EasedBy extra) clearRun := by
  intro tape
  fun_induction clearRun tape with
  | case1 tape last cause stored =>
      have stores := storeNext_mirrors extra 0 tape
      rw [stored] at stores
      rw [clearRun_eq (tape.extend extra)]
      exact stores.stop _
  | case2 tape next stored fault current =>
      have stores := storeNext_mirrors extra 0 tape
      rw [stored] at stores
      rw [clearRun_eq (tape.extend extra), stores.of_done, andThen]
      apply mirrored_of_kind (kind_of_current current)
      intro none
      rw [none, extend_zero, current]
  | case3 tape next stored current =>
      have stores := storeNext_mirrors extra 0 tape
      rw [stored] at stores
      rw [clearRun_eq (tape.extend extra), stores.of_done, andThen,
        current_extend extra (onCell_of_current current), current]
      exact .done next
  | case4 tape next stored value current nonzero ih =>
      have stores := storeNext_mirrors extra 0 tape
      rw [stored] at stores
      rw [clearRun_eq (tape.extend extra), stores.of_done, andThen,
        current_extend extra (onCell_of_current current), current]
      simp only [nonzero, ↓reduceIte]
      exact ih

end Tape

end WordTape
