import WordTape.Tape.Fault

/-!
# The tape

A tape is a fixed number of byte cells with a pointer. Every operation checks that
the pointer is on a cell before it touches one, and arithmetic on a cell never
wraps around. The pointer may rest one past the last cell after an operation that
advances over a run of cells.
-/

set_option autoImplicit false

namespace WordTape

structure Tape where
  cells : Array UInt8
  pointer : Int
deriving DecidableEq, Repr

namespace Tape

def blank (size : Nat) : Tape where
  cells := Array.replicate size 0
  pointer := 0

def size (tape : Tape) : Nat :=
  tape.cells.size

def reset (tape : Tape) : Tape :=
  blank tape.size

def OnCell (tape : Tape) : Prop :=
  0 ≤ tape.pointer ∧ tape.pointer < tape.size

instance (tape : Tape) : Decidable tape.OnCell :=
  inferInstanceAs (Decidable (_ ∧ _))

def current (tape : Tape) : Except Fault UInt8 :=
  if tape.OnCell then .ok (tape.cells.getD tape.pointer.toNat 0)
  else .error (.noCellToRead tape.pointer)

/-- The tape with another value in the cell that the pointer is on. -/
def put (byte : UInt8) : Tape → Tape
  | { cells, pointer } => { cells := cells.setIfInBounds pointer.toNat byte, pointer }

def store (byte : UInt8) (tape : Tape) : Outcome Tape :=
  if tape.OnCell then .done (tape.put byte)
  else .stopped tape (.fault (.noCellToStore tape.pointer))

/-- Advances the pointer by one cell, at most to one past the last. -/
def stepForward (tape : Tape) : Outcome Tape :=
  if tape.pointer < tape.size then .done { tape with pointer := tape.pointer + 1 }
  else .stopped tape (.fault .stepPastEnd)

def storeNext (byte : UInt8) (tape : Tape) : Outcome Tape :=
  (tape.store byte).andThen stepForward

/-- Moves the pointer forward, to a cell at most. -/
def moveForward (steps : Int) (tape : Tape) : Outcome Tape :=
  if tape.pointer + steps < tape.size then
    .done { tape with pointer := tape.pointer + steps }
  else .stopped tape (.fault (.moveForward steps))

/-- Moves the pointer backward, to the first cell at most. -/
def moveBackward (steps : Int) (tape : Tape) : Outcome Tape :=
  if steps ≤ tape.pointer then .done { tape with pointer := tape.pointer - steps }
  else .stopped tape (.fault (.moveBackward steps))

/-- Puts a number into the cell that the pointer is on. A number that no cell can hold is
refused as one out of range, and the cells stay as they are. -/
def putNumber (number : Int) (tape : Tape) : Outcome Tape :=
  if 0 ≤ number ∧ number ≤ 255 then .done (tape.put (UInt8.ofNat number.toNat))
  else .stopped tape (.codec (.outOfRange .u8 number))

/-- Only a sum above the greatest number of a cell is an overflow. With a negative amount it can
also be too small. -/
def increment (amount : Int) (tape : Tape) : Outcome Tape :=
  match tape.current with
  | .error fault => .stopped tape (.fault fault)
  | .ok value =>
      if value.toNat + amount ≤ 255 then tape.putNumber (value.toNat + amount)
      else .stopped tape (.fault (.addition amount))

def decrement (amount : Int) (tape : Tape) : Outcome Tape :=
  match tape.current with
  | .error fault => .stopped tape (.fault fault)
  | .ok value =>
      if amount ≤ value.toNat then tape.putNumber (value.toNat - amount)
      else .stopped tape (.fault (.subtraction amount))

/-- Stores the bytes of a string in successive cells, leaving the pointer behind the
last. What fits is stored before the fault. -/
def setString : Bytes → Tape → Outcome Tape
  | [], tape => .done tape
  | byte :: rest, tape => (tape.storeNext byte).andThen (setString rest)

/-- Why a number of the given width has no place at the pointer, if it has none: the
pointer is on no cell, or the number would reach past the last cell. -/
def misplaced? (width : Nat) (tape : Tape) : Option Fault :=
  match tape.current with
  | .error fault => some fault
  | .ok _ =>
      if tape.pointer + width ≤ tape.size then none
      else some (.noRoom width tape.pointer tape.size)

def span (width : Nat) (tape : Tape) : Bytes :=
  (tape.cells.extract tape.pointer.toNat (tape.pointer.toNat + width)).toList

def numberText (type : NumericType) (tape : Tape) : Except Interruption Bytes :=
  match tape.misplaced? type.width with
  | some fault => .error (.fault fault)
  | none =>
      match type.decode (tape.span type.width) with
      | .error cause => .error (.codec cause)
      | .ok value => .ok (type.text value)

def setAs (type : NumericType) (value : type.Value) (tape : Tape) : Outcome Tape :=
  match tape.misplaced? type.width with
  | some fault => .stopped tape (.fault fault)
  | none =>
      match type.encode value with
      | .error cause => .stopped tape (.codec cause)
      | .ok bytes => tape.setString bytes

/-! ## Lemmas on the current cell -/

variable {tape : Tape}

theorem onCell_iff_lt {start : Nat} (starts : tape.pointer = start) :
    tape.OnCell ↔ start < tape.size := by
  rw [OnCell, starts]
  omega

theorem not_onCell_at_size (rests : tape.pointer = (tape.size : Nat)) : ¬tape.OnCell :=
  mt (onCell_iff_lt rests).mp (Nat.lt_irrefl tape.size)

theorem current_of_onCell (onCell : tape.OnCell) :
    tape.current = .ok (tape.cells.getD tape.pointer.toNat 0) := by
  simp only [current, onCell, ↓reduceIte]

theorem current_of_not_onCell (offCell : ¬tape.OnCell) :
    tape.current = .error (.noCellToRead tape.pointer) := by
  simp only [current, offCell, ↓reduceIte]

theorem onCell_of_current {value : UInt8} (read : tape.current = .ok value) : tape.OnCell := by
  by_cases onCell : tape.OnCell
  · exact onCell
  · rw [current_of_not_onCell onCell] at read
    cases read

theorem eq_of_current_error {fault : Fault} (read : tape.current = .error fault) :
    fault = .noCellToRead tape.pointer := by
  by_cases onCell : tape.OnCell
  · rw [current_of_onCell onCell] at read
    cases read
  · rw [current_of_not_onCell onCell] at read
    cases read
    rfl

/-! ## Lemmas on amounts -/

/-- A natural amount is added, or it is too much for the cell. -/
theorem increment_natCast (amount : Nat) (tape : Tape) :
    tape.increment amount =
      match tape.current with
      | .error fault => .stopped tape (.fault fault)
      | .ok value =>
          if value.toNat + amount ≤ 255 then
            .done (tape.put (UInt8.ofNat (value.toNat + amount)))
          else .stopped tape (.fault (.addition amount)) := by
  unfold increment
  cases tape.current with
  | error fault => rfl
  | ok value =>
      by_cases fits : value.toNat + amount ≤ 255
      · have holds : 0 ≤ (value.toNat + amount : Int) ∧ (value.toNat + amount : Int) ≤ 255 := by
          omega
        simp only [fits, holds, putNumber, and_self, ↓reduceIte]
        rfl
      · have exceeds : ¬(value.toNat + amount : Int) ≤ 255 := by omega
        simp only [fits, exceeds, ↓reduceIte]

/-- A natural amount is subtracted, or the cell has less. -/
theorem decrement_natCast (amount : Nat) (tape : Tape) :
    tape.decrement amount =
      match tape.current with
      | .error fault => .stopped tape (.fault fault)
      | .ok value =>
          if amount ≤ value.toNat then .done (tape.put (UInt8.ofNat (value.toNat - amount)))
          else .stopped tape (.fault (.subtraction amount)) := by
  unfold decrement
  cases tape.current with
  | error fault => rfl
  | ok value =>
      by_cases fits : amount ≤ value.toNat
      · have small := value.toNat_lt
        have holds : 0 ≤ (value.toNat - amount : Int) ∧ (value.toNat - amount : Int) ≤ 255 := by
          omega
        have number : (value.toNat - amount : Int).toNat = value.toNat - amount := by omega
        simp only [fits, holds, putNumber, number, Int.ofNat_le, and_self, ↓reduceIte]
      · have exceeds : ¬(amount : Int) ≤ value.toNat := by omega
        simp only [fits, exceeds, ↓reduceIte]

/-! ## Lemmas for progress -/

@[simp] theorem size_put (byte : UInt8) (tape : Tape) : (tape.put byte).size = tape.size := by
  simp [put, size]

@[simp] theorem pointer_put (byte : UInt8) (tape : Tape) :
    (tape.put byte).pointer = tape.pointer := rfl

theorem storeNext_of_onCell {tape : Tape} (onCell : tape.OnCell) (byte : UInt8) :
    tape.storeNext byte =
      .done { tape.put byte with pointer := tape.pointer + 1 } := by
  simp [storeNext, store, onCell, Outcome.andThen, stepForward, onCell.2]

theorem storeNext_of_not_onCell {tape : Tape} (offCell : ¬tape.OnCell) (byte : UInt8) :
    tape.storeNext byte = .stopped tape (.fault (.noCellToStore tape.pointer)) := by
  simp [storeNext, store, offCell, Outcome.andThen]

def remaining (tape : Tape) : Nat :=
  (tape.size - tape.pointer).toNat

theorem remaining_lt_of_storeNext {tape next : Tape} {byte : UInt8}
    (stored : tape.storeNext byte = .done next) : next.remaining < tape.remaining := by
  by_cases onCell : tape.OnCell
  · rw [storeNext_of_onCell onCell] at stored
    cases stored
    have := onCell.2
    simp only [remaining, size, put, Array.size_setIfInBounds] at *
    omega
  · rw [storeNext_of_not_onCell onCell] at stored
    cases stored

/-- Zeroes the current cell and then every cell after it up to the next zero cell,
on which the pointer comes to rest. -/
def clearRun (tape : Tape) : Outcome Tape :=
  match _ : tape.storeNext 0 with
  | .stopped tape cause => .stopped tape cause
  | .done next =>
      match next.current with
      | .error fault => .stopped next (.fault fault)
      | .ok value => if value = 0 then .done next else clearRun next
termination_by tape.remaining
decreasing_by exact remaining_lt_of_storeNext ‹_›

end Tape

end WordTape
