import WordTape.Numeric.Decimal

/-!
# Sizes of tapes

A tape has at least one cell. A size is given for a tape itself or among the
options of a run, and a refused one is reported in the words of either.
-/

set_option autoImplicit false

namespace WordTape.TapeSize

def standard : Nat := 30000

inductive SizeError where
  | tape (size : Int)
  | option (size : Int)
deriving DecidableEq, Repr

def SizeError.message : SizeError → Bytes
  | tape size => Bytes.ofString "Tape size must be positive, got " ++ Decimal.ofInt size
  | option size => Bytes.ofString "tape_size must be positive, got " ++ Decimal.ofInt size

def ofTape (size : Int) : Except SizeError Nat :=
  if 0 < size then .ok size.toNat else .error (.tape size)

def ofOption (size : Option Int) : Except SizeError Nat :=
  match size with
  | none => .ok standard
  | some size => if 0 < size then .ok size.toNat else .error (.option size)

end WordTape.TapeSize
