import WordTape.Numeric.Decimal

/-!
# Numeric types

The ten types of numbers that can be laid out on a tape: eight integer types and
two floating-point types. A type is known by a short name, and a number of it
occupies a fixed count of cells.
-/

set_option autoImplicit false

namespace WordTape

/-- The integer types: signed or unsigned, of one, two, four or eight cells. -/
inductive IntegerType where
  | i8 | i16 | i32 | i64
  | u8 | u16 | u32 | u64
deriving DecidableEq, Repr

namespace IntegerType

def isSigned : IntegerType → Bool
  | i8 | i16 | i32 | i64 => true
  | u8 | u16 | u32 | u64 => false

def width : IntegerType → Nat
  | i8 | u8 => 1
  | i16 | u16 => 2
  | i32 | u32 => 4
  | i64 | u64 => 8

def patterns (type : IntegerType) : Nat :=
  Nat.pow 256 type.width

def least (type : IntegerType) : Int :=
  if type.isSigned then -(type.patterns / 2 : Nat) else 0

def greatest (type : IntegerType) : Int :=
  if type.isSigned then (type.patterns / 2 : Nat) - 1 else (type.patterns : Nat) - 1

def name : IntegerType → String
  | i8 => "i8" | i16 => "i16" | i32 => "i32" | i64 => "i64"
  | u8 => "u8" | u16 => "u16" | u32 => "u32" | u64 => "u64"

end IntegerType

inductive FloatType where
  | f32 | f64
deriving DecidableEq, Repr

namespace FloatType

def width : FloatType → Nat
  | f32 => 4
  | f64 => 8

def name : FloatType → String
  | f32 => "f32"
  | f64 => "f64"

end FloatType

inductive NumericType where
  | integer (type : IntegerType)
  | float (type : FloatType)
deriving DecidableEq, Repr

namespace NumericType

def width : NumericType → Nat
  | integer type => type.width
  | float type => type.width

def name : NumericType → String
  | integer type => type.name
  | float type => type.name

def isFloat : NumericType → Bool
  | integer _ => false
  | float _ => true

def isSigned : NumericType → Bool
  | integer type => type.isSigned
  | float _ => true

/-- All types: the signed integers, the unsigned integers and the floats, each by width. -/
def all : List NumericType :=
  [.i8, .i16, .i32, .i64, .u8, .u16, .u32, .u64].map integer ++ [.f32, .f64].map float

def ofName? (name : String) : Option NumericType :=
  all.find? fun type => type.name == name

theorem mem_all (type : NumericType) : type ∈ all := by
  rcases type with type | type <;> cases type <;> decide

end NumericType

end WordTape
