import WordTape.Numeric.Literal
import WordTape.Numeric.Shortest

/-!
# Numbers on cells

Each numeric type lays its numbers out big-endian on cells, reads them back from
cells, and writes them as text. Numbers of `f32` are held in the format of eight
bytes and rounded when they are laid out or written.
-/

set_option autoImplicit false

namespace WordTape

/-- Why a number and a run of cells do not go together. -/
inductive CodecError where
  | outOfRange (type : IntegerType) (number : Int)
  | wrongLength (type : NumericType) (actual : Nat)
deriving DecidableEq, Repr

def CodecError.message : CodecError → Bytes
  | outOfRange type number =>
      Decimal.ofInt number ++ Bytes.ofString " does not fit in " ++ Bytes.ofString type.name
  | wrongLength type actual =>
      Bytes.ofString type.name ++ Bytes.ofString " needs " ++ Decimal.ofNat type.width ++
        Bytes.ofString " byte(s), got " ++ Decimal.ofNat actual

namespace IntegerType

/-- The bytes of an integer of the type: two's complement, most significant first. -/
def encode (type : IntegerType) (number : Int) : Except CodecError Bytes :=
  if type.least ≤ number ∧ number ≤ type.greatest then
    .ok (BigEndian.ofNat type.width (number % type.patterns).toNat)
  else .error (.outOfRange type number)

def decode (type : IntegerType) (bytes : Bytes) : Except CodecError Int :=
  if bytes.length = type.width then
    let pattern : Int := (BigEndian.toNat bytes : Nat)
    .ok (if type.greatest < pattern then pattern - type.patterns else pattern)
  else .error (.wrongLength (.integer type) bytes.length)

end IntegerType

namespace FloatType

def format : FloatType → BinaryFormat
  | f32 => .single
  | f64 => .double

/-- The bytes of the datum of the type that is nearest to the given one. -/
def encode (type : FloatType) (datum : Datum .double) : Bytes :=
  match type with
  | f32 => BigEndian.ofNat 4 (datum.convert .single).toBits
  | f64 => BigEndian.ofNat 8 datum.toBits

def decode (type : FloatType) (bytes : Bytes) : Except CodecError (Datum .double) :=
  if bytes.length = type.width then
    match type with
    | f32 => .ok ((Datum.ofBits (BigEndian.toNat bytes) : Datum .single).convert .double)
    | f64 => .ok (Datum.ofBits (BigEndian.toNat bytes))
  else .error (.wrongLength (.float type) bytes.length)

/-- The text of the datum of the type that is nearest to the given one. -/
def text (type : FloatType) (datum : Datum .double) : Bytes :=
  match type with
  | f32 => (datum.convert .single).text
  | f64 => datum.text

end FloatType

namespace NumericType

/-- The numbers that a type works on: all integers, or the data of eight bytes. Not
all of them can be laid out by the type. -/
def Value : NumericType → Type
  | integer _ => Int
  | float _ => Datum .double

def parse : (type : NumericType) → Bytes → Except LiteralError type.Value
  | integer type, text => type.parse text
  | float type, text => type.parse text

def encode : (type : NumericType) → type.Value → Except CodecError Bytes
  | integer type, number => type.encode number
  | float type, datum => .ok (type.encode datum)

def decode : (type : NumericType) → Bytes → Except CodecError type.Value
  | integer type, bytes => type.decode bytes
  | float type, bytes => type.decode bytes

def text : (type : NumericType) → type.Value → Bytes
  | integer _, number => Decimal.ofInt number
  | float type, datum => type.text datum

end NumericType

end WordTape
