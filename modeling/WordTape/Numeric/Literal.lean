import WordTape.Numeric.Basic
import WordTape.Numeric.BinaryFormat

/-!
# Numeric literals

The texts that stand for a number of a type, and why any other text is refused.
An integer literal is an optional sign and digits. A float literal is an optional
sign and either a decimal, with an optional point and exponent, or a word for
infinity or not-a-number in any case. One line feed may end a literal.
-/

set_option autoImplicit false

namespace WordTape

inductive LiteralError where
  | emptyInteger
  | invalidDigit
  /-- A run of digits is longer than is converted. -/
  | tooManyDigits (count : Nat)
  | tooLarge
  | tooSmall
  | invalidFloat
  /-- The text is a word for a float only when its dotted and dotless letters count
  as the letter `i`, which they do not for conversion. -/
  | inconvertibleFloat (text : Bytes)
deriving DecidableEq, Repr

namespace Literal

/-- The greatest number of digits in a run that is converted to an integer. -/
def digitLimit : Nat := 4300

/-- The text between single quotes, with line feeds shown by their escape. -/
def quoted (text : Bytes) : Bytes :=
  Bytes.inQuotes <| text.flatMap fun byte =>
    if byte = Bytes.lineFeed then [92, 110] else [byte]

end Literal

def LiteralError.message : LiteralError → Bytes
  | emptyInteger => Bytes.ofString "cannot parse integer from empty string"
  | invalidDigit => Bytes.ofString "invalid digit found in string"
  | tooManyDigits count =>
      Bytes.ofString "Exceeds the limit (" ++ Decimal.ofNat Literal.digitLimit ++
        Bytes.ofString " digits) for integer string conversion: value has " ++
        Decimal.ofNat count ++
        Bytes.ofString " digits; use sys.set_int_max_str_digits() to increase the limit"
  | tooLarge => Bytes.ofString "number too large to fit in target type"
  | tooSmall => Bytes.ofString "number too small to fit in target type"
  | invalidFloat => Bytes.ofString "invalid float literal"
  | inconvertibleFloat text =>
      Bytes.ofString "could not convert string to float: " ++ Literal.quoted text

namespace Literal

/-- The text without one line feed at its end. -/
def dropFinalLineFeed (text : Bytes) : Bytes :=
  if text.getLast? = some Bytes.lineFeed then text.dropLast else text

/-- Splits off a sign: whether it is a minus, and what follows it. A plus is always
a sign, a minus only where it is admitted. -/
def splitSign (admitsMinus : Bool) : Bytes → Bool × Bytes
  | [] => (false, [])
  | first :: rest =>
      if first = 43 then (false, rest)
      else if first = 45 && admitsMinus then (true, rest)
      else (false, first :: rest)

def isDigitRun (text : Bytes) : Bool :=
  !text.isEmpty && text.all Decimal.isDigit

end Literal

/-- The integer that a text stands for. A text is refused first for its shape, then
for its number of digits, then for its value. -/
def IntegerType.parse (type : IntegerType) (text : Bytes) : Except LiteralError Int :=
  if text.isEmpty then .error .emptyInteger
  else
    let (negative, digits) := Literal.splitSign type.isSigned (Literal.dropFinalLineFeed text)
    if !Literal.isDigitRun digits then .error .invalidDigit
    else if Literal.digitLimit < digits.length then .error (.tooManyDigits digits.length)
    else
      let magnitude : Int := (Decimal.value digits : Nat)
      let number := if negative then -magnitude else magnitude
      if type.greatest < number then .error .tooLarge
      else if number < type.least then .error .tooSmall
      else .ok number

structure DecimalLiteral where
  whole : Bytes
  fraction : Bytes
  exponentNegative : Bool
  exponentDigits : Bytes
deriving DecidableEq, Repr

namespace DecimalLiteral

/-- The sign and digits of an exponent, which may be absent but not incomplete. -/
def exponentPart? : Bytes → Option (Bool × Bytes)
  | [] => some (false, [])
  | mark :: rest =>
      let (negative, digits) := Literal.splitSign true rest
      if (mark = 101 || mark = 69) && Literal.isDigitRun digits then some (negative, digits)
      else none

def ofText? (text : Bytes) : Option DecimalLiteral :=
  let (whole, rest) := text.span Decimal.isDigit
  let (fraction, exponent) :=
    match rest with
    | 46 :: tail => tail.span Decimal.isDigit
    | _ => ([], rest)
  if whole.isEmpty && fraction.isEmpty then none
  else
    (exponentPart? exponent).map fun (exponentNegative, exponentDigits) =>
      { whole, fraction, exponentNegative, exponentDigits }

def significand (literal : DecimalLiteral) : Nat :=
  Decimal.value (literal.whole ++ literal.fraction)

def scale (literal : DecimalLiteral) : Int :=
  let magnitude : Int := (Decimal.value literal.exponentDigits : Nat)
  (if literal.exponentNegative then -magnitude else magnitude) - literal.fraction.length

def rank (format : BinaryFormat) (literal : DecimalLiteral) : Nat :=
  format.rankOfDecimal literal.significand literal.scale

def datum (format : BinaryFormat) (negative : Bool) (literal : DecimalLiteral) : Datum format :=
  .number negative (literal.rank format) (format.rankOfDecimal_le_topRank _ _)

/-- The number of digits of the first part that is too long to be converted. -/
def excess? (literal : DecimalLiteral) : Option Nat :=
  ([literal.whole, literal.fraction, literal.exponentDigits].map List.length).find?
    fun count => Literal.digitLimit < count

/-- How far the magnitude of a rank is from the value of the literal, counted in a unit
that is the same for all ranks. -/
def distance (format : BinaryFormat) (literal : DecimalLiteral) (rank : Nat) : Nat :=
  let exact := literal.significand * Nat.pow 10 literal.scale.toNat *
    Nat.pow 2 format.unitExponent
  let units := format.units rank * Nat.pow 10 (-literal.scale).toNat
  (exact - units) + (units - exact)

/-- The rank of two that is nearer to the literal, or as near and even where the other
is odd. -/
def nearer (format : BinaryFormat) (literal : DecimalLiteral) (best other : Nat) : Nat :=
  let near := literal.distance format best
  let far := literal.distance format other
  if far < near || far = near && other % 2 < best % 2 then other else best

/-- The rank that is nearest to the literal among a guess and its neighbours. Infinity
has a neighbour on one side only. -/
def settledRank (format : BinaryFormat) (literal : DecimalLiteral) (guess : Nat) : Nat :=
  if guess = format.topRank then literal.nearer format (guess - 1) guess
  else literal.nearer format (literal.nearer format guess (guess - 1)) (guess + 1)

theorem nearer_le {format : BinaryFormat} (literal : DecimalLiteral) {best other bound : Nat}
    (bestBounded : best ≤ bound) (otherBounded : other ≤ bound) :
    literal.nearer format best other ≤ bound := by
  simp only [nearer]
  split
  · exact otherBounded
  · exact bestBounded

theorem settledRank_le_topRank {format : BinaryFormat} (literal : DecimalLiteral) {guess : Nat}
    (bounded : guess ≤ format.topRank) :
    literal.settledRank format guess ≤ format.topRank := by
  rw [settledRank]
  split
  · exact literal.nearer_le (by omega) bounded
  · exact literal.nearer_le (literal.nearer_le bounded (by omega)) (by omega)

/-- A guess at the literal, settled by the exact value of the literal. -/
def settle {format : BinaryFormat} (literal : DecimalLiteral) : Datum format → Datum format
  | .nan negative => .nan negative
  | .number negative guess bounded =>
      .number negative (literal.settledRank format guess)
        (literal.settledRank_le_topRank bounded)

end DecimalLiteral

namespace Literal

def smallLetter (byte : UInt8) : UInt8 :=
  if 65 ≤ byte && byte ≤ 90 then byte + 32 else byte

/-- Whether a text spells a word of small letters in any case. The dotless small and
the dotted capital letter count as the letter `i`. -/
def spells : (word text : Bytes) → Bool
  | [], text => text.isEmpty
  | _ :: _, [] => false
  | letter :: word, 0xC4 :: second :: text =>
      letter = 105 && (second = 0xB0 || second = 0xB1) && spells word text
  | letter :: word, byte :: text => smallLetter byte = letter && spells word text

def namedDatum? (negative : Bool) (text : Bytes) : Option (Datum .double) :=
  if spells (Bytes.ofString "inf") text || spells (Bytes.ofString "infinity") text then
    some (.number negative BinaryFormat.double.topRank (Nat.le_refl _))
  else if spells (Bytes.ofString "nan") text then some (.nan negative)
  else none

end Literal

/-- The float that a text stands for, held in the format of eight bytes. An `f32` literal
is rounded to eight bytes and then to four, which is only a guess: unless its value in
eight bytes is zero or infinite, its parts are converted digit by digit, and so may be
too long, for the exact value to choose between the guess and its neighbours. -/
def FloatType.parse (type : FloatType) (text : Bytes) :
    Except LiteralError (Datum .double) :=
  let (negative, body) := Literal.splitSign true (Literal.dropFinalLineFeed text)
  match DecimalLiteral.ofText? body with
  | some literal =>
      match type with
      | .f64 => .ok (literal.datum .double negative)
      | .f32 =>
          let approximate := literal.rank .double
          let guess := (literal.datum .double negative).convert .single
          if approximate = 0 || approximate = BinaryFormat.double.topRank then
            .ok (guess.convert .double)
          else
            match literal.excess? with
            | some count => .error (.tooManyDigits count)
            | none => .ok ((literal.settle guess).convert .double)
  | none =>
      match Literal.namedDatum? negative body with
      | none => .error .invalidFloat
      | some datum =>
          if body.all (· < 0x80) then .ok datum
          else .error (.inconvertibleFloat text)

end WordTape
