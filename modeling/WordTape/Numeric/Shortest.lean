import WordTape.Numeric.BinaryFormat
import WordTape.Numeric.Decimal

/-!
# Shortest decimals

The shortest decimal of a magnitude is the point of the coarsest decimal grid that
reads back as that magnitude; of two such points of one grid it is the nearer, and
of two equally near ones the even. It is written positionally, with zeros up to
the decimal point and no zero at the end of a fraction.
-/

set_option autoImplicit false

namespace WordTape

/-- A decimal: `digits` times ten to the `exponent`. -/
structure ScaledDecimal where
  digits : Nat
  exponent : Int
deriving DecidableEq, Repr

namespace ScaledDecimal

/-- Positional text: zeros fill up to the point, and the point stands only before
a fraction. -/
def positional (decimal : ScaledDecimal) : Bytes :=
  let numeral := Decimal.ofNat decimal.digits
  if 0 ≤ decimal.exponent then
    numeral ++ List.replicate decimal.exponent.toNat 48
  else
    let places := (-decimal.exponent).toNat
    let padded := Bytes.padLeft (places + 1) 48 numeral
    padded.take (padded.length - places) ++ 46 :: padded.drop (padded.length - places)

end ScaledDecimal

namespace BinaryFormat

variable (format : BinaryFormat)

/-- The point of the grid of multiples of ten to the `exponent` that reads back as
the magnitude of the rank: the nearer neighbour if it does, else the other one. -/
def gridPoint? (rank : Nat) (exponent : Int) : Option Nat :=
  let numerator := format.units rank * Nat.pow 10 (-exponent).toNat
  let denominator := Nat.pow 2 format.unitExponent * Nat.pow 10 exponent.toNat
  let nearer := roundHalfEven numerator denominator
  let farther := if nearer = numerator / denominator then nearer + 1 else nearer - 1
  if format.rankOfDecimal nearer exponent = rank then some nearer
  else if format.rankOfDecimal farther exponent = rank then some farther
  else none

/-- The search for the coarsest grid with a point that reads back, going down from
a grid to finer ones. The finest grid has the magnitude itself as a point, as a
unit is a multiple of its spacing. -/
def shortestFrom (rank : Nat) : Nat → ScaledDecimal
  | 0 =>
      { digits := format.units rank * Nat.pow 5 format.unitExponent
        exponent := -(format.unitExponent : Int) }
  | grid + 1 =>
      let exponent := (grid + 1 : Nat) - (format.unitExponent : Int)
      match format.gridPoint? rank exponent with
      | some digits => { digits, exponent }
      | none => shortestFrom rank grid

/-- The shortest decimal that reads back as the magnitude of the rank. The search
starts from a power of ten above the magnitude. -/
def shortest (rank : Nat) : ScaledDecimal :=
  let wholePart := format.units rank / Nat.pow 2 format.unitExponent
  format.shortestFrom rank (wholePart.log2 / 3 + 1 + format.unitExponent)

end BinaryFormat

namespace Datum

variable {format : BinaryFormat}

def text : Datum format → Bytes
  | .nan _ => Bytes.ofString "NaN"
  | .number negative rank _ =>
      (if negative then [45] else []) ++
        if rank = format.topRank then Bytes.ofString "inf"
        else if rank = 0 then Bytes.ofString "0"
        else (format.shortest rank).positional

end Datum

end WordTape
