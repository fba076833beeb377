import WordTape.Numeric.BigEndian

/-!
# Binary floating point

A format of binary floating point is given by the number of its fraction and
exponent bits. Its magnitudes are numbered in order by their *rank*, which is the
bit pattern without the sign: zero has rank 0, then come the subnormal numbers,
the normal numbers and at last infinity. Every magnitude is a whole multiple of
the least positive one, the *unit* of the format, so that values are compared and
rounded in natural numbers throughout.
-/

set_option autoImplicit false

namespace WordTape

/-- The quotient rounded to the nearest natural number, a half to the even one. -/
def roundHalfEven (numerator denominator : Nat) : Nat :=
  let quotient := numerator / denominator
  let rest := numerator % denominator
  if 2 * rest < denominator then quotient
  else if denominator < 2 * rest then quotient + 1
  else quotient + quotient % 2

structure BinaryFormat where
  fractionBits : Nat
  exponentBits : Nat
deriving DecidableEq, Repr

namespace BinaryFormat

def single : BinaryFormat := { fractionBits := 23, exponentBits := 8 }

def double : BinaryFormat := { fractionBits := 52, exponentBits := 11 }

variable (format : BinaryFormat)

/-- The number of ranks that share an exponent. -/
def binade : Nat :=
  Nat.pow 2 format.fractionBits

/-- The rank of infinity, above the ranks of all finite magnitudes. -/
def topRank : Nat :=
  (Nat.pow 2 format.exponentBits - 1) * format.binade

/-- The number of halvings of one that give the unit of the format. -/
def unitExponent : Nat :=
  Nat.pow 2 (format.exponentBits - 1) + format.fractionBits - 2

/-- The magnitude of a rank, counted in units. At the top rank this is the first
power of two beyond the finite magnitudes. -/
def units (rank : Nat) : Nat :=
  if rank < format.binade then rank
  else (format.binade + rank % format.binade) * Nat.pow 2 (rank / format.binade - 1)

/-- The rank of the magnitude nearest to a quotient of units, ties to the even
significand. Quotients beyond the finite magnitudes go to the top rank. -/
def rankOfUnits (numerator denominator : Nat) : Nat :=
  let shift := (numerator / denominator).log2 - format.fractionBits
  min format.topRank
    (roundHalfEven numerator (denominator * Nat.pow 2 shift) + shift * format.binade)

/-- A bound on decimal exponents: powers of ten from here on lie beyond the finite
magnitudes, and their inverses lie below half a unit. -/
def decimalReach : Int :=
  Nat.pow 2 format.exponentBits

/-- The rank of the magnitude nearest to `digits` times ten to the `exponent`,
rounded once. Exponents beyond the reach of the format are settled without
computing their power. -/
def rankOfDecimal (digits : Nat) (exponent : Int) : Nat :=
  if digits = 0 then 0
  else if format.decimalReach ≤ exponent then format.topRank
  else if exponent + digits.log2 + 1 ≤ -format.decimalReach then 0
  else if 0 ≤ exponent then
    format.rankOfUnits (digits * Nat.pow 10 exponent.toNat * Nat.pow 2 format.unitExponent) 1
  else
    format.rankOfUnits (digits * Nat.pow 2 format.unitExponent) (Nat.pow 10 (-exponent).toNat)

theorem rankOfUnits_le_topRank (numerator denominator : Nat) :
    format.rankOfUnits numerator denominator ≤ format.topRank :=
  Nat.min_le_left _ _

theorem rankOfDecimal_le_topRank (digits : Nat) (exponent : Int) :
    format.rankOfDecimal digits exponent ≤ format.topRank := by
  simp only [rankOfDecimal]
  repeat' split
  · exact Nat.zero_le _
  · exact Nat.le_refl _
  · exact Nat.zero_le _
  · exact format.rankOfUnits_le_topRank _ _
  · exact format.rankOfUnits_le_topRank _ _

end BinaryFormat

/-- A datum of a binary floating-point format: a signed magnitude, or not a number. -/
inductive Datum (format : BinaryFormat) where
  /-- Not a number, with the sign that its encoding shows. -/
  | nan (negative : Bool)
  | number (negative : Bool) (rank : Nat) (bounded : rank ≤ format.topRank)
deriving DecidableEq, Repr

namespace Datum

variable {format : BinaryFormat}

def zero : Datum format :=
  .number false 0 (Nat.zero_le _)

instance : Inhabited (Datum format) := ⟨zero⟩

/-- The nearest datum of another format. Infinities and signs are kept. -/
def convert (target : BinaryFormat) : Datum format → Datum target
  | .nan negative => .nan negative
  | .number negative rank _ =>
      if rank = format.topRank then .number negative target.topRank (Nat.le_refl _)
      else
        .number negative
          (target.rankOfUnits (format.units rank * Nat.pow 2 target.unitExponent)
            (Nat.pow 2 format.unitExponent))
          (target.rankOfUnits_le_topRank _ _)

def signWeight (format : BinaryFormat) : Nat :=
  Nat.pow 2 (format.fractionBits + format.exponentBits)

/-- The bit pattern of a datum. Not-a-number is written as the quiet pattern
without a payload. -/
def toBits : Datum format → Nat
  | .nan negative =>
      negative.toNat * signWeight format + format.topRank + format.binade / 2
  | .number negative rank _ => negative.toNat * signWeight format + rank

def ofBits (bits : Nat) : Datum format :=
  let negative := decide (bits / signWeight format % 2 = 1)
  let rank := bits % signWeight format
  if bounded : rank ≤ format.topRank then .number negative rank bounded
  else .nan negative

end Datum

end WordTape
