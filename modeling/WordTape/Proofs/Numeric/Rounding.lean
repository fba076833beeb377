import Mathlib.Tactic.Linarith
import Mathlib.Tactic.Ring
import WordTape.Numeric.BinaryFormat

/-!
# Rounding to a binary format

A magnitude of a format is a significand times a power of two, and its rank counts the
significand on top of the ranks below that power. A quotient that is a magnitude of the
format is rounded to that magnitude.
-/

set_option autoImplicit false

namespace WordTape

theorem roundHalfEven_mul {denominator : Nat} (positive : 0 < denominator) (quotient : Nat) :
    roundHalfEven (quotient * denominator) denominator = quotient := by
  have rest : quotient * denominator % denominator = 0 := Nat.mul_mod_left _ _
  simp only [roundHalfEven, rest, Nat.mul_zero, positive, ↓reduceIte,
    Nat.mul_div_cancel _ positive]

theorem roundHalfEven_le (numerator denominator : Nat) :
    roundHalfEven numerator denominator ≤ numerator + 1 := by
  have quotient := Nat.div_le_self numerator denominator
  simp only [roundHalfEven]
  split
  · omega
  · split
    · omega
    · omega

namespace BinaryFormat

variable (format : BinaryFormat)

theorem binade_eq : format.binade = 2 ^ format.fractionBits := rfl

theorem binade_pos : 0 < format.binade :=
  Nat.two_pow_pos _

/-- A significand and an exponent that belong to a rank: the significand has all bits,
unless the exponent is the least one. -/
structure Normal (significand exponent : Nat) : Prop where
  below : significand < 2 * format.binade
  full : format.binade ≤ significand ∨ exponent = 0

theorem exists_normal (rank : Nat) : ∃ significand exponent,
    format.Normal significand exponent ∧ rank = exponent * format.binade + significand := by
  have positive := format.binade_pos
  by_cases subnormal : rank < format.binade
  · exact ⟨rank, 0, ⟨by omega, .inr rfl⟩, by omega⟩
  · have rest := Nat.mod_lt rank positive
    have parts := Nat.div_add_mod rank format.binade
    have exponentPos := Nat.div_pos (Nat.le_of_not_lt subnormal) positive
    obtain ⟨exponent, quotient⟩ := Nat.exists_eq_add_of_lt exponentPos
    refine ⟨format.binade + rank % format.binade, exponent, ⟨by omega, .inl (by omega)⟩, ?_⟩
    rw [quotient] at parts
    calc rank
      _ = format.binade * (0 + exponent + 1) + rank % format.binade := parts.symm
      _ = exponent * format.binade + (format.binade + rank % format.binade) := by ring

variable {format} {significand exponent : Nat}

theorem Normal.units_eq (normal : format.Normal significand exponent) :
    format.units (exponent * format.binade + significand) = significand * 2 ^ exponent := by
  have positive := format.binade_pos
  obtain ⟨below, full⟩ := normal
  by_cases subnormal : significand < format.binade
  · have least : exponent = 0 := full.resolve_left (Nat.not_le_of_lt subnormal)
    subst least
    simp only [units, Nat.zero_mul, Nat.zero_add, subnormal, ↓reduceIte, pow_zero, Nat.mul_one]
  · obtain ⟨fraction, rfl⟩ := Nat.exists_eq_add_of_le (Nat.le_of_not_lt subnormal)
    have small : fraction < format.binade := by omega
    have rank : exponent * format.binade + (format.binade + fraction) =
        fraction + format.binade * (exponent + 1) := by ring
    have normal : ¬fraction + format.binade * (exponent + 1) < format.binade := by
      have grows : format.binade ≤ format.binade * (exponent + 1) :=
        Nat.le_mul_of_pos_right _ (Nat.succ_pos _)
      omega
    simp only [units, rank, normal, ↓reduceIte, Nat.add_mul_mod_self_left,
      Nat.mod_eq_of_lt small, Nat.add_mul_div_left _ _ positive, Nat.div_eq_of_lt small,
      Nat.zero_add, Nat.add_sub_cancel]
    rfl

private theorem Normal.log2_sub (normal : format.Normal significand exponent) :
    (significand * 2 ^ exponent).log2 - format.fractionBits = exponent := by
  obtain ⟨below, full⟩ := normal
  rw [binade_eq] at below full
  rcases full with full | rfl
  · have nonzero : significand * 2 ^ exponent ≠ 0 := by
      have powers := Nat.two_pow_pos exponent
      have leading := Nat.two_pow_pos format.fractionBits
      have product := Nat.mul_pos (Nat.lt_of_lt_of_le leading full) powers
      omega
    have leading : (significand * 2 ^ exponent).log2 = format.fractionBits + exponent := by
      rw [Nat.log2_eq_iff nonzero]
      constructor
      · rw [Nat.pow_add]
        exact Nat.mul_le_mul_right _ full
      · have power : 2 ^ (format.fractionBits + exponent + 1) =
            2 * 2 ^ format.fractionBits * 2 ^ exponent := by ring
        rw [power]
        exact Nat.mul_lt_mul_of_pos_right below (Nat.two_pow_pos exponent)
    rw [leading, Nat.add_sub_cancel_left]
  · by_cases zero : significand = 0
    · subst zero
      simp
    · have leading : significand.log2 < format.fractionBits + 1 := by
        rw [Nat.log2_lt zero, Nat.pow_succ]
        omega
      simp only [pow_zero, Nat.mul_one]
      omega

private theorem Normal.rankOfUnits_eq (normal : format.Normal significand exponent)
    {denominator : Nat}
    (positive : 0 < denominator) :
    format.rankOfUnits (significand * 2 ^ exponent * denominator) denominator =
      min format.topRank (exponent * format.binade + significand) := by
  have product : significand * 2 ^ exponent * denominator =
      significand * (denominator * 2 ^ exponent) := by ring
  have scaled : 0 < denominator * 2 ^ exponent :=
    Nat.mul_pos positive (Nat.two_pow_pos exponent)
  simp only [rankOfUnits, Nat.mul_div_cancel _ positive, normal.log2_sub]
  rw [product]
  have rounded : roundHalfEven (significand * (denominator * 2 ^ exponent))
      (denominator * Nat.pow 2 exponent) = significand := roundHalfEven_mul scaled significand
  rw [rounded, Nat.add_comm significand]

theorem rankOfUnits_units {rank denominator : Nat} (bounded : rank ≤ format.topRank)
    (positive : 0 < denominator) :
    format.rankOfUnits (format.units rank * denominator) denominator = rank := by
  obtain ⟨significand, exponent, normal, rfl⟩ := format.exists_normal rank
  rw [normal.units_eq, normal.rankOfUnits_eq positive]
  exact Nat.min_eq_right bounded

theorem exists_normal_of_lt {number : Nat} (below : number < 2 * format.binade) (shift : Nat) :
    ∃ significand exponent, format.Normal significand exponent ∧ exponent ≤ shift ∧
      number * 2 ^ shift = significand * 2 ^ exponent := by
  induction shift generalizing number with
  | zero => exact ⟨number, 0, ⟨below, .inr rfl⟩, Nat.le_refl _, rfl⟩
  | succ shift ih =>
      by_cases full : format.binade ≤ number
      · exact ⟨number, shift + 1, ⟨below, .inl full⟩, Nat.le_refl _, rfl⟩
      · have doubled : 2 * number < 2 * format.binade := by omega
        obtain ⟨significand, exponent, normal, within, same⟩ := ih doubled
        refine ⟨significand, exponent, normal, Nat.le_succ_of_le within, ?_⟩
        rw [← same]
        ring

end BinaryFormat

end WordTape
