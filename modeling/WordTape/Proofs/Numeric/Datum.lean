import WordTape.Numeric.Codec
import WordTape.Proofs.Numeric.Rounding

/-!
# Bit patterns of data and their conversion

A datum is read back from its bit pattern, and a bit pattern that stands for a number is
written again as it was. A datum of four bytes that is held in eight is the same datum
when it is rounded to four again.
-/

set_option autoImplicit false

namespace WordTape

namespace Datum

variable {format : BinaryFormat}

theorem signWeight_eq (format : BinaryFormat) :
    signWeight format = format.topRank + format.binade := by
  have patterns : signWeight format = 2 ^ format.exponentBits * format.binade := by
    rw [BinaryFormat.binade_eq, ← Nat.pow_add, Nat.add_comm format.exponentBits]
    rfl
  obtain ⟨less, power⟩ := Nat.exists_eq_add_of_lt (Nat.two_pow_pos format.exponentBits)
  have top : format.topRank = less * format.binade := by
    have powers : Nat.pow 2 format.exponentBits = 0 + less + 1 := power
    simp only [BinaryFormat.topRank, powers, Nat.zero_add, Nat.add_sub_cancel]
  rw [patterns, power, top]
  ring

theorem toBits_lt (datum : Datum format) : datum.toBits < 2 * signWeight format := by
  have positive := format.binade_pos
  have weight := signWeight_eq format
  cases datum with
  | nan negative =>
      have half := Nat.div_lt_self positive (Nat.lt_succ_self 1)
      cases negative <;> simp only [toBits, Bool.toNat_true, Bool.toNat_false] <;> omega
  | number negative rank bounded =>
      cases negative <;> simp only [toBits, Bool.toNat_true, Bool.toNat_false] <;> omega

private theorem sign_of_pattern {weight rank : Nat} (below : rank < weight) (negative : Bool) :
    decide ((negative.toNat * weight + rank) / weight % 2 = 1) = negative ∧
      (negative.toNat * weight + rank) % weight = rank := by
  have positive : 0 < weight := Nat.lt_of_le_of_lt (Nat.zero_le rank) below
  constructor
  · rw [Nat.add_comm, Nat.add_mul_div_right _ _ positive, Nat.div_eq_of_lt below]
    cases negative <;> rfl
  · rw [Nat.add_comm, Nat.add_mul_mod_self_right, Nat.mod_eq_of_lt below]

theorem ofBits_toBits (fraction : 0 < format.fractionBits) (datum : Datum format) :
    ofBits datum.toBits = datum := by
  have positive := format.binade_pos
  have weight := signWeight_eq format
  cases datum with
  | nan negative =>
      have half := Nat.div_lt_self positive (Nat.lt_succ_self 1)
      have quiet : 0 < format.binade / 2 := by
        obtain ⟨less, bits⟩ := Nat.exists_eq_add_of_lt fraction
        rw [BinaryFormat.binade_eq, bits, Nat.pow_succ, Nat.mul_div_cancel _ Nat.two_pos]
        exact Nat.two_pow_pos _
      have below : format.topRank + format.binade / 2 < signWeight format := by omega
      obtain ⟨sign, rank⟩ := sign_of_pattern below negative
      have beyond : ¬format.topRank + format.binade / 2 ≤ format.topRank := by omega
      simp only [toBits, ofBits, Nat.add_assoc, rank, beyond, ↓reduceDIte, sign]
  | number negative rank bounded =>
      have below : rank < signWeight format := by omega
      obtain ⟨sign, same⟩ := sign_of_pattern below negative
      simp only [toBits, ofBits, same, bounded, ↓reduceDIte]
      exact congrArg (number · rank bounded) sign

theorem toBits_of_ofBits {bits : Nat} {negative : Bool} {rank : Nat}
    {bounded : rank ≤ format.topRank} (below : bits < 2 * signWeight format)
    (read : ofBits bits = .number negative rank bounded) :
    (number negative rank bounded).toBits = bits := by
  have positive : 0 < signWeight format := Nat.two_pow_pos _
  have parts := Nat.div_add_mod bits (signWeight format)
  have sign : bits / signWeight format < 2 :=
    (Nat.div_lt_iff_lt_mul positive).mpr below
  simp only [ofBits] at read
  split at read
  · cases read
    rw [toBits]
    rcases Nat.le_one_iff_eq_zero_or_eq_one.mp (Nat.le_of_lt_succ sign) with
      positiveSign | negativeSign
    · rw [positiveSign] at parts ⊢
      simpa using parts
    · rw [negativeSign] at parts ⊢
      simpa using parts
  · cases read

/-- By how many halvings the unit of eight bytes is finer than that of four. -/
def widening : Nat :=
  BinaryFormat.double.unitExponent - BinaryFormat.single.unitExponent

private theorem pow_unitExponent_double : Nat.pow 2 BinaryFormat.double.unitExponent =
    2 ^ widening * Nat.pow 2 BinaryFormat.single.unitExponent := by
  have exponent : BinaryFormat.double.unitExponent =
      widening + BinaryFormat.single.unitExponent := rfl
  generalize BinaryFormat.single.unitExponent = narrow at *
  rw [exponent]
  exact Nat.pow_add 2 widening narrow

/-- Whatever is a magnitude of the narrow format is one of the wide format. -/
theorem exists_wide_rank {rank : Nat} (finite : rank < BinaryFormat.single.topRank) :
    ∃ wide, wide < BinaryFormat.double.topRank ∧
      BinaryFormat.double.units wide = BinaryFormat.single.units rank * 2 ^ widening := by
  obtain ⟨significand, exponent, normal, rfl⟩ := BinaryFormat.single.exists_normal rank
  have narrowBinade : BinaryFormat.single.binade = 8388608 := rfl
  have wideBinade : BinaryFormat.double.binade = 4503599627370496 := rfl
  have narrowTop : BinaryFormat.single.topRank = 2139095040 := rfl
  have wideTop : BinaryFormat.double.topRank = 9218868437227405312 := rfl
  have few : significand < 2 * BinaryFormat.double.binade := by
    have below := normal.below
    omega
  obtain ⟨wideSignificand, wideExponent, wideNormal, within, same⟩ :=
    BinaryFormat.exists_normal_of_lt few (exponent + widening)
  refine ⟨wideExponent * BinaryFormat.double.binade + wideSignificand, ?_, ?_⟩
  · have below := wideNormal.below
    have gap : widening = 925 := rfl
    have small : wideExponent ≤ 1200 := by
      rw [narrowBinade, narrowTop] at finite
      omega
    have scaled := Nat.mul_le_mul_right BinaryFormat.double.binade small
    rw [wideTop]
    rw [wideBinade] at below scaled ⊢
    omega
  · rw [wideNormal.units_eq, normal.units_eq, ← same, Nat.pow_add, Nat.mul_assoc]

theorem number_congr {negative : Bool} {rank other : Nat} {bounded : rank ≤ format.topRank}
    {otherBounded : other ≤ format.topRank} (same : rank = other) :
    number negative rank bounded = number negative other otherBounded := by
  subst same
  rfl

/-- A datum of four bytes that is held in eight bytes keeps its value. -/
theorem convert_double_convert_single (datum : Datum .single) :
    (datum.convert .double).convert .single = datum := by
  cases datum with
  | nan negative => rfl
  | number negative rank bounded =>
      by_cases infinite : rank = BinaryFormat.single.topRank
      · subst infinite
        simp only [convert, ↓reduceIte]
      · have finite : rank < BinaryFormat.single.topRank := by omega
        obtain ⟨wide, wideFinite, same⟩ := exists_wide_rank finite
        have positive (bits : Nat) : 0 < Nat.pow 2 bits := Nat.two_pow_pos bits
        have widened : BinaryFormat.double.rankOfUnits
            (BinaryFormat.single.units rank * Nat.pow 2 BinaryFormat.double.unitExponent)
            (Nat.pow 2 BinaryFormat.single.unitExponent) = wide := by
          rw [pow_unitExponent_double, ← Nat.mul_assoc, ← same]
          exact BinaryFormat.rankOfUnits_units (Nat.le_of_lt wideFinite) (positive _)
        have narrowed : BinaryFormat.single.rankOfUnits
            (BinaryFormat.double.units wide * Nat.pow 2 BinaryFormat.single.unitExponent)
            (Nat.pow 2 BinaryFormat.double.unitExponent) = rank := by
          rw [same, Nat.mul_assoc, ← pow_unitExponent_double]
          exact BinaryFormat.rankOfUnits_units bounded (positive _)
        have wideDatum : (number negative rank bounded).convert .double =
            number negative wide (Nat.le_of_lt wideFinite) := by
          simp only [convert, infinite, ↓reduceIte]
          exact number_congr widened
        rw [wideDatum]
        simp only [convert, Nat.ne_of_lt wideFinite, ↓reduceIte]
        exact number_congr narrowed

end Datum

end WordTape
