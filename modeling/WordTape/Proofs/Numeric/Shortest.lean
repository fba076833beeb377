import WordTape.Numeric.Shortest
import WordTape.Proofs.Numeric.Rounding

/-!
# Shortest decimals read back

The search for the shortest decimal of a magnitude ends at a grid point that reads back
as the magnitude, at the finest grid at the latest. Its numerals are of bounded length.
-/

set_option autoImplicit false

namespace WordTape.BinaryFormat

variable {format : BinaryFormat} {rank : Nat}

private theorem units_pos (positive : 0 < rank) : 0 < format.units rank := by
  obtain ⟨significand, exponent, normal, rfl⟩ := format.exists_normal rank
  rw [normal.units_eq]
  apply Nat.mul_pos
  · rcases normal.full with full | least
    · exact Nat.lt_of_lt_of_le format.binade_pos full
    · subst least
      omega
  · exact Nat.two_pow_pos exponent

theorem decimalReach_pos (format : BinaryFormat) : 0 < format.decimalReach :=
  Int.natCast_pos.mpr (Nat.two_pow_pos _)

/-- A grid point that is found reads back, and is hardly greater than the magnitude. -/
theorem of_gridPoint? {exponent : Int} {digits : Nat}
    (found : format.gridPoint? rank exponent = some digits) :
    format.rankOfDecimal digits exponent = rank ∧
      digits ≤ format.units rank * 10 ^ (-exponent).toNat + 2 := by
  unfold gridPoint? at found
  extract_lets numerator denominator nearer farther at found
  have near : nearer ≤ numerator + 1 := roundHalfEven_le numerator denominator
  have far : farther ≤ nearer + 1 := by
    simp only [farther]
    split
    · exact Nat.le_refl _
    · omega
  have scaled : numerator = format.units rank * 10 ^ (-exponent).toNat := rfl
  split at found
  · rename_i readsBack
    have same := Option.some.inj found
    rw [← same]
    exact ⟨readsBack, by omega⟩
  · split at found
    · rename_i readsBack
      have same := Option.some.inj found
      rw [← same]
      exact ⟨readsBack, by omega⟩
    · cases found

private theorem rankOfDecimal_finest (fine : 0 < format.unitExponent) (positive : 0 < rank)
    (bounded : rank ≤ format.topRank) :
    format.rankOfDecimal (format.units rank * Nat.pow 5 format.unitExponent)
      (-(format.unitExponent : Int)) = rank := by
  have units := format.units_pos positive
  have reach := format.decimalReach_pos
  have tens : format.units rank * Nat.pow 5 format.unitExponent *
      Nat.pow 2 format.unitExponent = format.units rank * Nat.pow 10 format.unitExponent := by
    rw [Nat.mul_assoc]
    exact congrArg (format.units rank * ·) (Nat.mul_pow 5 2 format.unitExponent).symm
  have nonzero : format.units rank * Nat.pow 5 format.unitExponent ≠ 0 :=
    Nat.ne_of_gt (Nat.mul_pos units (Nat.pow_pos (by omega)))
  have bits : format.unitExponent ≤
      (format.units rank * Nat.pow 5 format.unitExponent).log2 := by
    rw [Nat.le_log2 nonzero]
    calc 2 ^ format.unitExponent
      _ ≤ 5 ^ format.unitExponent := Nat.pow_le_pow_left (by omega) _
      _ ≤ format.units rank * 5 ^ format.unitExponent := Nat.le_mul_of_pos_left _ units
  have notHuge : ¬format.decimalReach ≤ -(format.unitExponent : Int) := by omega
  have notTiny : ¬-(format.unitExponent : Int) +
      (format.units rank * Nat.pow 5 format.unitExponent).log2 + 1 ≤ -format.decimalReach := by
    omega
  have fractional : ¬(0 : Int) ≤ -(format.unitExponent : Int) := by omega
  simp only [rankOfDecimal, nonzero, notHuge, notTiny, fractional, ↓reduceIte, Int.neg_neg,
    Int.toNat_natCast, tens]
  exact rankOfUnits_units bounded (Nat.pow_pos (by omega))

theorem rankOfDecimal_shortestFrom (fine : 0 < format.unitExponent) (positive : 0 < rank)
    (bounded : rank ≤ format.topRank) (grid : Nat) :
    format.rankOfDecimal (format.shortestFrom rank grid).digits
      (format.shortestFrom rank grid).exponent = rank := by
  fun_induction shortestFrom format rank grid with
  | case1 => exact rankOfDecimal_finest fine positive bounded
  | case2 grid exponent digits found => exact (of_gridPoint? found).1
  | case3 grid exponent none ih => exact ih

/-- A crude bound on the digits of a decimal that the search comes to. -/
theorem shortestFrom_bounded (rank grid : Nat) :
    (format.shortestFrom rank grid).digits ≤
        format.units rank * 10 ^ format.unitExponent + 2 ∧
      -(format.unitExponent : Int) ≤ (format.shortestFrom rank grid).exponent ∧
      (format.shortestFrom rank grid).exponent + format.unitExponent ≤ grid := by
  fun_induction shortestFrom format rank grid with
  | case1 =>
      have fives : Nat.pow 5 format.unitExponent ≤ 10 ^ format.unitExponent :=
        Nat.pow_le_pow_left (by omega) _
      have scaled := Nat.mul_le_mul_left (format.units rank) fives
      dsimp only
      exact ⟨by omega, by omega, by omega⟩
  | case2 grid exponent digits found =>
      have places : (-exponent).toNat ≤ format.unitExponent := by omega
      have tens : 10 ^ (-exponent).toNat ≤ 10 ^ format.unitExponent :=
        Nat.pow_le_pow_right (by omega) places
      have scaled := Nat.mul_le_mul_left (format.units rank) tens
      have near := (of_gridPoint? found).2
      dsimp only
      exact ⟨by omega, by omega, by omega⟩
  | case3 grid exponent none ih =>
      obtain ⟨digits, least, greatest⟩ := ih
      exact ⟨digits, least, by omega⟩

private theorem units_single_lt (finite : rank < single.topRank) :
    single.units rank < 2 ^ 149 * 2 ^ 128 := by
  obtain ⟨significand, exponent, normal, rfl⟩ := single.exists_normal rank
  have binade : single.binade = 8388608 := rfl
  have top : single.topRank = 2139095040 := rfl
  have below := normal.below
  have small : exponent ≤ 253 := by
    rw [binade, top] at finite
    rcases normal.full with full | least
    · omega
    · omega
  rw [normal.units_eq]
  calc significand * 2 ^ exponent
    _ < 2 ^ 24 * 2 ^ exponent :=
        Nat.mul_lt_mul_of_pos_right (by omega) (Nat.two_pow_pos exponent)
    _ ≤ 2 ^ 24 * 2 ^ 253 := Nat.mul_le_mul_left _ (Nat.pow_le_pow_right (by omega) small)
    _ = 2 ^ 149 * 2 ^ 128 := by decide +kernel

theorem shortest_single_bounded (finite : rank < single.topRank) :
    (single.shortest rank).digits < 10 ^ 240 ∧
      (single.shortest rank).exponent.natAbs ≤ 149 := by
  have units := units_single_lt finite
  have fine : single.unitExponent = 149 := rfl
  have whole : single.units rank / Nat.pow 2 single.unitExponent < 2 ^ 128 :=
    Nat.div_lt_of_lt_mul units
  have bits : (single.units rank / Nat.pow 2 single.unitExponent).log2 ≤ 128 := by
    by_cases zero : single.units rank / Nat.pow 2 single.unitExponent = 0
    · rw [zero]
      exact Nat.zero_le _
    · exact Nat.le_of_lt ((Nat.log2_lt zero).mpr whole)
  obtain ⟨digits, least, greatest⟩ := single.shortestFrom_bounded rank
    ((single.units rank / Nat.pow 2 single.unitExponent).log2 / 3 + 1 + single.unitExponent)
  constructor
  · calc (single.shortest rank).digits
      _ ≤ single.units rank * 10 ^ single.unitExponent + 2 := digits
      _ ≤ 2 ^ 149 * 2 ^ 128 * 10 ^ single.unitExponent + 2 :=
          Nat.add_le_add_right (Nat.mul_le_mul_right _ (Nat.le_of_lt units)) 2
      _ < 10 ^ 240 := by decide +kernel
  · rw [shortest]
    rw [fine] at least greatest bits ⊢
    omega

end WordTape.BinaryFormat
