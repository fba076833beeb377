import Mathlib.Algebra.Order.Field.Power
import WordTape.Proofs.Numeric.Nearest

/-!
# Rounding is correct

A quotient of units and a decimal are rounded to the magnitude nearest to them. For a
decimal beyond the reach of the format this holds because its power of ten is beyond all
magnitudes, or below the first threshold.
-/

set_option autoImplicit false

namespace WordTape

/-- The quotient rounded to a natural number is at most a half away, and even at a half. -/
theorem roundHalfEven_spec {denominator : Nat} (positive : 0 < denominator) (numerator : Nat) :
    2 * numerator ≤ (2 * roundHalfEven numerator denominator + 1) * denominator ∧
      2 * roundHalfEven numerator denominator * denominator ≤ 2 * numerator + denominator ∧
      (2 * numerator = (2 * roundHalfEven numerator denominator + 1) * denominator →
        roundHalfEven numerator denominator % 2 = 0) ∧
      (2 * roundHalfEven numerator denominator * denominator = 2 * numerator + denominator →
        roundHalfEven numerator denominator % 2 = 0) := by
  have parts := Nat.div_add_mod numerator denominator
  have rest := Nat.mod_lt numerator positive
  simp only [roundHalfEven]
  generalize numerator / denominator = quotient at *
  generalize numerator % denominator = remainder at *
  have step : 2 * (quotient + 1) * denominator = 2 * (denominator * quotient) + 2 * denominator :=
    by ring
  have odd (count : Nat) : (2 * count + 1) * denominator = 2 * count * denominator + denominator :=
    by ring
  have even : 2 * quotient * denominator = 2 * (denominator * quotient) := by ring
  split
  · rw [odd, even]
    omega
  · split
    · rw [odd, step]
      omega
    · rcases Nat.mod_two_eq_zero_or_one quotient with zero | one
      · rw [zero, odd, Nat.add_zero, even]
        omega
      · rw [one, odd, step]
        omega

namespace BinaryFormat

variable {format : BinaryFormat} {numerator denominator significand exponent rank : Nat}

/-- A format whose reach in powers of ten is beyond its magnitudes and its first threshold. -/
structure Ample (format : BinaryFormat) : Prop where
  fraction : 0 < format.fractionBits
  exponent : 0 < format.exponentBits
  reach : format.unitExponent < 2 ^ format.exponentBits

theorem single_ample : single.Ample := by
  constructor <;> decide

theorem double_ample : double.Ample := by
  constructor <;> decide

theorem Ample.binade_even (ample : format.Ample) : format.binade % 2 = 0 := by
  obtain ⟨bits, fraction⟩ := Nat.exists_eq_add_of_lt ample.fraction
  rw [binade_eq, fraction, Nat.pow_succ]
  exact Nat.mul_mod_left _ _

theorem Ample.rank_mod_two (ample : format.Ample) (shift significand : Nat) :
    (shift * format.binade + significand) % 2 = significand % 2 := by
  rw [Nat.add_mod, Nat.mul_mod, ample.binade_even, Nat.mul_zero, Nat.zero_mod, Nat.zero_add,
    Nat.mod_mod]

/-- The number that a quotient of units stands for. -/
def quotient (format : BinaryFormat) (numerator denominator : Nat) : ℚ :=
  numerator / denominator / 2 ^ format.unitExponent

private theorem quotient_le_iff {other otherDenominator : Nat} (positive : 0 < denominator)
    (otherPositive : 0 < otherDenominator) :
    format.quotient numerator denominator ≤ format.quotient other otherDenominator ↔
      numerator * otherDenominator ≤ other * denominator := by
  rw [quotient, quotient, div_le_div_iff_of_pos_right (by positivity),
    div_le_div_iff₀ (by positivity) (by positivity)]
  exact_mod_cast Iff.rfl

theorem threshold_eq (rank : Nat) :
    format.threshold rank = format.quotient (format.units rank + format.units (rank + 1)) 2 := by
  rw [threshold, value, value, quotient]
  push_cast
  ring

theorem roundsAbove_quotient_iff (positive : 0 < denominator) :
    format.RoundsAbove (format.quotient numerator denominator) rank ↔
      (format.units rank + format.units (rank + 1)) * denominator < 2 * numerator ∨
        (format.units rank + format.units (rank + 1)) * denominator = 2 * numerator ∧
          rank % 2 = 1 := by
  rw [RoundsAbove, threshold_eq, lt_iff_not_ge, le_antisymm_iff,
    quotient_le_iff positive Nat.two_pos, quotient_le_iff Nat.two_pos positive,
    Nat.mul_comm 2 numerator, Nat.not_le, ← Nat.le_antisymm_iff]

/-! ## Quotients of units -/

/-- A significand that was rounded may have become the next power of two. -/
theorem units_of_rounded (least : format.binade ≤ significand ∨ exponent = 0)
    (most : significand ≤ 2 * format.binade) :
    format.units (exponent * format.binade + significand) = significand * 2 ^ exponent ∧
      (significand + 1) * 2 ^ exponent ≤
        format.units (exponent * format.binade + significand + 1) := by
  rcases most.lt_or_eq with below | carry
  · have normal : format.Normal significand exponent := ⟨below, least⟩
    exact ⟨normal.units_eq, normal.units_succ.ge⟩
  · have normal : format.Normal format.binade (exponent + 1) :=
      ⟨by have := format.binade_pos; omega, .inl le_rfl⟩
    have rank : exponent * format.binade + significand =
        (exponent + 1) * format.binade + format.binade := by
      rw [carry]
      ring
    have power : 2 ^ (exponent + 1) = 2 * 2 ^ exponent := by ring
    rw [rank, Nat.add_assoc, normal.units_eq, normal.units_succ, carry, power]
    constructor
    · ring
    · rw [← Nat.mul_assoc]
      exact Nat.mul_le_mul_right _ (by omega)

private theorem units_pred_of_rounded (least : format.binade < significand + 1 ∨ exponent = 0)
    (most : significand + 1 ≤ 2 * format.binade) :
    format.units (exponent * format.binade + significand) = significand * 2 ^ exponent :=
  (units_of_rounded (least.imp_left Nat.lt_succ_iff.mp) (by omega)).1

/-- The shift leaves a quotient of units as many bits as a significand has, or fewer where
nothing is shifted. -/
theorem shifted_bounds (positive : 0 < denominator) {shift : Nat}
    (isShift : shift = (numerator / denominator).log2 - format.fractionBits) :
    (format.binade * (denominator * 2 ^ shift) ≤ numerator ∨ shift = 0) ∧
      numerator < 2 * format.binade * (denominator * 2 ^ shift) := by
  have units : ∀ factor, factor * format.binade * (denominator * 2 ^ shift) =
      factor * 2 ^ (format.fractionBits + shift) * denominator := by
    intro factor
    rw [binade_eq, Nat.pow_add]
    ring
  constructor
  · by_cases none : shift = 0
    · exact .inr none
    · have nonzero : numerator / denominator ≠ 0 := by
        intro zero
        rw [zero, Nat.log2_zero, Nat.zero_sub] at isShift
        exact none isShift
      have leading : (numerator / denominator).log2 = format.fractionBits + shift := by omega
      have least := Nat.log2_self_le nonzero
      rw [leading, Nat.le_div_iff_mul_le positive] at least
      have scaled := units 1
      rw [Nat.one_mul, Nat.one_mul] at scaled
      exact .inl (scaled ▸ least)
  · have most : numerator / denominator < 2 ^ (format.fractionBits + shift + 1) :=
      Nat.lt_log2_self.trans_le (Nat.pow_le_pow_right Nat.two_pos (by omega))
    rw [Nat.div_lt_iff_lt_mul positive, Nat.pow_succ'] at most
    exact units 2 ▸ most

/-- A quotient of units is rounded to a significand in units of a shift: it is at most half
such a unit away, and the significand is even at a half. -/
structure Rounded (format : BinaryFormat) (numerator denominator shift significand : Nat) :
    Prop where
  reached : format.binade * (denominator * 2 ^ shift) ≤ numerator ∨ shift = 0
  least : format.binade ≤ significand ∨ shift = 0
  most : significand ≤ 2 * format.binade
  upper : 2 * numerator ≤ (2 * significand + 1) * (denominator * 2 ^ shift)
  lower : 2 * significand * (denominator * 2 ^ shift) ≤ 2 * numerator + denominator * 2 ^ shift
  upperTie : 2 * numerator = (2 * significand + 1) * (denominator * 2 ^ shift) →
    significand % 2 = 0
  lowerTie : 2 * significand * (denominator * 2 ^ shift) =
    2 * numerator + denominator * 2 ^ shift → significand % 2 = 0

variable {shift : Nat}

private theorem rounded_of_shift (positive : 0 < denominator)
    (isShift : shift = (numerator / denominator).log2 - format.fractionBits) :
    format.Rounded numerator denominator shift
      (roundHalfEven numerator (denominator * 2 ^ shift)) := by
  have scaled : 0 < denominator * 2 ^ shift := Nat.mul_pos positive (Nat.two_pow_pos shift)
  obtain ⟨reached, below⟩ := shifted_bounds positive isShift
  obtain ⟨upper, lower, upperTie, lowerTie⟩ := roundHalfEven_spec scaled numerator
  generalize roundHalfEven numerator (denominator * 2 ^ shift) = significand at *
  generalize isUnit : denominator * 2 ^ shift = unit at *
  have doubled : 2 * significand * unit = 2 * (significand * unit) := Nat.mul_assoc 2 _ _
  have odd : (2 * significand + 1) * unit = 2 * (significand * unit) + unit := by ring
  have least : format.binade ≤ significand ∨ shift = 0 := by
    refine reached.imp_left fun large => ?_
    by_contra less
    have product := Nat.mul_le_mul_right unit (Nat.lt_of_not_le less)
    rw [Nat.succ_mul] at product
    omega
  have most : significand ≤ 2 * format.binade := by
    by_contra more
    have product := Nat.mul_le_mul_right unit (Nat.lt_of_not_le more)
    rw [Nat.succ_mul] at product
    omega
  subst isUnit
  exact ⟨reached, least, most, upper, lower, upperTie, lowerTie⟩

/-- The units of a rank, in the denominator of the quotient. -/
theorem shifted_units (count : Nat) :
    count * 2 ^ shift * denominator = count * (denominator * 2 ^ shift) := by
  ring

namespace Rounded

variable (rounded : format.Rounded numerator denominator shift significand)

include rounded

theorem units_eq : format.units (shift * format.binade + significand) * denominator =
    significand * (denominator * 2 ^ shift) := by
  rw [(units_of_rounded rounded.least rounded.most).1, shifted_units]

private theorem not_roundsAbove (ample : format.Ample) (positive : 0 < denominator) :
    ¬format.RoundsAbove (format.quotient numerator denominator)
      (shift * format.binade + significand) := by
  have here := rounded.units_eq
  have next := Nat.mul_le_mul_right denominator (units_of_rounded rounded.least rounded.most).2
  have parity := ample.rank_mod_two shift significand
  obtain ⟨-, -, -, upper, -, upperTie, -⟩ := rounded
  rw [shifted_units, Nat.succ_mul] at next
  rw [roundsAbove_quotient_iff positive, Nat.add_mul, here]
  generalize denominator * 2 ^ shift = unit at *
  have odd : (2 * significand + 1) * unit = 2 * (significand * unit) + unit := by ring
  rintro (beyond | ⟨tie, isOdd⟩)
  · omega
  · have isEven := upperTie (by omega)
    omega

private theorem roundsAbove (ample : format.Ample) (positive : 0 < denominator) {below : Nat}
    (isRank : shift * format.binade + significand = below + 1) :
    format.RoundsAbove (format.quotient numerator denominator) below := by
  have here := rounded.units_eq
  obtain ⟨reached, least, most, -, lower, -, lowerTie⟩ := rounded
  rw [roundsAbove_quotient_iff positive, Nat.add_mul, ← isRank, here]
  by_cases lowest : format.binade < significand ∨ shift = 0
  · have nonzero : significand ≠ 0 := by
      intro zero
      rcases lowest with less | unshifted
      · omega
      · rw [zero, unshifted, Nat.zero_mul] at isRank
        omega
    obtain ⟨previous, rfl⟩ : ∃ previous, significand = previous + 1 :=
      Nat.exists_eq_succ_of_ne_zero nonzero
    have isBelow : below = shift * format.binade + previous := by omega
    have parity : below % 2 = previous % 2 := isBelow ▸ ample.rank_mod_two shift previous
    rw [isBelow, units_pred_of_rounded lowest most, shifted_units, ← isBelow]
    generalize denominator * 2 ^ shift = unit at *
    have doubled : 2 * (previous + 1) * unit = 2 * (previous * unit) + 2 * unit := by ring
    have following : (previous + 1) * unit = previous * unit + unit := Nat.succ_mul _ _
    rcases Nat.lt_or_eq_of_le lower with less | tie
    · left
      omega
    · right
      have isEven := lowerTie tie
      exact ⟨by omega, by omega⟩
  · -- the significand is the least of its binade, and the number not below it
    have isLeast : significand = format.binade := by omega
    have within : significand * (denominator * 2 ^ shift) ≤ numerator :=
      isLeast ▸ reached.resolve_right (by omega)
    have fewer := Nat.mul_lt_mul_of_pos_right (format.units_lt_units_succ below) positive
    rw [← isRank, here] at fewer
    left
    omega

end Rounded

theorem rankOfUnits_isNearest (ample : format.Ample) (positive : 0 < denominator)
    (numerator : Nat) :
    format.IsNearest (format.quotient numerator denominator)
      (format.rankOfUnits numerator denominator) := by
  unfold rankOfUnits
  extract_lets shift
  have rounded := rounded_of_shift positive (show shift = _ from rfl)
  rw [Nat.add_comm]
  exact isNearest_min (rounded.not_roundsAbove ample positive)
    fun _ isRank => rounded.roundsAbove ample positive isRank

/-! ## Decimals -/

theorem isNearest_zero : format.IsNearest 0 0 := by
  have nearest := isNearest_value (Nat.zero_le format.topRank)
  rwa [value_zero] at nearest

/-- The first threshold is half a unit. -/
theorem threshold_zero (ample : format.Ample) :
    format.threshold 0 = (2 ^ (format.unitExponent + 1))⁻¹ := by
  have several : 1 < format.binade := Nat.one_lt_two_pow ample.fraction.ne'
  have one : format.units 1 = 1 := if_pos several
  rw [threshold, value, value, Nat.zero_add, units_zero, one, pow_succ]
  push_cast
  field_simp
  ring

/-- The top rank stands for the power of two after the finite magnitudes. -/
theorem value_topRank (ample : format.Ample) :
    format.value format.topRank = 2 ^ 2 ^ (format.exponentBits - 1) := by
  obtain ⟨half, halfPos, isHalf⟩ : ∃ half, 0 < half ∧ 2 ^ (format.exponentBits - 1) = half :=
    ⟨_, Nat.two_pow_pos _, rfl⟩
  have powers : 2 ^ format.exponentBits = 2 * half := by
    rw [← isHalf, ← Nat.pow_succ', Nat.succ_eq_add_one, Nat.sub_add_cancel ample.exponent]
  have unitExponent : format.unitExponent = half + format.fractionBits - 2 :=
    congrArg (· + format.fractionBits - 2) isHalf
  have topRank : format.topRank = (2 * half - 2) * format.binade + format.binade := by
    have top : format.topRank = (2 * half - 1) * format.binade :=
      congrArg (fun count => (count - 1) * format.binade) powers
    obtain ⟨less, rfl⟩ := Nat.exists_eq_add_of_lt halfPos
    rw [top, ← Nat.succ_mul]
    congr 1
  have normal : format.Normal format.binade (2 * half - 2) :=
    ⟨by have := format.binade_pos; omega, .inl le_rfl⟩
  have exponents : format.fractionBits + (2 * half - 2) = half + format.unitExponent := by
    have := ample.fraction
    omega
  rw [value, topRank, normal.units_eq, binade_eq, ← Nat.pow_add, exponents, isHalf]
  push_cast
  rw [pow_add, mul_div_assoc, div_self (by positivity), mul_one]

theorem isNearest_topRank {number : ℚ} (beyond : format.value format.topRank ≤ number) :
    format.IsNearest number format.topRank := by
  rw [isNearest_iff]
  refine ⟨le_rfl, fun less => absurd less (Nat.lt_irrefl _), fun below isTop => .inl ?_⟩
  rw [isTop] at beyond
  exact (format.threshold_lt_value_succ below).trans_le beyond

theorem isNearest_zero_of_le {number : ℚ} (below : number ≤ format.threshold 0) :
    format.IsNearest number 0 := by
  rw [isNearest_iff]
  refine ⟨Nat.zero_le _, fun _ above => ?_, fun other isRank => by omega⟩
  rcases above with beyond | ⟨_, odd⟩
  · exact absurd below (not_le_of_gt beyond)
  · cases odd

private theorem topRank_le_of_reach (ample : format.Ample) {digits : Nat} (nonzero : digits ≠ 0)
    {exponent : Int} (beyond : format.decimalReach ≤ exponent) :
    format.value format.topRank ≤ digits * 10 ^ exponent := by
  have one : (1 : ℚ) ≤ digits := by exact_mod_cast Nat.one_le_iff_ne_zero.mpr nonzero
  have reach : ((2 ^ format.exponentBits : Nat) : Int) ≤ exponent := beyond
  calc format.value format.topRank
    _ = 2 ^ 2 ^ (format.exponentBits - 1) := value_topRank ample
    _ ≤ 2 ^ 2 ^ format.exponentBits :=
        pow_le_pow_right₀ one_le_two (Nat.pow_le_pow_right Nat.two_pos (Nat.sub_le _ _))
    _ ≤ 10 ^ 2 ^ format.exponentBits := pow_le_pow_left₀ zero_le_two (by norm_num) _
    _ = 10 ^ ((2 ^ format.exponentBits : Nat) : Int) := (zpow_natCast _ _).symm
    _ ≤ 10 ^ exponent := zpow_le_zpow_right₀ (by norm_num) reach
    _ ≤ digits * 10 ^ exponent := le_mul_of_one_le_left (by positivity) one

private theorem lt_threshold_of_reach (ample : format.Ample) {digits : Nat} {exponent : Int}
    (below : exponent + digits.log2 + 1 ≤ -format.decimalReach) :
    (digits * 10 ^ exponent : ℚ) < format.threshold 0 := by
  have reach : exponent + digits.log2 + 1 ≤ -((2 ^ format.exponentBits : Nat) : Int) := below
  have enough : (format.unitExponent : Int) + 1 ≤ (2 ^ format.exponentBits : Nat) := by
    exact_mod_cast ample.reach
  obtain ⟨places, rfl⟩ : ∃ places : Nat, exponent = -places := ⟨exponent.natAbs, by omega⟩
  have leading : (digits : ℚ) < 2 ^ (digits.log2 + 1) := by
    exact_mod_cast Nat.lt_log2_self
  have tens : (2 : ℚ) ^ places ≤ 10 ^ places := pow_le_pow_left₀ zero_le_two (by norm_num) _
  rw [zpow_neg, zpow_natCast, threshold_zero ample, ← div_eq_mul_inv, div_lt_iff₀ (by positivity)]
  calc (digits : ℚ)
    _ < 2 ^ (digits.log2 + 1) := leading
    _ = (2 ^ (format.unitExponent + 1))⁻¹ * 2 ^ (format.unitExponent + 1 + (digits.log2 + 1)) := by
        rw [pow_add _ (format.unitExponent + 1), inv_mul_cancel_left₀ (by positivity)]
    _ ≤ (2 ^ (format.unitExponent + 1))⁻¹ * 2 ^ places := by
        gcongr
        · exact one_le_two
        · omega
    _ ≤ (2 ^ (format.unitExponent + 1))⁻¹ * 10 ^ places := by gcongr

/-- A decimal is rounded to the magnitude nearest to it. -/
theorem rankOfDecimal_isNearest (ample : format.Ample) (digits : Nat) (exponent : Int) :
    format.IsNearest (digits * 10 ^ exponent) (format.rankOfDecimal digits exponent) := by
  have powers : (2 : ℚ) ^ format.unitExponent ≠ 0 := by positivity
  rw [rankOfDecimal]
  split
  · rename_i zero
    rw [zero, Nat.cast_zero, zero_mul]
    exact isNearest_zero
  · rename_i nonzero
    split
    · rename_i beyond
      exact isNearest_topRank (topRank_le_of_reach ample nonzero beyond)
    · split
      · rename_i below
        exact isNearest_zero_of_le (lt_threshold_of_reach ample below).le
      · split
        · rename_i integral
          obtain ⟨zeros, rfl⟩ := Int.eq_ofNat_of_zero_le integral
          have nearest := rankOfUnits_isNearest ample Nat.one_pos
            (digits * 10 ^ zeros * 2 ^ format.unitExponent)
          have same : format.quotient (digits * 10 ^ zeros * 2 ^ format.unitExponent) 1 =
              digits * 10 ^ (zeros : Int) := by
            rw [quotient, zpow_natCast]
            push_cast
            field_simp
          exact same ▸ nearest
        · rename_i fractional
          obtain ⟨places, rfl⟩ : ∃ places : Nat, exponent = -places :=
            ⟨exponent.natAbs, by omega⟩
          have nearest := rankOfUnits_isNearest ample (show 0 < 10 ^ places by positivity)
            (digits * 2 ^ format.unitExponent)
          have same : format.quotient (digits * 2 ^ format.unitExponent) (10 ^ places) =
              digits * 10 ^ (-(places : Int)) := by
            rw [quotient, zpow_neg, zpow_natCast]
            push_cast
            field_simp
          rw [Int.neg_neg, Int.toNat_natCast]
          exact same ▸ nearest

theorem rankOfDecimal_eq_iff (ample : format.Ample) {digits : Nat} {exponent : Int} :
    format.rankOfDecimal digits exponent = rank ↔
      format.IsNearest (digits * 10 ^ exponent) rank := by
  have nearest := rankOfDecimal_isNearest ample digits exponent
  constructor
  · rintro rfl
    exact nearest
  · exact nearest.unique

end BinaryFormat

end WordTape
