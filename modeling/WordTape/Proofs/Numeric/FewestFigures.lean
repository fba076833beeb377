import Mathlib.Data.Nat.Log
import Mathlib.Tactic.LinearCombination
import WordTape.Proofs.Numeric.CoarsestGrid

/-!
# The fewest figures

A decimal on the coarsest grid has the fewest figures of all that are read back: one with
fewer would leave a power of ten between the two, which would be on a coarser grid. For the
same reason one with as many figures is on the same grid, unless they have a single figure.
Then a finer grid has points below the power of ten only, and these are too far away, as no
power of ten is close enough above one of the least magnitudes.
-/

set_option autoImplicit false

namespace WordTape

/-- A number is written with at most so many figures, beside the zeros before and behind. -/
def HasFigures (count : Nat) (number : ℚ) : Prop :=
  ∃ (digits : Nat) (exponent : Int), digits < 10 ^ count ∧ number = digits * 10 ^ exponent

namespace BinaryFormat

variable {format : BinaryFormat} {rank : Nat} {decimal : ScaledDecimal} {number : ℚ}

/-- Powers of ten that are rounded to one of the least magnitudes are not far above it. -/
def Sparse (format : BinaryFormat) : Prop :=
  ∀ rank : Nat, 0 < rank → rank < 10 → ∀ exponent : Int,
    (10 : ℚ) ^ exponent ≤ format.threshold rank → 19 * 10 ^ exponent ≤ 20 * format.value rank

section

variable {power scale units : ℚ}

/-- A power of ten up to a tenth of a scale is small in units that are near the scale. -/
private theorem small_of_tenth (powerPos : 0 < power) (near : 19 * units ≤ 200 * scale)
    (tenth : power * scale * 10 ≤ 1) : 19 * power * units ≤ 20 := by
  calc 19 * power * units
    _ = power * (19 * units) := by ring
    _ ≤ power * (200 * scale) := mul_le_mul_of_nonneg_left near powerPos.le
    _ = 20 * (power * scale * 10) := by ring
    _ ≤ 20 := by linarith

/-- The power of ten that is inverse to the scale is close enough to the ranks at whose
thresholds it may be. -/
private theorem close_of_inverse (powerPos : 0 < power) (scalePos : 0 < scale)
    (inverse : power * scale = 1) (rank : Nat)
    (close : 2 * units ≤ (2 * rank + 1) * scale → 19 * units ≤ 20 * rank * scale)
    (within : power * (units * 2) ≤ rank + (rank + 1)) : 19 * power * units ≤ 20 * rank := by
  have reached : 2 * units ≤ (2 * rank + 1) * scale :=
    calc 2 * units
      _ = power * (units * 2) * scale := by linear_combination -2 * units * inverse
      _ ≤ (rank + (rank + 1)) * scale := mul_le_mul_of_nonneg_right within scalePos.le
      _ = (2 * rank + 1) * scale := by ring
  calc 19 * power * units
    _ = power * (19 * units) := by ring
    _ ≤ power * (20 * rank * scale) := mul_le_mul_of_nonneg_left (close reached) powerPos.le
    _ = 20 * rank := by linear_combination 20 * (rank : ℚ) * inverse

/-- A power of ten from ten times that one on is above the thresholds of ranks below ten. -/
private theorem beyond_of_ten (scalePos : 0 < scale) (unitsPos : 0 < units)
    (near : 19 * scale < 20 * units) (ten : 10 ≤ power * scale) {rank : Nat} (small : rank < 10) :
    (rank + (rank + 1) : ℚ) < power * (units * 2) := by
  have atMost : (rank : ℚ) ≤ 9 := by exact_mod_cast Nat.le_of_lt_succ small
  refine lt_of_mul_lt_mul_right ?_ scalePos.le
  calc ((rank + (rank + 1)) * scale : ℚ)
    _ ≤ 19 * scale := mul_le_mul_of_nonneg_right (by linarith) scalePos.le
    _ < 10 * (units * 2) := by linarith
    _ ≤ power * scale * (units * 2) := mul_le_mul_of_nonneg_right ten (by linarith)
    _ = power * (units * 2) * scale := by ring

end

/-- Only one power of ten can be among the least magnitudes. -/
theorem sparse_of_places (significands : 10 < format.binade) (places : Nat)
    (next : 19 * 10 ^ places < 20 * 2 ^ format.unitExponent)
    (previous : 19 * 2 ^ format.unitExponent ≤ 200 * 10 ^ places)
    (between : ∀ rank < 10, 0 < rank → 2 * 2 ^ format.unitExponent ≤ (2 * rank + 1) * 10 ^ places →
      19 * 2 ^ format.unitExponent ≤ 20 * rank * 10 ^ places) : format.Sparse := by
  intro rank positive small exponent within
  have here : format.units rank = rank := if_pos (by omega)
  have next' : format.units (rank + 1) = rank + 1 := if_pos (by omega)
  have unit : (0 : ℚ) < 2 ^ format.unitExponent := by positivity
  have scale : (0 : ℚ) < 10 ^ places := by positivity
  have power : (0 : ℚ) < 10 ^ exponent := by positivity
  have product : (10 : ℚ) ^ exponent * 10 ^ places = 10 ^ (exponent + places) := by
    rw [zpow_add₀ (by norm_num), zpow_natCast]
  rw [threshold, value, value, here, next', ← add_div, div_div,
    le_div_iff₀ (by positivity)] at within
  rw [value, here, ← mul_div_assoc, le_div_iff₀ unit]
  push_cast at within
  rcases Int.lt_trichotomy (exponent + places) 0 with less | same | more
  · have tenth : (10 : ℚ) ^ exponent * 10 ^ places * 10 ≤ 1 := by
      rw [product, ← zpow_add_one₀ (by norm_num), ← zpow_zero (10 : ℚ)]
      exact zpow_le_zpow_right₀ (by norm_num) (by omega)
    have atLeast : (1 : ℚ) ≤ rank := by exact_mod_cast positive
    have near : (19 : ℚ) * 2 ^ format.unitExponent ≤ 200 * 10 ^ places := by
      exact_mod_cast previous
    linarith [small_of_tenth power near tenth]
  · rw [same, zpow_zero] at product
    refine close_of_inverse power scale product rank ?_ within
    exact_mod_cast between rank small positive
  · have ten : 10 ≤ (10 : ℚ) ^ exponent * 10 ^ places := by
      rw [product]
      exact (zpow_one (10 : ℚ)).ge.trans (zpow_le_zpow_right₀ (by norm_num) (by omega))
    have near : (19 : ℚ) * 10 ^ places < 20 * 2 ^ format.unitExponent := by exact_mod_cast next
    exact absurd within (not_le_of_gt (beyond_of_ten scale unit near ten small))

theorem single_sparse : single.Sparse :=
  sparse_of_places (by decide) 44 (by decide +kernel) (by decide +kernel)
    (by decide +kernel)

theorem double_sparse : double.Sparse :=
  sparse_of_places (by decide) 323 (by decide +kernel) (by decide +kernel)
    (by decide +kernel)

/-- A power of ten that is read back is hardly above the magnitude. -/
theorem power_near_value (significands : 10 ≤ format.binade) (sparse : format.Sparse)
    (positive : 0 < rank) (finite : rank < format.topRank) {exponent : Int}
    (read : format.IsNearest (10 ^ exponent) rank) :
    19 * 10 ^ exponent ≤ 20 * format.value rank := by
  have within := read.le_threshold finite
  rcases Nat.lt_or_ge rank 10 with small | large
  · exact sparse rank positive small exponent within
  · have near := value_succ_le large significands
    push_cast at near
    rw [threshold] at within
    linarith [format.value_nonneg rank]

theorem Coarsest.digits_pos (coarsest : format.Coarsest rank decimal) (positive : 0 < rank) :
    0 < decimal.digits := by
  apply Nat.pos_of_ne_zero
  intro zero
  have read := coarsest.readsBack.pos_of_pos positive
  rw [ScaledDecimal.value, zero, Nat.cast_zero, zero_mul] at read
  exact lt_irrefl _ read

/-- A decimal on the coarsest grid does not end in a zero. -/
theorem Coarsest.digits_mod_ten (coarsest : format.Coarsest rank decimal) :
    decimal.digits % 10 ≠ 0 := by
  intro zero
  have read := coarsest.readsBack
  have coarser : decimal.value =
      (decimal.digits / 10 : Nat) * 10 ^ (decimal.exponent + 1) := by
    have whole : decimal.digits = decimal.digits / 10 * 10 := by omega
    rw [ScaledDecimal.value, zpow_add_one₀ (by norm_num)]
    conv_lhs => rw [whole, Nat.cast_mul]
    push_cast
    ring
  rw [coarser] at read
  have within := coarsest.coarsest _ _ read
  omega

/-- No power of ten stands between a decimal on the coarsest grid and another that is read
back, unless there is just one figure. -/
theorem Coarsest.places_eq_zero (coarsest : format.Coarsest rank decimal) {places : Nat}
    (read : format.IsNearest number rank) (below : number ≤ 10 ^ (decimal.exponent + places))
    (figures : 10 ^ places ≤ decimal.digits) :
    places = 0 ∧ format.IsNearest (10 ^ decimal.exponent) rank := by
  have above : (10 : ℚ) ^ (decimal.exponent + places) ≤ decimal.value := by
    have cast : (10 : ℚ) ^ places ≤ decimal.digits := by exact_mod_cast figures
    rw [ScaledDecimal.value, zpow_add₀ (by norm_num), zpow_natCast, mul_comm]
    exact mul_le_mul_of_nonneg_right cast (by positivity)
  have power := read.between coarsest.readsBack below above
  have within := coarsest.coarsest 1 (decimal.exponent + places) (by simpa using power)
  have zero : places = 0 := by omega
  subst zero
  exact ⟨rfl, by simpa using power⟩

/-- A number with at most so many figures stays below the power of ten that has one more, on
its grid and on finer ones. -/
theorem lt_power_of_figures {digits count : Nat} {exponent coarser : Int}
    (figures : digits < 10 ^ count) (finer : exponent ≤ coarser) :
    (digits * 10 ^ exponent : ℚ) < 10 ^ (coarser + count) := by
  have cast : (digits : ℚ) < 10 ^ count := by exact_mod_cast figures
  calc (digits * 10 ^ exponent : ℚ)
    _ < 10 ^ count * 10 ^ exponent := mul_lt_mul_of_pos_right cast (by positivity)
    _ = 10 ^ (exponent + count) := by
        rw [zpow_add₀ (by norm_num), zpow_natCast, mul_comm]
    _ ≤ 10 ^ (coarser + count) := zpow_le_zpow_right₀ (by norm_num) (by omega)

private theorem Coarsest.log_lt_of_hasFigures (coarsest : format.Coarsest rank decimal)
    (positive : 0 < rank) {count : Nat} (read : format.IsNearest number rank)
    (figures : HasFigures count number) : Nat.log 10 decimal.digits < count := by
  obtain ⟨digits, exponent, few, rfl⟩ := figures
  have finer := coarsest.coarsest digits exponent read
  have leading := Nat.pow_log_le_self 10 (coarsest.digits_pos positive).ne'
  by_contra fewer
  have fewDigits : digits < 10 ^ Nat.log 10 decimal.digits :=
    few.trans_le (Nat.pow_le_pow_right (by omega) (by omega))
  obtain ⟨zero, -⟩ :=
    coarsest.places_eq_zero read (lt_power_of_figures fewDigits finer).le leading
  rw [zero, Nat.pow_zero, Nat.lt_one_iff] at fewDigits
  have someDigits := read.pos_of_pos positive
  rw [fewDigits, Nat.cast_zero, zero_mul] at someDigits
  exact lt_irrefl _ someDigits

/-- Below a power of ten, numbers of one figure are a tenth away. -/
private theorem one_figure_below_power {digits : Nat} {exponent coarser : Int} (few : digits < 10)
    (finer : exponent < coarser) : (10 * (digits * 10 ^ exponent) : ℚ) ≤ 9 * 10 ^ coarser := by
  have cast : (digits : ℚ) ≤ 9 := by exact_mod_cast Nat.le_of_lt_succ few
  calc (10 * (digits * 10 ^ exponent) : ℚ)
    _ = digits * 10 ^ (exponent + 1) := by
        rw [zpow_add_one₀ (by norm_num)]
        ring
    _ ≤ 9 * 10 ^ (exponent + 1) := mul_le_mul_of_nonneg_right cast (by positivity)
    _ ≤ 9 * 10 ^ coarser := by
        have ascends : (10 : ℚ) ^ (exponent + 1) ≤ 10 ^ coarser :=
          zpow_le_zpow_right₀ (by norm_num) (by omega)
        linarith

/-- No number that is read back and has no more figures is nearer. -/
theorem Coarsest.nearest_of_hasFigures (coarsest : format.Coarsest rank decimal)
    (significands : 10 ≤ format.binade) (sparse : format.Sparse) (positive : 0 < rank)
    (finite : rank < format.topRank) (read : format.IsNearest number rank)
    (figures : HasFigures (Nat.log 10 decimal.digits + 1) number) :
    |decimal.value - format.value rank| ≤ |number - format.value rank| := by
  obtain ⟨digits, exponent, few, rfl⟩ := figures
  rcases (coarsest.coarsest digits exponent read).lt_or_eq with finer | rfl
  · have leading := Nat.pow_log_le_self 10 (coarsest.digits_pos positive).ne'
    have below : (digits * 10 ^ exponent : ℚ) <
        10 ^ (decimal.exponent - 1 + (Nat.log 10 decimal.digits + 1 : Nat)) :=
      lt_power_of_figures few (by omega)
    have shifted : decimal.exponent - 1 + (Nat.log 10 decimal.digits + 1 : Nat) =
        decimal.exponent + Nat.log 10 decimal.digits := by omega
    rw [shifted] at below
    obtain ⟨zero, power⟩ := coarsest.places_eq_zero read below.le leading
    rw [zero] at few
    have tenth := one_figure_below_power few finer
    have near := power_near_value significands sparse positive finite power
    have powerNearest := coarsest.nearest 1 (by simpa using power)
    rw [Nat.cast_one, one_mul] at powerNearest
    refine powerNearest.trans ?_
    generalize (10 : ℚ) ^ decimal.exponent = ten at *
    generalize (digits * 10 ^ exponent : ℚ) = other at *
    have tenPos : 0 < ten := power.pos_of_pos positive
    rw [abs_of_nonpos (show other - format.value rank ≤ 0 by linarith)]
    exact abs_le.mpr ⟨by linarith, by linarith⟩
  · exact coarsest.nearest digits read

/-- The shortest decimal of a magnitude has the fewest figures of all that are read back, and
none with as many is nearer. -/
theorem shortest_fewest_figures (ample : format.Ample) (significands : 10 ≤ format.binade)
    (sparse : format.Sparse) (positive : 0 < rank) (finite : rank < format.topRank) :
    ∃ count, HasFigures count (format.shortest rank).value ∧
      ∀ number others, format.IsNearest number rank → HasFigures others number →
        count ≤ others ∧ (others = count →
          |(format.shortest rank).value - format.value rank| ≤ |number - format.value rank|) := by
  have coarsest := shortest_coarsest ample positive finite
  refine ⟨Nat.log 10 (format.shortest rank).digits + 1,
    ⟨_, _, Nat.lt_pow_succ_log_self (by omega) _, rfl⟩, fun number others read figures => ?_⟩
  refine ⟨coarsest.log_lt_of_hasFigures positive read figures, ?_⟩
  rintro rfl
  exact coarsest.nearest_of_hasFigures significands sparse positive finite read figures

end BinaryFormat

end WordTape
