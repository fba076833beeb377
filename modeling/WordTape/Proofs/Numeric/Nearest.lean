import Mathlib.Algebra.Order.Field.Rat
import Mathlib.Algebra.Order.Ring.Abs
import Mathlib.Tactic.FieldSimp
import Mathlib.Tactic.Positivity
import WordTape.Proofs.Numeric.Rounding

/-!
# The nearest magnitude

The magnitudes of a format are rational numbers that ascend with their ranks. Halfway
between two neighbours is a threshold, and the magnitude nearest to a number is the one
whose thresholds the number lies between. At a threshold the even neighbour is taken.
-/

set_option autoImplicit false

namespace WordTape.BinaryFormat

/-! ## Magnitudes and thresholds -/

section

variable {format : BinaryFormat} {significand exponent : Nat}

theorem Normal.units_succ (normal : format.Normal significand exponent) :
    format.units (exponent * format.binade + (significand + 1)) =
      (significand + 1) * 2 ^ exponent := by
  obtain ⟨below, full⟩ := normal
  by_cases last : significand + 1 < 2 * format.binade
  · have next : format.Normal (significand + 1) exponent :=
      ⟨last, full.imp_left fun full => by omega⟩
    exact next.units_eq
  · have carry : significand + 1 = 2 * format.binade := by omega
    have next : format.Normal format.binade (exponent + 1) :=
      ⟨by have := format.binade_pos; omega, .inl (Nat.le_refl _)⟩
    have rank : exponent * format.binade + 2 * format.binade =
        (exponent + 1) * format.binade + format.binade := by ring
    rw [carry, rank, next.units_eq]
    ring

theorem units_lt_units_succ (format : BinaryFormat) (rank : Nat) :
    format.units rank < format.units (rank + 1) := by
  obtain ⟨significand, exponent, normal, rfl⟩ := format.exists_normal rank
  rw [Nat.add_assoc, normal.units_succ, normal.units_eq]
  exact Nat.mul_lt_mul_of_pos_right (Nat.lt_succ_self _) (Nat.two_pow_pos exponent)

end

variable (format : BinaryFormat)

theorem units_strictMono : StrictMono format.units :=
  strictMono_nat_of_lt_succ format.units_lt_units_succ

/-- The magnitude of a rank. That of the top rank is the power of two which stands for
infinity. -/
def value (rank : Nat) : ℚ :=
  format.units rank / 2 ^ format.unitExponent

theorem value_strictMono : StrictMono format.value := by
  intro lower upper below
  have ascending : (format.units lower : ℚ) < format.units upper :=
    Nat.cast_lt.mpr (format.units_strictMono below)
  exact div_lt_div_of_pos_right ascending (by positivity)

theorem units_zero : format.units 0 = 0 :=
  if_pos format.binade_pos

theorem value_zero : format.value 0 = 0 := by
  rw [value, units_zero, Nat.cast_zero, zero_div]

theorem value_nonneg (rank : Nat) : 0 ≤ format.value rank := by
  rw [value]
  positivity

/-- The number halfway between the magnitude of a rank and the next one. -/
def threshold (rank : Nat) : ℚ :=
  (format.value rank + format.value (rank + 1)) / 2

theorem value_lt_threshold (rank : Nat) : format.value rank < format.threshold rank := by
  have ascending := format.value_strictMono (Nat.lt_succ_self rank)
  rw [threshold]
  linarith

theorem threshold_lt_value_succ (rank : Nat) :
    format.threshold rank < format.value (rank + 1) := by
  have ascending := format.value_strictMono (Nat.lt_succ_self rank)
  rw [threshold]
  linarith

theorem threshold_strictMono : StrictMono format.threshold :=
  strictMono_nat_of_lt_succ fun rank =>
    (format.threshold_lt_value_succ rank).trans (format.value_lt_threshold (rank + 1))

/-- A number is rounded to a greater magnitude than that of the rank: it lies beyond the
threshold above the rank, or at it and the rank is odd. -/
def RoundsAbove (number : ℚ) (rank : Nat) : Prop :=
  format.threshold rank < number ∨ format.threshold rank = number ∧ rank % 2 = 1

/-- The magnitude of the rank is the nearest one to a number; if another one is as near,
the rank is even. -/
structure IsNearest (number : ℚ) (rank : Nat) : Prop where
  bounded : rank ≤ format.topRank
  nearest : ∀ other ≤ format.topRank,
    |number - format.value rank| ≤ |number - format.value other|
  even : ∀ other ≤ format.topRank, other ≠ rank →
    |number - format.value rank| = |number - format.value other| → rank % 2 = 0

variable {format} {number lower upper : ℚ} {rank other : Nat}

theorem RoundsAbove.threshold_le (above : format.RoundsAbove number rank) :
    format.threshold rank ≤ number :=
  above.elim le_of_lt fun tie => tie.1.le

theorem RoundsAbove.mono (above : format.RoundsAbove lower rank) (ascends : lower ≤ upper) :
    format.RoundsAbove upper rank := by
  rcases ascends.lt_or_eq with less | rfl
  · exact .inl (above.threshold_le.trans_lt less)
  · exact above

theorem RoundsAbove.anti (above : format.RoundsAbove number rank) (below : other ≤ rank) :
    format.RoundsAbove number other := by
  rcases below.lt_or_eq with less | rfl
  · exact .inl ((format.threshold_strictMono less).trans_le above.threshold_le)
  · exact above

/-! ## Nearness by thresholds -/

theorem abs_sub_le_iff_le_half (less : lower < upper) :
    |number - lower| ≤ |number - upper| ↔ number ≤ (lower + upper) / 2 := by
  rw [← sq_le_sq]
  constructor <;> intro near <;> nlinarith

theorem abs_sub_le_iff_half_le (less : lower < upper) :
    |number - upper| ≤ |number - lower| ↔ (lower + upper) / 2 ≤ number := by
  rw [← sq_le_sq]
  constructor <;> intro near <;> nlinarith

theorem abs_sub_eq_iff_eq_half (less : lower < upper) :
    |number - lower| = |number - upper| ↔ number = (lower + upper) / 2 := by
  rw [le_antisymm_iff, le_antisymm_iff, abs_sub_le_iff_le_half less,
    abs_sub_le_iff_half_le less]

theorem IsNearest.not_roundsAbove (nearest : format.IsNearest number rank)
    (below : rank < format.topRank) : ¬format.RoundsAbove number rank := by
  have ascending := format.value_strictMono (Nat.lt_succ_self rank)
  intro above
  have within : number ≤ format.threshold rank :=
    (abs_sub_le_iff_le_half ascending).mp (nearest.nearest (rank + 1) below)
  rcases above with beyond | ⟨tie, odd⟩
  · exact absurd within (not_le_of_gt beyond)
  · have equal := (abs_sub_eq_iff_eq_half ascending).mpr tie.symm
    have even := nearest.even (rank + 1) below (by omega) equal
    omega

theorem IsNearest.roundsAbove (nearest : format.IsNearest number (rank + 1)) :
    format.RoundsAbove number rank := by
  have bounded := nearest.bounded
  have ascending := format.value_strictMono (Nat.lt_succ_self rank)
  have within : format.threshold rank ≤ number :=
    (abs_sub_le_iff_half_le ascending).mp (nearest.nearest rank (by omega))
  rcases within.lt_or_eq with beyond | tie
  · exact .inl beyond
  · have equal := (abs_sub_eq_iff_eq_half ascending).mpr tie.symm
    have even := nearest.even rank (by omega) (by omega) equal.symm
    exact .inr ⟨tie, by omega⟩

/-- No greater magnitude is nearer to a number that is not rounded above the rank. -/
theorem near_of_not_roundsAbove (within : ¬format.RoundsAbove number rank)
    (greater : rank < other) :
    |number - format.value rank| ≤ |number - format.value other| ∧
      (|number - format.value rank| = |number - format.value other| → rank % 2 = 0) := by
  have ascending := format.value_strictMono greater
  have reach := format.value_strictMono.monotone (show rank + 1 ≤ other from greater)
  have least : number ≤ format.threshold rank := not_lt.mp fun less => within (.inl less)
  have half : format.threshold rank ≤ (format.value rank + format.value other) / 2 := by
    rw [threshold]
    linarith
  refine ⟨(abs_sub_le_iff_le_half ascending).mpr (least.trans half), fun equal => ?_⟩
  have tie := (abs_sub_eq_iff_eq_half ascending).mp equal
  have atThreshold : format.threshold rank = number := le_antisymm (by linarith) least
  by_contra odd
  exact within (.inr ⟨atThreshold, by omega⟩)

/-- No magnitude of the rank or a smaller one is nearer to a number that is rounded above it
than the next one is. -/
theorem near_of_roundsAbove (above : format.RoundsAbove number rank) (less : other ≤ rank) :
    |number - format.value (rank + 1)| ≤ |number - format.value other| ∧
      (|number - format.value (rank + 1)| = |number - format.value other| →
        (rank + 1) % 2 = 0) := by
  have ascending := format.value_strictMono (Nat.lt_succ_of_le less)
  have reach := format.value_strictMono.monotone less
  have half : (format.value other + format.value (rank + 1)) / 2 ≤ format.threshold rank := by
    rw [threshold]
    linarith
  refine ⟨(abs_sub_le_iff_half_le ascending).mpr (half.trans above.threshold_le),
    fun equal => ?_⟩
  have tie := (abs_sub_eq_iff_eq_half ascending).mp equal.symm
  rcases above with greater | ⟨_, odd⟩
  · exact absurd (tie ▸ half) (not_le_of_gt greater)
  · omega

/-- Whether a magnitude is the nearest one is decided at the thresholds beside it. -/
theorem isNearest_iff : format.IsNearest number rank ↔
    rank ≤ format.topRank ∧ (rank < format.topRank → ¬format.RoundsAbove number rank) ∧
      ∀ below, rank = below + 1 → format.RoundsAbove number below := by
  constructor
  · intro nearest
    refine ⟨nearest.bounded, nearest.not_roundsAbove, ?_⟩
    rintro below rfl
    exact nearest.roundsAbove
  · rintro ⟨bounded, within, beyond⟩
    have near : ∀ other ≤ format.topRank, other ≠ rank →
        |number - format.value rank| ≤ |number - format.value other| ∧
          (|number - format.value rank| = |number - format.value other| → rank % 2 = 0) := by
      intro other otherBounded different
      rcases Nat.lt_or_gt_of_ne different with less | greater
      · obtain ⟨below, rfl⟩ := Nat.exists_eq_succ_of_ne_zero (Nat.ne_zero_of_lt less)
        exact near_of_roundsAbove (beyond below rfl) (Nat.lt_succ_iff.mp less)
      · exact near_of_not_roundsAbove (within (by omega)) greater
    refine ⟨bounded, fun other otherBounded => ?_, fun other otherBounded different =>
      (near other otherBounded different).2⟩
    rcases eq_or_ne other rank with rfl | different
    · exact le_rfl
    · exact (near other otherBounded different).1

theorem isNearest_value (bounded : rank ≤ format.topRank) :
    format.IsNearest (format.value rank) rank := by
  refine ⟨bounded, fun other _ => ?_, fun other _ different equal => ?_⟩
  · rw [sub_self, abs_zero]
    exact abs_nonneg _
  · rw [sub_self, abs_zero] at equal
    have same := sub_eq_zero.mp (abs_eq_zero.mp equal.symm)
    exact absurd (format.value_strictMono.injective same).symm different

/-- Rounding ascends. -/
theorem IsNearest.le (nearest : format.IsNearest lower rank)
    (otherNearest : format.IsNearest upper other) (ascends : lower ≤ upper) : rank ≤ other := by
  have bounded := nearest.bounded
  by_contra less
  obtain ⟨below, rfl⟩ := Nat.exists_eq_succ_of_ne_zero (Nat.ne_zero_of_lt (not_le.mp less))
  have above : format.RoundsAbove upper other :=
    (nearest.roundsAbove.mono ascends).anti (by omega)
  exact otherNearest.not_roundsAbove (by omega) above

theorem IsNearest.unique (nearest : format.IsNearest number rank)
    (otherNearest : format.IsNearest number other) : rank = other :=
  le_antisymm (nearest.le otherNearest le_rfl) (otherNearest.le nearest le_rfl)

/-- What lies between two numbers with the same nearest magnitude has it, too. -/
theorem IsNearest.between (nearest : format.IsNearest lower rank)
    (upperNearest : format.IsNearest upper rank) (fromLower : lower ≤ number)
    (toUpper : number ≤ upper) : format.IsNearest number rank := by
  rw [isNearest_iff] at nearest upperNearest ⊢
  obtain ⟨bounded, -, beyond⟩ := nearest
  obtain ⟨-, within, -⟩ := upperNearest
  exact ⟨bounded, fun below above => within below (above.mono toUpper),
    fun below isRank => (beyond below isRank).mono fromLower⟩

/-- A rank that is right without regard to the top is right after the cut. -/
theorem isNearest_min (within : ¬format.RoundsAbove number rank)
    (beyond : ∀ below, rank = below + 1 → format.RoundsAbove number below) :
    format.IsNearest number (min format.topRank rank) := by
  rw [isNearest_iff]
  rcases Nat.le_total rank format.topRank with bounded | past
  · rw [Nat.min_eq_right bounded]
    exact ⟨bounded, fun _ => within, beyond⟩
  · rw [Nat.min_eq_left past]
    refine ⟨le_rfl, fun less => absurd less (Nat.lt_irrefl _), fun below isTop => ?_⟩
    obtain ⟨most, rfl⟩ := Nat.exists_eq_succ_of_ne_zero (show rank ≠ 0 by omega)
    exact (beyond most rfl).anti (by omega)

end WordTape.BinaryFormat

namespace WordTape

/-! ## Signs -/

def signed (negative : Bool) (magnitude : ℚ) : ℚ :=
  if negative then -magnitude else magnitude

theorem abs_signed (negative : Bool) (magnitude : ℚ) :
    |signed negative magnitude| = |magnitude| := by
  cases negative with
  | false => rfl
  | true => exact abs_neg magnitude

theorem abs_signed_sub_signed (negative : Bool) (left right : ℚ) :
    |signed negative left - signed negative right| = |left - right| := by
  cases negative with
  | false => rfl
  | true => exact (abs_sub_comm _ _).trans (congrArg abs (by simp only [signed, ↓reduceIte]; ring))

/-- Numbers of different signs are as far from each other as their magnitudes together. -/
theorem abs_signed_sub_signed_of_ne {negative otherNegative : Bool}
    (different : negative ≠ otherNegative) {left right : ℚ} (leftNonneg : 0 ≤ left)
    (rightNonneg : 0 ≤ right) :
    |signed negative left - signed otherNegative right| = left + right := by
  cases negative with
  | false =>
      cases otherNegative with
      | false => exact absurd rfl different
      | true =>
          simp only [signed, Bool.false_eq_true, ↓reduceIte, sub_neg_eq_add]
          exact abs_of_nonneg (add_nonneg leftNonneg rightNonneg)
  | true =>
      cases otherNegative with
      | true => exact absurd rfl different
      | false =>
          simp only [signed, Bool.false_eq_true, ↓reduceIte]
          rw [← neg_add', abs_neg]
          exact abs_of_nonneg (add_nonneg leftNonneg rightNonneg)

/-- A signed magnitude is nearest to a number; if another one is as near, its rank is even. -/
structure BinaryFormat.IsNearestSigned (format : BinaryFormat) (number : ℚ) (negative : Bool)
    (rank : Nat) : Prop where
  bounded : rank ≤ format.topRank
  nearest : ∀ otherNegative, ∀ other ≤ format.topRank,
    |number - signed negative (format.value rank)| ≤
      |number - signed otherNegative (format.value other)|
  even : ∀ otherNegative, ∀ other ≤ format.topRank,
    signed otherNegative (format.value other) ≠ signed negative (format.value rank) →
    |number - signed negative (format.value rank)| =
      |number - signed otherNegative (format.value other)| → rank % 2 = 0

/-- Of the signed magnitudes the nearest to a number is the nearest one with its sign. -/
theorem BinaryFormat.IsNearest.withSign {format : BinaryFormat} {magnitude : ℚ} {rank : Nat}
    (nearest : format.IsNearest magnitude rank) (nonnegative : 0 ≤ magnitude) (negative : Bool) :
    format.IsNearestSigned (signed negative magnitude) negative rank := by
  have zeroNear := nearest.nearest 0 (Nat.zero_le _)
  rw [format.value_zero, sub_zero, abs_of_nonneg nonnegative] at zeroNear
  have own := abs_signed_sub_signed negative magnitude (format.value rank)
  refine ⟨nearest.bounded, fun otherNegative other bounded => ?_,
    fun otherNegative other bounded different equal => ?_⟩
  · rw [own]
    by_cases sign : negative = otherNegative
    · rw [sign, abs_signed_sub_signed]
      exact nearest.nearest other bounded
    · rw [abs_signed_sub_signed_of_ne sign nonnegative (format.value_nonneg other)]
      exact zeroNear.trans (le_add_of_nonneg_right (format.value_nonneg other))
  · rw [own] at equal
    by_cases sign : negative = otherNegative
    · rw [sign, abs_signed_sub_signed] at equal
      refine nearest.even other bounded (fun same => different ?_) equal
      rw [sign, same]
    · -- across zero only zero itself can be as near
      rw [abs_signed_sub_signed_of_ne sign nonnegative (format.value_nonneg other)] at equal
      have nothing : format.value other = 0 :=
        le_antisymm (by linarith) (format.value_nonneg other)
      by_cases zero : rank = 0
      · rw [zero]
      · refine nearest.even 0 (Nat.zero_le _) (Ne.symm zero) ?_
        rw [equal, nothing, format.value_zero, sub_zero, add_zero, abs_of_nonneg nonnegative]

end WordTape
