import WordTape.Proofs.Numeric.CorrectRounding
import WordTape.Proofs.Numeric.Shortest

/-!
# The coarsest grid

The numbers that are rounded to a magnitude lie around it without a gap. So if any point of
a decimal grid is read back as the magnitude, one of the two points beside the magnitude is,
and the search, which tries these on coarser grids first, ends on the coarsest grid that has
such a point, at one that is nearest to the magnitude.
-/

set_option autoImplicit false

namespace WordTape

/-- The number that a decimal stands for. -/
def ScaledDecimal.value (decimal : ScaledDecimal) : ℚ :=
  decimal.digits * 10 ^ decimal.exponent

private theorem roundHalfEven_cases (numerator denominator : Nat) :
    roundHalfEven numerator denominator = numerator / denominator ∨
      roundHalfEven numerator denominator = numerator / denominator + 1 := by
  simp only [roundHalfEven]
  split
  · exact .inl rfl
  · split
    · exact .inr rfl
    · omega

/-- No natural number is nearer to a quotient than the one it is rounded to. -/
private theorem abs_roundHalfEven_sub_le {denominator : Nat} (positive : 0 < denominator)
    (numerator other : Nat) :
    |(roundHalfEven numerator denominator : ℚ) - numerator / denominator| ≤
      |(other : ℚ) - numerator / denominator| := by
  obtain ⟨upper, lower, -, -⟩ := roundHalfEven_spec positive numerator
  generalize roundHalfEven numerator denominator = rounded at *
  have unit : (0 : ℚ) < denominator := Nat.cast_pos.mpr positive
  have upperCast : 2 * (numerator : ℚ) ≤ (2 * rounded + 1) * denominator := by
    exact_mod_cast upper
  have lowerCast : 2 * (rounded : ℚ) * denominator ≤ 2 * numerator + denominator := by
    exact_mod_cast lower
  have quotient : (numerator : ℚ) / denominator * denominator = numerator :=
    div_mul_cancel₀ _ unit.ne'
  generalize (numerator : ℚ) / denominator = exact at *
  have above : exact ≤ rounded + 1 / 2 := by nlinarith
  have below : rounded - 1 / 2 ≤ exact := by nlinarith
  have half : |(rounded : ℚ) - exact| ≤ 1 / 2 := abs_le.mpr ⟨by linarith, by linarith⟩
  rcases Nat.lt_trichotomy other rounded with less | rfl | greater
  · have step : (other : ℚ) + 1 ≤ rounded := by exact_mod_cast less
    exact half.trans (le_abs.mpr (.inr (by linarith)))
  · exact le_rfl
  · have step : (rounded : ℚ) + 1 ≤ other := by exact_mod_cast greater
    exact half.trans (le_abs.mpr (.inl (by linarith)))

namespace BinaryFormat

variable {format : BinaryFormat} {rank : Nat}

/-! ## The points of a grid -/

/-- The magnitude of a rank as a multiple of a power of ten. -/
theorem value_eq_grid (rank : Nat) (exponent : Int) :
    format.value rank =
      (format.units rank * 10 ^ (-exponent).toNat : Nat) /
        (2 ^ format.unitExponent * 10 ^ exponent.toNat : Nat) * 10 ^ exponent := by
  have tens : (10 : ℚ) ^ exponent * 10 ^ (-exponent).toNat = 10 ^ exponent.toNat := by
    rw [← zpow_natCast, ← zpow_natCast, ← zpow_add₀ (by norm_num)]
    congr 1
    omega
  rw [value]
  push_cast
  rw [← tens]
  field_simp

/-- The points of a grid on the two sides of a magnitude, and which of them is nearer. -/
structure Beside (format : BinaryFormat) (rank : Nat) (exponent : Int) (nearer farther : Nat) :
    Prop where
  sides : ∃ lower : Nat,
    (nearer = lower ∧ farther = lower + 1 ∨ nearer = lower + 1 ∧ farther = lower) ∧
      (lower * 10 ^ exponent : ℚ) ≤ format.value rank ∧
      format.value rank ≤ (lower + 1 : Nat) * 10 ^ exponent
  nearest : ∀ other : Nat, |(nearer * 10 ^ exponent : ℚ) - format.value rank| ≤
    |(other * 10 ^ exponent : ℚ) - format.value rank|

private theorem exists_beside (rank : Nat) (exponent : Int) :
    ∃ nearer farther, format.Beside rank exponent nearer farther ∧
      format.gridPoint? rank exponent =
        if format.rankOfDecimal nearer exponent = rank then some nearer
        else if format.rankOfDecimal farther exponent = rank then some farther else none := by
  have grid : (0 : ℚ) < 10 ^ exponent := by positivity
  have isPoint : format.gridPoint? rank exponent = format.gridPoint? rank exponent := rfl
  conv_rhs at isPoint => unfold gridPoint?
  extract_lets numerator denominator nearer farther at isPoint
  have point : format.value rank = (numerator : ℚ) / denominator * 10 ^ exponent :=
    format.value_eq_grid rank exponent
  have positive : 0 < denominator := Nat.mul_pos (Nat.two_pow_pos _) (Nat.pow_pos (by omega))
  clear_value numerator denominator
  have unit : (0 : ℚ) < denominator := Nat.cast_pos.mpr positive
  have distance (digits : Nat) : |(digits * 10 ^ exponent : ℚ) - format.value rank| =
      |(digits : ℚ) - numerator / denominator| * 10 ^ exponent := by
    rw [point, ← sub_mul, abs_mul, abs_of_pos grid]
  refine ⟨nearer, farther, ⟨⟨numerator / denominator, ?_, ?_, ?_⟩, fun other => ?_⟩, isPoint⟩
  · simp only [farther]
    rcases roundHalfEven_cases numerator denominator with lower | upper
    · exact .inl ⟨lower, (if_pos lower).trans (congrArg (· + 1) lower)⟩
    · have notLower : nearer ≠ numerator / denominator := by omega
      exact .inr ⟨upper, (if_neg notLower).trans (congrArg (· - 1) upper)⟩
  · rw [point]
    refine mul_le_mul_of_nonneg_right ?_ grid.le
    rw [le_div_iff₀ unit]
    exact_mod_cast Nat.div_mul_le_self numerator denominator
  · rw [point]
    refine mul_le_mul_of_nonneg_right ?_ grid.le
    rw [div_le_iff₀ unit]
    exact_mod_cast (Nat.mul_comm denominator _ ▸ Nat.lt_mul_div_succ numerator positive).le
  · rw [distance, distance]
    exact mul_le_mul_of_nonneg_right (abs_roundHalfEven_sub_le positive numerator other) grid.le

variable {exponent : Int} {lower digits : Nat}

section

variable (bounded : rank ≤ format.topRank)
  (read : format.IsNearest (digits * 10 ^ exponent) rank)

include bounded read

/-- A point that is read back from below the magnitude passes this on to the last one there. -/
theorem readsBack_of_le (below : (lower * 10 ^ exponent : ℚ) ≤ format.value rank)
    (within : digits ≤ lower) : format.IsNearest (lower * 10 ^ exponent) rank := by
  have ascends : (digits * 10 ^ exponent : ℚ) ≤ lower * 10 ^ exponent := by gcongr
  exact read.between (isNearest_value bounded) ascends below

theorem readsBack_of_lt (above : format.value rank ≤ (lower + 1 : Nat) * 10 ^ exponent)
    (beyond : lower < digits) : format.IsNearest ((lower + 1 : Nat) * 10 ^ exponent) rank := by
  have step : lower + 1 ≤ digits := beyond
  have ascends : ((lower + 1 : Nat) * 10 ^ exponent : ℚ) ≤ digits * 10 ^ exponent := by gcongr
  exact (isNearest_value bounded).between read above ascends

variable {nearer farther : Nat} (beside : format.Beside rank exponent nearer farther)

include beside

/-- If a point of the grid is read back, one beside the magnitude is. -/
theorem Beside.readsBack : format.IsNearest (nearer * 10 ^ exponent) rank ∨
    format.IsNearest (farther * 10 ^ exponent) rank := by
  obtain ⟨⟨lower, sides, below, above⟩, -⟩ := beside
  rcases Nat.lt_or_ge lower digits with beyond | within
  · have upperReads := readsBack_of_lt bounded read above beyond
    rcases sides with ⟨rfl, rfl⟩ | ⟨rfl, rfl⟩
    · exact .inr upperReads
    · exact .inl upperReads
  · have lowerReads := readsBack_of_le bounded read below within
    rcases sides with ⟨rfl, rfl⟩ | ⟨rfl, rfl⟩
    · exact .inl lowerReads
    · exact .inr lowerReads

/-- If the nearer point is not read back, none that is lies nearer than the farther one. -/
theorem Beside.farther_nearest (fails : ¬format.IsNearest (nearer * 10 ^ exponent) rank) :
    |(farther * 10 ^ exponent : ℚ) - format.value rank| ≤
      |(digits * 10 ^ exponent : ℚ) - format.value rank| := by
  have grid : (0 : ℚ) < 10 ^ exponent := by positivity
  obtain ⟨⟨lower, sides, below, above⟩, -⟩ := beside
  rcases sides with ⟨rfl, rfl⟩ | ⟨rfl, rfl⟩
  · have beyond : nearer < digits :=
      not_le.mp fun within => fails (readsBack_of_le bounded read below within)
    have step : nearer + 1 ≤ digits := beyond
    have ascends : ((nearer + 1 : Nat) * 10 ^ exponent : ℚ) ≤ digits * 10 ^ exponent := by gcongr
    rw [abs_of_nonneg (by linarith), abs_of_nonneg (by linarith)]
    linarith
  · have within : digits ≤ farther :=
      not_lt.mp fun beyond => fails (readsBack_of_lt bounded read above beyond)
    have ascends : (digits * 10 ^ exponent : ℚ) ≤ farther * 10 ^ exponent := by gcongr
    rw [abs_of_nonpos (by linarith), abs_of_nonpos (by linarith)]
    linarith

end

/-- What the search finds on a grid: nothing, if no point of it is read back, and else a
nearest one of those that are. -/
theorem gridPoint?_spec (ample : format.Ample) (bounded : rank ≤ format.topRank)
    (exponent : Int) :
    match format.gridPoint? rank exponent with
    | none => ∀ digits : Nat, ¬format.IsNearest (digits * 10 ^ exponent) rank
    | some found => format.IsNearest (found * 10 ^ exponent) rank ∧
        ∀ digits : Nat, format.IsNearest (digits * 10 ^ exponent) rank →
          |(found * 10 ^ exponent : ℚ) - format.value rank| ≤
            |(digits * 10 ^ exponent : ℚ) - format.value rank| := by
  obtain ⟨nearer, farther, beside, isPoint⟩ := format.exists_beside rank exponent
  have reads (digits : Nat) : format.rankOfDecimal digits exponent = rank ↔
      format.IsNearest (digits * 10 ^ exponent) rank := rankOfDecimal_eq_iff ample
  rw [isPoint]
  by_cases nearerReads : format.rankOfDecimal nearer exponent = rank
  · rw [if_pos nearerReads]
    exact ⟨(reads nearer).mp nearerReads, fun digits _ => beside.nearest digits⟩
  · have fails := mt (reads nearer).mpr nearerReads
    rw [if_neg nearerReads]
    by_cases fartherReads : format.rankOfDecimal farther exponent = rank
    · rw [if_pos fartherReads]
      exact ⟨(reads farther).mp fartherReads,
        fun digits read => beside.farther_nearest bounded read fails⟩
    · rw [if_neg fartherReads]
      intro digits read
      exact (beside.readsBack bounded read).elim fails (mt (reads farther).mpr fartherReads)

/-! ## The search -/

/-- A decimal that is read back, on the coarsest grid with a point that is, and as near to
the magnitude as any such point. -/
structure Coarsest (format : BinaryFormat) (rank : Nat) (decimal : ScaledDecimal) : Prop where
  readsBack : format.IsNearest decimal.value rank
  coarsest : ∀ (digits : Nat) (exponent : Int),
    format.IsNearest (digits * 10 ^ exponent) rank → exponent ≤ decimal.exponent
  nearest : ∀ digits : Nat, format.IsNearest (digits * 10 ^ decimal.exponent) rank →
    |decimal.value - format.value rank| ≤
      |(digits * 10 ^ decimal.exponent : ℚ) - format.value rank|

private theorem value_finest (rank : Nat) :
    (format.units rank * Nat.pow 5 format.unitExponent : Nat) *
      (10 : ℚ) ^ (-(format.unitExponent : Int)) = format.value rank := by
  have fives : (Nat.pow 5 format.unitExponent : ℚ) = 5 ^ format.unitExponent :=
    Nat.cast_pow 5 format.unitExponent
  have tens : (10 : ℚ) ^ format.unitExponent = 5 ^ format.unitExponent * 2 ^ format.unitExponent :=
    by rw [← mul_pow]; norm_num
  rw [value, zpow_neg, zpow_natCast, Nat.cast_mul, fives, tens]
  field_simp

/-- The search finds the coarsest of the grids that it goes down from. -/
theorem shortestFrom_coarsest (ample : format.Ample) (bounded : rank ≤ format.topRank) (grid : Nat)
    (limited : ∀ (digits : Nat) (exponent : Int),
      format.IsNearest (digits * 10 ^ exponent) rank →
        exponent ≤ (grid : Int) - format.unitExponent) :
    format.Coarsest rank (format.shortestFrom rank grid) := by
  fun_induction shortestFrom format rank grid with
  | case1 =>
      have exact : ScaledDecimal.value
          { digits := format.units rank * Nat.pow 5 format.unitExponent
            exponent := -(format.unitExponent : Int) } = format.value rank := value_finest rank
      refine ⟨exact ▸ isNearest_value bounded, fun digits exponent read => ?_,
        fun digits _ => ?_⟩
      · simpa using limited digits exponent read
      · rw [exact, sub_self, abs_zero]
        exact abs_nonneg _
  | case2 grid exponent digits found =>
      have spec := gridPoint?_spec ample bounded exponent
      rw [found] at spec
      exact ⟨spec.1, limited, spec.2⟩
  | case3 grid exponent none ih =>
      have spec := gridPoint?_spec ample bounded exponent
      rw [none] at spec
      apply ih
      intro digits other read
      have within := limited digits other read
      have different : other ≠ exponent := by
        rintro rfl
        exact spec digits read
      omega

/-! ## Where the search starts -/

/-- Neighbouring magnitudes are close together, unless they are among the least. -/
theorem units_succ_le {count : Nat} (inRank : count ≤ rank) (inBinade : count ≤ format.binade) :
    count * format.units (rank + 1) ≤ (count + 1) * format.units rank := by
  obtain ⟨significand, exponent, normal, rfl⟩ := format.exists_normal rank
  have enough : count ≤ significand := by
    rcases normal.full with full | least
    · exact inBinade.trans full
    · rw [least, Nat.zero_mul, Nat.zero_add] at inRank
      exact inRank
  rw [Nat.add_assoc, normal.units_succ, normal.units_eq, ← Nat.mul_assoc, ← Nat.mul_assoc]
  refine Nat.mul_le_mul_right _ ?_
  rw [Nat.mul_succ, Nat.succ_mul]
  exact Nat.add_le_add_left enough _

theorem value_succ_le {count : Nat} (inRank : count ≤ rank) (inBinade : count ≤ format.binade) :
    count * format.value (rank + 1) ≤ (count + 1) * format.value rank := by
  have units : (count * format.units (rank + 1) : ℚ) ≤ (count + 1) * format.units rank := by
    exact_mod_cast units_succ_le inRank inBinade
  rw [value, value, ← mul_div_assoc, ← mul_div_assoc]
  exact div_le_div_of_nonneg_right units (by positivity)

variable {number : ℚ}

/-- Only numbers up to the threshold are rounded to a finite magnitude. -/
theorem IsNearest.le_threshold (nearest : format.IsNearest number rank)
    (finite : rank < format.topRank) : number ≤ format.threshold rank :=
  not_lt.mp fun less => nearest.not_roundsAbove finite (.inl less)

theorem IsNearest.pos_of_pos (nearest : format.IsNearest number rank) (positive : 0 < rank) :
    0 < number := by
  by_contra nonpositive
  have least := nearest.le isNearest_zero (not_lt.mp nonpositive)
  omega

/-- The search starts from a power of ten above the magnitude. -/
private theorem value_lt_start (rank : Nat) : format.value rank <
    10 ^ ((format.units rank / Nat.pow 2 format.unitExponent).log2 / 3 + 1) := by
  have positive : 0 < 2 ^ format.unitExponent := Nat.two_pow_pos _
  have whole : format.units rank <
      2 ^ format.unitExponent * (format.units rank / 2 ^ format.unitExponent + 1) :=
    Nat.lt_mul_div_succ _ positive
  show format.value rank < 10 ^ ((format.units rank / 2 ^ format.unitExponent).log2 / 3 + 1)
  generalize format.units rank / 2 ^ format.unitExponent = part at *
  have bits : part + 1 ≤ 10 ^ (part.log2 / 3 + 1) :=
    calc part + 1
      _ ≤ 2 ^ (part.log2 + 1) := Nat.lt_log2_self
      _ ≤ 2 ^ (3 * (part.log2 / 3 + 1)) := Nat.pow_le_pow_right Nat.two_pos (by omega)
      _ = 8 ^ (part.log2 / 3 + 1) := Nat.pow_mul 2 3 _
      _ ≤ 10 ^ (part.log2 / 3 + 1) := Nat.pow_le_pow_left (by omega) _
  rw [value, div_lt_iff₀ (by positivity), mul_comm]
  exact_mod_cast whole.trans_le (Nat.mul_le_mul_left _ bits)

/-- No point of a coarser grid than the one that the search starts from is read back. -/
theorem exponent_le_of_readsBack (positive : 0 < rank) (finite : rank < format.topRank)
    {digits : Nat} {exponent : Int} (read : format.IsNearest (digits * 10 ^ exponent) rank) :
    exponent ≤ ((format.units rank / Nat.pow 2 format.unitExponent).log2 / 3 + 1 : Nat) := by
  have start := format.value_lt_start rank
  generalize (format.units rank / Nat.pow 2 format.unitExponent).log2 / 3 + 1 = limit at *
  by_contra coarser
  have someDigits : (1 : ℚ) ≤ digits := by
    have nonzero : digits ≠ 0 := by
      rintro rfl
      simpa using read.pos_of_pos positive
    exact_mod_cast Nat.one_le_iff_ne_zero.mpr nonzero
  have doubled := @value_succ_le format rank 1 positive format.binade_pos
  rw [Nat.cast_one, one_mul] at doubled
  have within := read.le_threshold finite
  rw [threshold] at within
  have large : (10 : ℚ) ^ limit * 10 ≤ digits * 10 ^ exponent :=
    calc (10 : ℚ) ^ limit * 10
      _ = 10 ^ (((limit + 1 : Nat)) : Int) := by rw [zpow_natCast, pow_succ]
      _ ≤ 10 ^ exponent := zpow_le_zpow_right₀ (by norm_num) (by omega)
      _ ≤ digits * 10 ^ exponent := le_mul_of_one_le_left (by positivity) someDigits
  linarith [format.value_nonneg rank]

theorem shortest_coarsest (ample : format.Ample) (positive : 0 < rank)
    (finite : rank < format.topRank) : format.Coarsest rank (format.shortest rank) := by
  apply shortestFrom_coarsest ample finite.le
  intro digits exponent read
  have within := exponent_le_of_readsBack positive finite read
  omega

end BinaryFormat

end WordTape
