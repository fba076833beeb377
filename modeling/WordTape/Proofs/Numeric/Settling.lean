import WordTape.Proofs.Numeric.CorrectRounding
import WordTape.Proofs.Numeric.Datum

/-!
# A guess is settled

A literal that is rounded to eight bytes and then to four has been rounded twice, and so
may miss the nearest magnitude, but by one rank at most: every magnitude of four bytes is
one of eight, so that the first rounding does not pass over it. The exact distances then
settle on the nearest magnitude.
-/

set_option autoImplicit false

namespace WordTape

namespace DecimalLiteral

variable {format : BinaryFormat} (literal : DecimalLiteral)

/-- The number that a literal stands for, without its sign. -/
def magnitude : ℚ :=
  literal.significand * 10 ^ literal.scale

theorem rank_isNearest (ample : format.Ample) :
    format.IsNearest literal.magnitude (literal.rank format) :=
  BinaryFormat.rankOfDecimal_isNearest ample _ _

/-! ## Choosing the nearer one -/

private theorem abs_sub_natCast (left right : Nat) :
    |(left : ℚ) - right| = ((left - right + (right - left) : Nat) : ℚ) := by
  rcases Nat.le_total left right with below | above
  · rw [abs_of_nonpos (sub_nonpos.mpr (Nat.cast_le.mpr below)), Nat.sub_eq_zero_of_le below,
      Nat.zero_add, Nat.cast_sub below, neg_sub]
  · rw [abs_of_nonneg (sub_nonneg.mpr (Nat.cast_le.mpr above)), Nat.sub_eq_zero_of_le above,
      Nat.add_zero, Nat.cast_sub above]

/-- The distance of a rank is that of its magnitude, in a unit that all ranks share. -/
private theorem exists_unit : ∃ unit : ℚ, 0 < unit ∧
    ∀ rank, |literal.magnitude - format.value rank| * unit = literal.distance format rank := by
  refine ⟨2 ^ format.unitExponent * 10 ^ (-literal.scale).toNat, by positivity, fun rank => ?_⟩
  have tens : (10 : ℚ) ^ literal.scale * 10 ^ (-literal.scale).toNat =
      10 ^ literal.scale.toNat := by
    rw [← zpow_natCast, ← zpow_natCast, ← zpow_add₀ (by norm_num)]
    congr 1
    omega
  have exact : literal.magnitude * (2 ^ format.unitExponent * 10 ^ (-literal.scale).toNat) =
      (literal.significand * 10 ^ literal.scale.toNat * 2 ^ format.unitExponent : Nat) := by
    push_cast
    rw [magnitude, ← tens]
    ring
  have units : format.value rank * (2 ^ format.unitExponent * 10 ^ (-literal.scale).toNat) =
      (format.units rank * 10 ^ (-literal.scale).toNat : Nat) := by
    push_cast
    rw [BinaryFormat.value]
    field_simp
  rw [← abs_of_pos (show (0 : ℚ) < 2 ^ format.unitExponent * 10 ^ (-literal.scale).toNat by
    positivity), ← abs_mul, sub_mul, exact, units, abs_sub_natCast]
  rfl

theorem distance_le_iff {rank other : Nat} :
    literal.distance format rank ≤ literal.distance format other ↔
      |literal.magnitude - format.value rank| ≤ |literal.magnitude - format.value other| := by
  obtain ⟨unit, positive, scaled⟩ := literal.exists_unit
  rw [← Nat.cast_le (α := ℚ), ← scaled, ← scaled, mul_le_mul_iff_left₀ positive]

variable {literal} {rank other : Nat}

theorem distance_le (nearest : format.IsNearest literal.magnitude rank)
    (bounded : other ≤ format.topRank) :
    literal.distance format rank ≤ literal.distance format other :=
  literal.distance_le_iff.mpr (nearest.nearest other bounded)

/-- Of two ranks of the same distance, one of which is nearest, that one is even and the
other is odd. -/
theorem parity_of_distance_eq (nearest : format.IsNearest literal.magnitude rank)
    (bounded : other ≤ format.topRank) (different : other ≠ rank)
    (equal : literal.distance format other = literal.distance format rank) :
    rank % 2 = 0 ∧ other % 2 = 1 := by
  have asNear := le_antisymm (literal.distance_le_iff.mp equal.ge)
    (literal.distance_le_iff.mp equal.le)
  refine ⟨nearest.even other bounded different asNear, ?_⟩
  by_contra even
  have otherNearest : format.IsNearest literal.magnitude other :=
    ⟨bounded, fun third within => asNear ▸ nearest.nearest third within,
      fun _ _ _ _ => by omega⟩
  exact different (otherNearest.unique nearest)

private theorem nearer_of_left (nearest : format.IsNearest literal.magnitude rank)
    (bounded : other ≤ format.topRank) : literal.nearer format rank other = rank := by
  by_cases same : other = rank
  · simp only [nearer, same, ite_self]
  · have near := distance_le nearest bounded
    have parity := parity_of_distance_eq nearest bounded same
    rw [nearer, if_neg]
    simp only [Bool.or_eq_true, Bool.and_eq_true, decide_eq_true_eq]
    omega

private theorem nearer_of_right (nearest : format.IsNearest literal.magnitude rank)
    (bounded : other ≤ format.topRank) : literal.nearer format other rank = rank := by
  by_cases same : other = rank
  · simp only [nearer, same, ite_self]
  · have near := distance_le nearest bounded
    have parity := parity_of_distance_eq nearest bounded same
    rw [nearer, if_pos]
    simp only [Bool.or_eq_true, Bool.and_eq_true, decide_eq_true_eq]
    omega

/-- A guess that is one rank off at most is settled on the nearest rank. -/
theorem settledRank_eq (nearest : format.IsNearest literal.magnitude rank) {guess : Nat}
    (bounded : guess ≤ format.topRank) (above : rank ≤ guess + 1) (below : guess ≤ rank + 1) :
    literal.settledRank format guess = rank := by
  have rankBounded := nearest.bounded
  rw [settledRank]
  split
  · rcases Nat.lt_or_eq_of_le (show rank ≤ guess by omega) with less | rfl
    · rw [show guess - 1 = rank by omega]
      exact nearer_of_left nearest bounded
    · exact nearer_of_right nearest (by omega)
  · rcases Nat.lt_or_eq_of_le above with within | rfl
    · have lower : literal.nearer format guess (guess - 1) = rank := by
        rcases Nat.lt_or_eq_of_le (show rank ≤ guess by omega) with less | rfl
        · rw [show guess - 1 = rank by omega]
          exact nearer_of_right nearest bounded
        · exact nearer_of_left nearest (by omega)
      rw [lower]
      exact nearer_of_left nearest (by omega)
    · exact nearer_of_right nearest (literal.nearer_le bounded (by omega))

end DecimalLiteral

/-! ## Rounding twice -/

section

open BinaryFormat

variable {number : ℚ} {rank approximate guess : Nat}

theorem exists_wide_value (finite : rank < single.topRank) :
    ∃ wide < double.topRank, double.value wide = single.value rank := by
  obtain ⟨wide, wideFinite, same⟩ := Datum.exists_wide_rank finite
  refine ⟨wide, wideFinite, ?_⟩
  have exponents : double.unitExponent = single.unitExponent + Datum.widening := rfl
  rw [value, value, same, exponents, pow_add, Nat.cast_mul, Nat.cast_pow, Nat.cast_two,
    mul_div_mul_right _ _ (by positivity)]

variable (nearest : double.IsNearest number approximate)

include nearest

/-- Rounding to eight bytes does not pass over a magnitude of four. -/
theorem single_value_le (finite : rank < single.topRank) (below : single.value rank ≤ number) :
    single.value rank ≤ double.value approximate := by
  obtain ⟨wide, wideFinite, same⟩ := exists_wide_value finite
  rw [← same] at below ⊢
  exact double.value_strictMono.monotone ((isNearest_value wideFinite.le).le nearest below)

private theorem le_single_value (finite : rank < single.topRank)
    (above : number ≤ single.value rank) :
    double.value approximate ≤ single.value rank := by
  obtain ⟨wide, wideFinite, same⟩ := exists_wide_value finite
  rw [← same] at above ⊢
  exact double.value_strictMono.monotone (nearest.le (isNearest_value wideFinite.le) above)

/-- What is rounded twice is at most one rank away from what is rounded once. -/
theorem rounded_twice_close (twice : single.IsNearest (double.value approximate) guess)
    (once : single.IsNearest number rank) : rank ≤ guess + 1 ∧ guess ≤ rank + 1 := by
  have rankBounded := once.bounded
  have guessBounded := twice.bounded
  constructor
  · by_contra far
    obtain ⟨below, rfl⟩ : ∃ below, rank = below + 1 :=
      Nat.exists_eq_succ_of_ne_zero (by omega)
    have between : single.value (guess + 1) ≤ number :=
      calc single.value (guess + 1)
        _ ≤ single.value below := single.value_strictMono.monotone (by omega)
        _ ≤ single.threshold below := (single.value_lt_threshold below).le
        _ ≤ number := once.roundsAbove.threshold_le
    have passed := single_value_le nearest (by omega) between
    have less := (isNearest_value (show guess + 1 ≤ single.topRank by omega)).le twice passed
    omega
  · by_contra far
    have within : number ≤ single.threshold rank :=
      not_lt.mp fun less => once.not_roundsAbove (by omega) (.inl less)
    have between : number ≤ single.value (rank + 1) :=
      within.trans (single.threshold_lt_value_succ rank).le
    have passed := le_single_value nearest (by omega) between
    have less := twice.le (isNearest_value (show rank + 1 ≤ single.topRank by omega)) passed
    omega

end

/-! ## The guess at a literal -/

section

open BinaryFormat

/-- A magnitude in another format is the nearest one there. -/
theorem rankOfUnits_value_isNearest {source target : BinaryFormat} (ample : target.Ample)
    (rank : Nat) :
    target.IsNearest (source.value rank)
      (target.rankOfUnits (source.units rank * Nat.pow 2 target.unitExponent)
        (Nat.pow 2 source.unitExponent)) := by
  have nearest := rankOfUnits_isNearest ample (Nat.two_pow_pos source.unitExponent)
    (source.units rank * 2 ^ target.unitExponent)
  have same : target.quotient (source.units rank * 2 ^ target.unitExponent)
      (2 ^ source.unitExponent) = source.value rank := by
    rw [quotient, value, Nat.cast_mul, Nat.cast_pow, Nat.cast_pow, Nat.cast_two, div_right_comm,
      mul_div_cancel_right₀ _ (by positivity)]
  exact same ▸ nearest

private theorem threshold_double_lt_single : double.threshold 0 < single.threshold 0 := by
  rw [threshold_zero double_ample, threshold_zero single_ample]
  exact inv_strictAnti₀ (by positivity) (pow_lt_pow_right₀ one_lt_two (by decide))

/-- Infinity of four bytes is at a finite magnitude of eight. -/
theorem single_topRank_le_double :
    single.value single.topRank ≤ double.value (double.topRank - 1) := by
  have finite : 2 ^ 2 ^ (single.exponentBits - 1) * 2 ^ double.unitExponent ≤
      double.units (double.topRank - 1) := by decide +kernel
  rw [value_topRank single_ample, value, le_div_iff₀ (by positivity)]
  exact_mod_cast finite

namespace DecimalLiteral

variable (literal : DecimalLiteral)

private theorem rank_single_of_zero (zero : literal.rank .double = 0) :
    literal.rank .single = 0 := by
  have nearest := literal.rank_isNearest double_ample
  have once := literal.rank_isNearest single_ample
  rw [zero] at nearest
  have below : literal.magnitude ≤ double.threshold 0 :=
    not_lt.mp fun less => nearest.not_roundsAbove (by decide) (.inl less)
  exact once.unique (isNearest_zero_of_le (below.trans threshold_double_lt_single.le))

private theorem rank_single_of_topRank (top : literal.rank .double = double.topRank) :
    literal.rank .single = single.topRank := by
  have nearest := literal.rank_isNearest double_ample
  have once := literal.rank_isNearest single_ample
  have isSucc : double.topRank = double.topRank - 1 + 1 := by decide
  rw [top, isSucc] at nearest
  have beyond : single.value single.topRank ≤ literal.magnitude :=
    calc single.value single.topRank
      _ ≤ double.value (double.topRank - 1) := single_topRank_le_double
      _ ≤ double.threshold (double.topRank - 1) := (value_lt_threshold _ _).le
      _ ≤ literal.magnitude := nearest.roundsAbove.threshold_le
  exact once.unique (isNearest_topRank beyond)

/-- The guess is right for a literal that is zero or infinite in eight bytes. -/
theorem guess_eq (negative : Bool)
    (extreme : literal.rank .double = 0 ∨ literal.rank .double = double.topRank) :
    (literal.datum .double negative).convert .single = literal.datum .single negative := by
  simp only [datum, Datum.convert]
  rcases extreme with zero | top
  · have finite : literal.rank .double ≠ double.topRank := zero ▸ by decide
    have nearest := @rankOfUnits_value_isNearest double _ single_ample 0
    rw [value_zero] at nearest
    rw [if_neg finite]
    apply Datum.number_congr
    rw [literal.rank_single_of_zero zero, zero, units_zero]
    exact nearest.unique isNearest_zero
  · rw [if_pos top]
    exact Datum.number_congr (literal.rank_single_of_topRank top).symm

/-- For any other literal it is settled on the nearest datum. -/
theorem settle_guess_eq (negative : Bool) (finite : literal.rank .double ≠ double.topRank) :
    literal.settle ((literal.datum .double negative).convert .single) =
      literal.datum .single negative := by
  have twice := @rankOfUnits_value_isNearest double _ single_ample (literal.rank .double)
  have once := literal.rank_isNearest single_ample
  obtain ⟨above, below⟩ :=
    rounded_twice_close (literal.rank_isNearest double_ample) twice once
  simp only [datum, Datum.convert]
  rw [if_neg finite]
  exact Datum.number_congr (settledRank_eq once twice.bounded above below)

end DecimalLiteral

end

end WordTape
