import WordTape.Proofs.Numeric.DecimalText

/-!
# Literals of four bytes are rounded once

However many digits a literal has, it is read as the datum of four bytes that is nearest to
the number it stands for. The datum is carried in eight bytes, where it has the same value.
-/

set_option autoImplicit false

namespace WordTape

open BinaryFormat

/-- A datum of eight bytes has the sign and the value of a magnitude of four, or both are
infinite. -/
def Datum.CarriesSingle (datum : Datum .double) (negative : Bool) (rank : Nat) : Prop :=
  ∃ wide bounded, datum = .number negative wide bounded ∧
    if rank = single.topRank then wide = double.topRank
    else wide < double.topRank ∧ double.value wide = single.value rank

theorem Datum.convert_carriesSingle (negative : Bool) {rank : Nat}
    (bounded : rank ≤ single.topRank) :
    ((number negative rank bounded).convert .double).CarriesSingle negative rank := by
  rw [convert]
  split
  · rename_i top
    exact ⟨_, _, rfl, by rw [if_pos top]⟩
  · rename_i notTop
    obtain ⟨wide, wideFinite, same⟩ := exists_wide_value (show rank < single.topRank by omega)
    have nearest := @rankOfUnits_value_isNearest single _ double_ample rank
    have isWide := nearest.unique (same ▸ isNearest_value wideFinite.le)
    refine ⟨_, _, rfl, ?_⟩
    rw [if_neg notTop, isWide]
    exact ⟨wideFinite, same⟩

/-- The threshold of infinity, at which numbers are already rounded to it. -/
theorem threshold_last : single.threshold (single.topRank - 1) = 2 ^ 128 - 2 ^ 103 := by
  obtain ⟨sum, isSum, units⟩ : ∃ sum,
      single.units (single.topRank - 1) + single.units (single.topRank - 1 + 1) = sum ∧
        sum + 2 * 2 ^ 103 * 2 ^ 149 = 2 * 2 ^ 128 * 2 ^ 149 := ⟨_, rfl, by decide +kernel⟩
  have cast : (sum : ℚ) + 2 * 2 ^ 103 * 2 ^ 149 = 2 * 2 ^ 128 * 2 ^ 149 := by
    exact_mod_cast units
  have exponent : single.unitExponent = 149 := rfl
  rw [threshold_eq, isSum, quotient, eq_sub_of_add_eq cast, exponent]
  norm_num

theorem isNearest_single_topRank {number : ℚ} (beyond : 2 ^ 128 - 2 ^ 103 ≤ number) :
    single.IsNearest number single.topRank := by
  rw [isNearest_iff]
  refine ⟨le_rfl, fun less => absurd less (Nat.lt_irrefl _), fun below isTop => ?_⟩
  have isBelow : below = single.topRank - 1 := by omega
  rw [isBelow, RoundsAbove, threshold_last]
  rcases beyond.lt_or_eq with less | tie
  · exact .inl less
  · exact .inr ⟨tie, by decide⟩

/-- Every literal of four bytes is read as the datum nearest to its exact value, with the
sign of the literal. Ties go to the even significand, numbers from halfway to the first power
of two without a magnitude on are infinite, and those up to half the least magnitude are zero. -/
theorem f32_literal_rounded_once (decimal : DecimalText) (short : decimal.Short) :
    ∃ datum rank, FloatType.f32.parse decimal.text = .ok datum ∧
      datum.CarriesSingle decimal.sign.isNegative rank ∧
      single.IsNearestSigned decimal.value decimal.sign.isNegative rank ∧
      single.value single.topRank = 2 ^ 128 ∧
      (2 ^ 128 - 2 ^ 103 ≤ |decimal.value| → rank = single.topRank) ∧
      (|decimal.value| ≤ (2 ^ 150)⁻¹ → rank = 0) := by
  have nonnegative := decimal.magnitude_nonneg
  have nearest := decimal.literal.rank_isNearest single_ample
  rw [decimal.magnitude_literal] at nearest
  have parsed : FloatType.f32.parse decimal.text =
      .ok (FloatType.hold .f32 (decimal.literal.datum .single decimal.sign.isNegative)) := by
    rcases decimal.parse_text .f32 with parsed | ⟨_, count, excess, _⟩
    · exact parsed
    · rw [decimal.excess?_literal short] at excess
      cases excess
  refine ⟨_, decimal.literal.rank .single, parsed, Datum.convert_carriesSingle _ nearest.bounded,
    nearest.withSign nonnegative _, ?_, fun beyond => ?_, fun below => ?_⟩
  · rw [value_topRank single_ample]
    norm_num [single]
  · rw [decimal.abs_value] at beyond
    exact nearest.unique (isNearest_single_topRank beyond)
  · rw [decimal.abs_value] at below
    have half : single.threshold 0 = (2 ^ 150)⁻¹ := threshold_zero single_ample
    exact nearest.unique (isNearest_zero_of_le (half ▸ below))

/-- A literal hardly above the middle of one half and the next magnitude. Eight bytes hold
just the middle, from which rounding again would go down to one half. -/
theorem last_digit_breaks_tie :
    let decimal : DecimalText :=
      { sign := .none, whole := Bytes.ofString "0"
        fraction? := some (Bytes.ofString "50000002980232238769531250001"), exponent? := none
        lineFeed := false, wholeDigits := by decide, fractionDigits := by decide
        someDigits := by decide }
    decimal.text = Bytes.ofString "0.50000002980232238769531250001" ∧ decimal.Short ∧
      ((FloatType.f64.parse decimal.text).map FloatType.f32.encode = .ok [0x3F, 0, 0, 0]) ∧
      ∃ datum rank, FloatType.f32.parse decimal.text = .ok datum ∧
        FloatType.f32.encode datum = [0x3F, 0, 0, 1] ∧ datum.CarriesSingle false rank ∧
        single.IsNearestSigned decimal.value false rank := by
  intro decimal
  have short : decimal.Short := ⟨by decide, by decide, nofun⟩
  obtain ⟨datum, rank, parsed, carries, nearest, -⟩ := f32_literal_rounded_once decimal short
  have encoded : (FloatType.f32.parse decimal.text).map FloatType.f32.encode =
      .ok [0x3F, 0, 0, 1] := by decide +kernel
  rw [parsed] at encoded
  exact ⟨by decide, short, by decide +kernel, datum, rank, parsed, Except.ok.inj encoded, carries,
    nearest⟩

end WordTape
