import WordTape.Proofs.Numeric.PlainText
import WordTape.Proofs.Numeric.RoundedOnce

/-!
# Texts of floats are shortest

A finite float is written with the fewest figures that are read back as its cells, and as
near to its exact value as so many figures can be.
-/

set_option autoImplicit false

namespace WordTape

open BinaryFormat

namespace Datum

variable {format : BinaryFormat}

def IsFinite : Datum format → Prop
  | nan _ => False
  | number _ rank _ => rank < format.topRank

/-- The exact value of a finite datum. -/
def value : Datum format → ℚ
  | nan _ => 0
  | number negative rank _ => signed negative (format.value rank)

end Datum

namespace FloatType

variable {type : FloatType} {negative : Bool} {rank : Nat}

theorem ample (type : FloatType) : type.format.Ample := by
  cases type with
  | f32 => exact single_ample
  | f64 => exact double_ample

private theorem sparse (type : FloatType) : type.format.Sparse := by
  cases type with
  | f32 => exact single_sparse
  | f64 => exact double_sparse

private theorem significands (type : FloatType) : 10 ≤ type.format.binade := by
  cases type <;> decide

/-- A finite datum of a type is carried in eight bytes without a change. -/
theorem hold_finite (negative : Bool) (within : rank < type.format.topRank) :
    ∃ wide, ∃ finite : wide < double.topRank,
      type.hold (.number negative rank within.le) = .number negative wide finite.le ∧
        double.value wide = type.format.value rank := by
  cases type with
  | f64 => exact ⟨rank, within, rfl, rfl⟩
  | f32 =>
      obtain ⟨wide, bounded, same, value⟩ :=
        Datum.convert_carriesSingle negative (show rank ≤ single.topRank from within.le)
      rw [if_neg (show rank ≠ single.topRank from within.ne)] at value
      exact ⟨wide, value.1, same, value.2⟩

private theorem value_hold (within : rank < type.format.topRank) :
    (type.hold (.number negative rank within.le)).value =
      signed negative (type.format.value rank) := by
  obtain ⟨wide, finite, same, value⟩ := type.hold_finite negative within
  rw [same, Datum.value, value]

theorem hold_injective {held other : Datum type.format}
    (same : type.hold held = type.hold other) : held = other := by
  cases type with
  | f64 => exact same
  | f32 =>
      have narrowed := congrArg (Datum.convert .single) same
      exact (Datum.convert_double_convert_single held).symm.trans
        (narrowed.trans (Datum.convert_double_convert_single other))

/-- The datum that finite cells stand for, in the format of the cells. -/
theorem exists_held {bytes : Bytes} (width : bytes.length = type.width)
    (finite : (Datum.ofBits (BigEndian.toNat bytes) : Datum type.format).IsFinite) :
    ∃ negative rank, ∃ within : rank < type.format.topRank,
      type.decode bytes = .ok (type.hold (.number negative rank within.le)) := by
  rw [decode_of_length width]
  generalize Datum.ofBits (BigEndian.toNat bytes) = held at finite ⊢
  cases held with
  | nan negative => exact finite.elim
  | number negative rank bounded => exact ⟨negative, rank, finite, rfl⟩

private theorem parse_text_number (negative : Bool) (within : rank < type.format.topRank) :
    type.parse (Datum.number negative rank within.le : Datum type.format).text =
      .ok (type.hold (.number negative rank within.le)) := by
  refine (isLiteral_text (.number negative rank within.le) ?_ ?_).parses
  · intro sign same
    cases same
  · rintro ⟨_, same⟩
    injection same with _ top
    omega

/-- What a decimal text that is read back as certain cells stands for. -/
theorem nearest_of_readsBack (within : rank < type.format.topRank) {other : DecimalText}
    {read : Datum .double} (parsed : type.parse other.text = .ok read)
    (encoded : type.encode read = type.encode (type.hold (.number negative rank within.le))) :
    other.sign.isNegative = negative ∧ type.format.IsNearest other.magnitude rank := by
  have nearest := other.literal.rank_isNearest type.ample
  rw [other.magnitude_literal] at nearest
  rcases other.parse_text type with found | ⟨_, count, _, refused⟩
  · cases found.symm.trans parsed
    have same : type.hold (other.literal.datum type.format other.sign.isNegative) =
        type.hold (.number negative rank within.le) := by
      have decoded := type.decode_encode (other.literal.datum type.format other.sign.isNegative)
      rw [encoded, type.decode_encode] at decoded
      exact (Except.ok.inj decoded).symm
    have held := hold_injective same
    rw [DecimalLiteral.datum] at held
    injection held with sign isRank
    exact ⟨sign, isRank ▸ nearest⟩
  · cases refused.symm.trans parsed

end FloatType

namespace BinaryFormat

variable {format : BinaryFormat} {rank : Nat}

private theorem decimal_reduced (ample : format.Ample) (finite : rank < format.topRank) :
    (format.decimal rank).IsReduced := by
  rw [decimal]
  split
  · exact .inr rfl
  · exact .inl (shortest_coarsest ample (by omega) finite).digits_mod_ten

/-- The decimal of a magnitude has the fewest figures, and is nearest among those with so many. -/
theorem decimal_fewest_figures (ample : format.Ample) (significands : 10 ≤ format.binade)
    (sparse : format.Sparse) (finite : rank < format.topRank) :
    ∃ count, HasFigures count (format.decimal rank).value ∧
      ∀ number others, format.IsNearest number rank → HasFigures others number →
        count ≤ others ∧ (others = count →
          |(format.decimal rank).value - format.value rank| ≤ |number - format.value rank|) := by
  rw [decimal]
  split
  · rename_i zero
    have nothing : ScaledDecimal.value { digits := 0, exponent := 0 } = 0 := by
      simp [ScaledDecimal.value]
    subst zero
    refine ⟨0, ⟨0, 0, by decide, nothing.trans (by simp)⟩, fun number others _ _ => ?_⟩
    refine ⟨Nat.zero_le _, fun _ => ?_⟩
    rw [nothing, value_zero, sub_self, abs_zero]
    exact abs_nonneg _
  · exact shortest_fewest_figures ample significands sparse (by omega) finite

end BinaryFormat

/-- Finite cells are decoded, and their text is plain and is read back as the same cells. Of
all decimal texts that are read back as them none has fewer figures, and none with as many is
nearer to the exact value. -/
theorem FloatType.text_is_shortest (type : FloatType) {bytes : Bytes}
    (width : bytes.length = type.width)
    (finite : (Datum.ofBits (BigEndian.toNat bytes) : Datum type.format).IsFinite) :
    ∃ datum, type.decode bytes = .ok datum ∧
      ∃ own : DecimalText, own.Plain ∧ type.text datum = own.text ∧
        (∃ read, type.parse own.text = .ok read ∧ type.encode read = bytes) ∧
        ∃ count, HasFigures count |own.value| ∧
          ∀ (other : DecimalText) (read : Datum .double) (others : Nat),
            type.parse other.text = .ok read → type.encode read = bytes →
            HasFigures others |other.value| →
              count ≤ others ∧
                (others = count → |own.value - datum.value| ≤ |other.value - datum.value|) := by
  obtain ⟨negative, rank, within, decoded⟩ := exists_held width finite
  have reduced := decimal_reduced type.ample within
  obtain ⟨own, plain, sign, text, magnitude⟩ := ScaledDecimal.exists_plain reduced negative
  obtain ⟨count, figures, fewest⟩ :=
    decimal_fewest_figures type.ample type.significands type.sparse within
  have ownText : (Datum.number negative rank within.le : Datum type.format).text = own.text :=
    (Datum.text_number within negative).trans text.symm
  have encoded : type.encode (type.hold (.number negative rank within.le)) = bytes := by
    refine encode_of_decode decoded fun sign nan => ?_
    cases hold_injective (nan.trans (type.hold_nan sign).symm)
  have parsed : type.parse own.text = .ok (type.hold (.number negative rank within.le)) := by
    rw [← ownText]
    exact parse_text_number negative within
  refine ⟨_, decoded, own, plain, (type.text_hold _).trans ownText, ⟨_, parsed, encoded⟩, count,
    ?_, ?_⟩
  · rw [own.abs_value, magnitude]
    exact figures
  · intro other read others otherParsed otherEncoded otherFigures
    obtain ⟨otherSign, nearest⟩ :=
      nearest_of_readsBack within otherParsed (otherEncoded.trans encoded.symm)
    rw [other.abs_value] at otherFigures
    rw [value_hold within, DecimalText.value, DecimalText.value, sign, otherSign,
      abs_signed_sub_signed, abs_signed_sub_signed, magnitude]
    exact fewest other.magnitude others nearest otherFigures

/-- Two thirds, rounded to four cells, are written with seven figures, which no other decimal
text for these cells undercuts. -/
theorem two_thirds_text :
    let bytes : Bytes := [0x3F, 0x2A, 0xAA, 0xAB]
    bytes.length = FloatType.f32.width ∧
      (Datum.ofBits (BigEndian.toNat bytes) : Datum .single).IsFinite ∧
      (FloatType.f32.decode bytes).map FloatType.f32.text = .ok (Bytes.ofString "0.6666667") ∧
      ∃ own : DecimalText, own.Plain ∧ own.text = Bytes.ofString "0.6666667" ∧
        ∃ count, HasFigures count |own.value| ∧
          ∀ (other : DecimalText) (read : Datum .double) (others : Nat),
            FloatType.f32.parse other.text = .ok read → FloatType.f32.encode read = bytes →
            HasFigures others |other.value| → count ≤ others := by
  intro bytes
  have finite : (Datum.ofBits (BigEndian.toNat bytes) : Datum .single).IsFinite := by
    show 0x3F2AAAAB < single.topRank
    decide
  have written : (FloatType.f32.decode bytes).map FloatType.f32.text =
      .ok (Bytes.ofString "0.6666667") := by decide +kernel
  obtain ⟨datum, decoded, own, plain, text, -, count, figures, fewest⟩ :=
    @FloatType.text_is_shortest .f32 bytes rfl finite
  have shown : FloatType.f32.text datum = Bytes.ofString "0.6666667" := by
    rw [decoded] at written
    exact Except.ok.inj written
  refine ⟨rfl, finite, written, own, plain, text.symm.trans shown, count, figures, ?_⟩
  intro other read others parsed encoded otherFigures
  exact (fewest other read others parsed encoded otherFigures).1

end WordTape
