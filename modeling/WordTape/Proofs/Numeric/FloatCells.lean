import WordTape.Proofs.Numeric.ShortestText

/-!
# Floats on cells

A bit pattern is a sign, an exponent and a fraction, and these fields say which number the
cells of a float stand for. Reading cells of either width keeps the number and its sign, so
that cells which do not stand for not-a-number are laid out again as they were. A datum that is
laid out on four cells is rounded to the nearest datum that they can stand for.
-/

set_option autoImplicit false

namespace WordTape

open BinaryFormat

/-! ## Fields of bit patterns -/

/-- The fields of a bit pattern of a format. -/
structure Fields (format : BinaryFormat) where
  negative : Bool
  exponent : Nat
  fraction : Nat

namespace Fields

variable {format : BinaryFormat}

def ofBits (format : BinaryFormat) (bits : Nat) : Fields format where
  negative := bits.testBit (format.fractionBits + format.exponentBits)
  exponent := bits / 2 ^ format.fractionBits % 2 ^ format.exponentBits
  fraction := bits % 2 ^ format.fractionBits

/-- The greatest exponent is that of no finite number. -/
def IsSpecial (fields : Fields format) : Prop :=
  fields.exponent = 2 ^ format.exponentBits - 1

def IsNaN (fields : Fields format) : Prop :=
  fields.IsSpecial ∧ fields.fraction ≠ 0

instance (fields : Fields format) : Decidable fields.IsSpecial :=
  inferInstanceAs (Decidable (_ = _))

instance (fields : Fields format) : Decidable fields.IsNaN :=
  inferInstanceAs (Decidable (_ ∧ _))

/-- The exponent field of the numbers from one up to two. -/
def bias (format : BinaryFormat) : Int :=
  2 ^ (format.exponentBits - 1) - 1

/-- The number that the fields stand for: a fraction behind an implicit one, or behind a zero
where the exponent field is zero. -/
def value (fields : Fields format) : ℚ :=
  signed fields.negative <|
    if fields.exponent = 0 then
      fields.fraction / 2 ^ format.fractionBits * 2 ^ (1 - bias format)
    else (1 + fields.fraction / 2 ^ format.fractionBits) * 2 ^ (fields.exponent - bias format)

/-- The rank that belongs to the fields. -/
def rank (fields : Fields format) : Nat :=
  fields.exponent * format.binade + fields.fraction

theorem fraction_lt (format : BinaryFormat) (bits : Nat) :
    (ofBits format bits).fraction < format.binade :=
  Nat.mod_lt _ format.binade_pos

private theorem exponent_lt (format : BinaryFormat) (bits : Nat) :
    (ofBits format bits).exponent < 2 ^ format.exponentBits :=
  Nat.mod_lt _ (Nat.two_pow_pos _)

theorem ofBits_eq (format : BinaryFormat) (bits : Nat) :
    (Datum.ofBits bits : Datum format) =
      if bounded : (ofBits format bits).rank ≤ format.topRank then
        .number (ofBits format bits).negative (ofBits format bits).rank bounded
      else .nan (ofBits format bits).negative := by
  have isRank : bits % Datum.signWeight format = (ofBits format bits).rank := by
    have split := Nat.mod_mul (x := bits) (a := 2 ^ format.fractionBits)
      (b := 2 ^ format.exponentBits)
    rw [← Nat.pow_add] at split
    refine split.trans ?_
    rw [rank, Nat.add_comm, Nat.mul_comm]
    rfl
  have isSign : decide (bits / Datum.signWeight format % 2 = 1) =
      (ofBits format bits).negative := Nat.testBit_eq_decide_div_mod_eq.symm
  simp only [Datum.ofBits, isRank, isSign]

/-- Below the greatest exponent the ranks are below that of infinity, and from there on they
count up from it. -/
theorem rank_cases (format : BinaryFormat) (bits : Nat) :
    (¬(ofBits format bits).IsSpecial ∧ (ofBits format bits).rank < format.topRank) ∨
      (ofBits format bits).IsSpecial ∧
        (ofBits format bits).rank = format.topRank + (ofBits format bits).fraction := by
  have small := fraction_lt format bits
  have below := exponent_lt format bits
  rw [IsSpecial, rank]
  generalize (ofBits format bits).fraction = fraction at *
  generalize (ofBits format bits).exponent = exponent at *
  rcases Nat.lt_or_eq_of_le (Nat.le_sub_one_of_lt below) with less | last
  · left
    have scaled := Nat.mul_le_mul_right format.binade less
    rw [Nat.succ_mul] at scaled
    exact ⟨less.ne, show _ < (2 ^ format.exponentBits - 1) * format.binade by omega⟩
  · right
    rw [last]
    exact ⟨rfl, rfl⟩

theorem rank_lt_iff (format : BinaryFormat) (bits : Nat) :
    (ofBits format bits).rank < format.topRank ↔ ¬(ofBits format bits).IsSpecial := by
  rcases rank_cases format bits with ⟨ordinary, below⟩ | ⟨special, beyond⟩
  · exact iff_of_true below ordinary
  · exact iff_of_false (by omega) (not_not_intro special)

theorem rank_le_iff (format : BinaryFormat) (bits : Nat) :
    (ofBits format bits).rank ≤ format.topRank ↔ ¬(ofBits format bits).IsNaN := by
  rw [IsNaN]
  rcases rank_cases format bits with ⟨ordinary, below⟩ | ⟨special, beyond⟩
  · exact iff_of_true below.le fun nan => ordinary nan.1
  · rw [beyond]
    constructor
    · rintro within ⟨-, nonzero⟩
      omega
    · intro number
      have zero : (ofBits format bits).fraction = 0 := by
        by_contra nonzero
        exact number ⟨special, nonzero⟩
      omega

/-- The value of a rank is the one that its fields say. -/
theorem value_eq (ample : format.Ample) (bits : Nat) :
    (ofBits format bits).value =
      signed (ofBits format bits).negative (format.value (ofBits format bits).rank) := by
  have small := fraction_lt format bits
  have two : (2 : ℚ) ≠ 0 := two_ne_zero
  have unit : (format.unitExponent : Int) = format.fractionBits - (1 - bias format) := by
    have positive := Nat.one_le_two_pow (n := format.exponentBits - 1)
    have fraction := ample.fraction
    rw [bias, show format.unitExponent =
      2 ^ (format.exponentBits - 1) + format.fractionBits - 2 from rfl]
    push_cast [show 2 ≤ 2 ^ (format.exponentBits - 1) + format.fractionBits by omega]
    ring
  have units : (2 : ℚ) ^ format.unitExponent =
      2 ^ format.fractionBits / 2 ^ (1 - bias format) := by
    rw [← zpow_natCast, unit, zpow_sub₀ two, zpow_natCast]
  rw [value, BinaryFormat.value, rank]
  generalize (ofBits format bits).fraction = fraction at *
  congr 1
  split
  · rename_i subnormal
    have normal : format.Normal fraction 0 := ⟨by omega, .inr rfl⟩
    have isUnits := normal.units_eq
    rw [Nat.zero_mul, Nat.pow_zero, Nat.mul_one] at isUnits
    rw [subnormal, Nat.zero_mul, isUnits, units]
    field_simp
  · rename_i exponent
    obtain ⟨less, isExponent⟩ := Nat.exists_eq_succ_of_ne_zero exponent
    have normal : format.Normal (format.binade + fraction) less :=
      ⟨by omega, .inl (Nat.le_add_right _ _)⟩
    have isRank : (less + 1) * format.binade + fraction =
        less * format.binade + (format.binade + fraction) := by ring
    have binade : (format.binade : ℚ) = 2 ^ format.fractionBits := by
      rw [binade_eq]
      push_cast
      rfl
    have power : (2 : ℚ) ^ ((less + 1 : Nat) - bias format) =
        2 ^ less * 2 ^ (1 - bias format) := by
      rw [← zpow_natCast, ← zpow_add₀ two]
      congr 1
      push_cast
      ring
    rw [isExponent, Nat.succ_eq_add_one, isRank, normal.units_eq, units, power]
    push_cast
    rw [binade]
    field_simp

end Fields

private theorem signed_injective (negative : Bool) : Function.Injective (signed negative) := by
  cases negative with
  | false => exact fun _ _ same => same
  | true => exact fun _ _ same => neg_injective same

/-! ## Reading cells -/

namespace Datum

variable {format : BinaryFormat}

def isNegative : Datum format → Bool
  | nan negative => negative
  | number negative _ _ => negative

def IsNaN : Datum format → Prop
  | nan _ => True
  | number _ _ _ => False

theorem ne_nan {datum : Datum format} (number : ¬datum.IsNaN) (negative : Bool) :
    datum ≠ nan negative := by
  rintro rfl
  exact number trivial

end Datum

/-- A datum is what the fields of a pattern say: it has their sign, it is not-a-number or finite
where they are, and if it is finite it has their value. -/
structure Fields.ReadAs {format : BinaryFormat} (fields : Fields format)
    (datum : Datum .double) : Prop where
  sign : datum.isNegative = fields.negative
  nan : datum.IsNaN ↔ fields.IsNaN
  finite : datum.IsFinite ↔ ¬fields.IsSpecial
  value : datum.IsFinite → datum.value = fields.value

namespace FloatType

variable {type : FloatType}

private theorem readAs_hold (type : FloatType) (bits : Nat) :
    (Fields.ofBits type.format bits).ReadAs (type.hold (Datum.ofBits bits)) := by
  have bounds := Fields.rank_le_iff type.format bits
  have below := Fields.rank_lt_iff type.format bits
  have value := Fields.value_eq type.ample bits
  rw [Fields.ofBits_eq]
  split
  · rename_i bounded
    rcases bounded.lt_or_eq with finite | infinite
    · obtain ⟨wide, wideFinite, same, isValue⟩ :=
        type.hold_finite (Fields.ofBits type.format bits).negative finite
      rw [same]
      refine ⟨rfl, iff_of_false not_false (bounds.mp bounded),
        iff_of_true wideFinite (below.mp finite), fun _ => ?_⟩
      rw [value, Datum.value, isValue]
    · have same : type.hold (.number (Fields.ofBits type.format bits).negative
          (Fields.ofBits type.format bits).rank bounded) =
          .number (Fields.ofBits type.format bits).negative double.topRank le_rfl := by
        rw [← type.hold_top]
        exact congrArg type.hold (Datum.number_congr infinite)
      have notFinite : ¬double.topRank < double.topRank := lt_irrefl _
      rw [same]
      exact ⟨rfl, iff_of_false not_false (bounds.mp bounded),
        iff_of_false notFinite fun ordinary => infinite.not_lt (below.mpr ordinary),
        fun finite => absurd finite notFinite⟩
  · rename_i nan
    have special : (Fields.ofBits type.format bits).IsNaN :=
      not_not.mp fun number => nan (bounds.mpr number)
    rw [type.hold_nan]
    exact ⟨rfl, iff_of_true trivial special, iff_of_false not_false (not_not_intro special.1),
      False.elim⟩

/-- The fields of the pattern on a row of cells. -/
def fields (type : FloatType) (bytes : Bytes) : Fields type.format :=
  Fields.ofBits type.format (BigEndian.toNat bytes)

theorem readAs_of_decode {bytes : Bytes} {datum : Datum .double}
    (decoded : type.decode bytes = .ok datum) : (type.fields bytes).ReadAs datum := by
  rw [decode_of_length (length_of_decode decoded)] at decoded
  cases decoded
  exact type.readAs_hold _

private theorem isNaN_encode {bytes : Bytes} {datum : Datum .double}
    (decoded : type.decode bytes = .ok datum) (nan : datum.IsNaN) :
    (type.fields (type.encode datum)).IsNaN := by
  rw [decode_of_length (length_of_decode decoded)] at decoded
  cases decoded
  exact (readAs_of_decode (type.decode_encode _)).nan.mp nan

end FloatType

/-- The fields leave no choice between two data that are numbers. -/
theorem Fields.ReadAs.unique {format : BinaryFormat} {fields : Fields format}
    {datum other : Datum .double} (readAs : fields.ReadAs datum) (otherReadAs : fields.ReadAs other)
    (number : ¬fields.IsNaN) : datum = other := by
  obtain ⟨sign, nan, finite, value⟩ := readAs
  obtain ⟨otherSign, otherNan, otherFinite, otherValue⟩ := otherReadAs
  cases datum with
  | nan negative => exact absurd (nan.mp trivial) number
  | number negative rank bounded =>
      cases other with
      | nan negative => exact absurd (otherNan.mp trivial) number
      | number otherNegative otherRank otherBounded =>
          have sameSign : negative = otherNegative := sign.trans otherSign.symm
          subst sameSign
          apply Datum.number_congr
          by_cases below : rank < double.topRank
          · have otherBelow := otherFinite.mpr (finite.mp below)
            have values := (value below).trans (otherValue otherBelow).symm
            exact double.value_strictMono.injective (signed_injective negative values)
          · have otherTop : ¬otherRank < double.topRank :=
              fun otherBelow => below (finite.mpr (otherFinite.mp otherBelow))
            omega

/-! ## Rounding to four cells -/

private theorem isNearest_single_topRank_iff {number : ℚ} :
    single.IsNearest number single.topRank ↔ 2 ^ 128 - 2 ^ 103 ≤ number := by
  constructor
  · intro nearest
    rw [← threshold_last]
    exact nearest.roundsAbove.threshold_le
  · exact isNearest_single_topRank

/-- The fields of a pattern of four cells are those of the datum nearest to another one. Ties
go to the even pattern, and numbers from halfway to the first power of two without a magnitude
on become infinite. -/
structure Fields.IsRounded (fields : Fields single) (datum : Datum .double) : Prop where
  sign : fields.negative = datum.isNegative
  number : ¬fields.IsNaN
  nearest : datum.IsFinite → single.IsNearestSigned datum.value datum.isNegative fields.rank
  infinite : fields.IsSpecial ↔ ¬datum.IsFinite ∨ 2 ^ 128 - 2 ^ 103 ≤ |datum.value|

namespace Datum

private theorem exists_convert_single (negative : Bool) {wide : Nat}
    (bounded : wide ≤ double.topRank) :
    ∃ rank within,
      (number negative wide bounded : Datum .double).convert .single =
        number negative rank within ∧
      (wide < double.topRank → single.IsNearest (double.value wide) rank) ∧
      (wide = double.topRank → rank = single.topRank) := by
  rw [convert]
  split
  · rename_i top
    exact ⟨_, le_rfl, rfl, fun below => absurd top below.ne, fun _ => rfl⟩
  · rename_i notTop
    exact ⟨_, single.rankOfUnits_le_topRank _ _, rfl,
      fun _ => rankOfUnits_value_isNearest single_ample wide, fun top => absurd top notTop⟩

private theorem fields_toBits {format : BinaryFormat} (fraction : 0 < format.fractionBits)
    (negative : Bool) {rank : Nat} (bounded : rank ≤ format.topRank) :
    (Fields.ofBits format (number negative rank bounded : Datum format).toBits).negative =
        negative ∧
      (Fields.ofBits format (number negative rank bounded : Datum format).toBits).rank = rank := by
  have read := ofBits_toBits fraction (number negative rank bounded : Datum format)
  rw [Fields.ofBits_eq] at read
  split at read
  · injection read with sign isRank
    exact ⟨sign, isRank⟩
  · cases read

end Datum

namespace FloatType

/-- A datum is laid out on four cells by way of the datum that it is rounded to. -/
theorem encode_f32_eq (datum : Datum .double) :
    f32.encode datum = f32.encode (hold .f32 (datum.convert .single)) :=
  (encode_hold .f32 (datum.convert .single)).symm

private theorem toNat_encode_f32 (datum : Datum .double) :
    BigEndian.toNat (f32.encode datum) = (datum.convert .single).toBits :=
  (congrArg BigEndian.toNat (encode_f32_eq datum)).trans
    (toNat_encode_hold .f32 (datum.convert .single))

private theorem fields_encode_f32_isRounded {datum : Datum .double} (number : ¬datum.IsNaN) :
    (f32.fields (f32.encode datum)).IsRounded datum := by
  cases datum with
  | nan negative => exact absurd trivial number
  | number negative wide bounded =>
      obtain ⟨rank, within, same, nearest, top⟩ := Datum.exists_convert_single negative bounded
      obtain ⟨sign, isRank⟩ := Datum.fields_toBits single_ample.fraction negative within
      rw [← same, ← toNat_encode_f32] at sign isRank
      have notNaN : ¬(f32.fields (f32.encode (.number negative wide bounded))).IsNaN :=
        (Fields.rank_le_iff _ _).mp (isRank.trans_le within)
      have special : (f32.fields (f32.encode (.number negative wide bounded))).IsSpecial ↔
          rank = single.topRank := by
        have below := Fields.rank_lt_iff .single
          (BigEndian.toNat (f32.encode (.number negative wide bounded)))
        rw [isRank] at below
        rw [← not_iff_not]
        exact below.symm.trans (lt_iff_le_and_ne.trans (and_iff_right within))
      refine ⟨sign, notNaN, fun finite => ?_, special.trans ?_⟩
      · have withSign := (nearest finite).withSign (double.value_nonneg wide) negative
        exact isRank.symm ▸ withSign
      · have magnitude : |(Datum.number negative wide bounded : Datum .double).value| =
            double.value wide :=
          (abs_signed _ _).trans (abs_of_nonneg (double.value_nonneg wide))
        rw [magnitude, ← isNearest_single_topRank_iff]
        rcases bounded.lt_or_eq with finite | infinite
        · have isFinite : (Datum.number negative wide bounded : Datum .double).IsFinite := finite
          constructor
          · rintro isTop
            exact .inr (isTop ▸ nearest finite)
          · rintro (notFinite | overflow)
            · exact absurd isFinite notFinite
            · exact (nearest finite).unique overflow
        · exact iff_of_true (top infinite) (.inl infinite.not_lt)

/-- A datum survives four cells if and only if there are cells that stand for it. -/
theorem decode_encode_f32_iff {datum : Datum .double} (number : ¬datum.IsNaN) :
    f32.decode (f32.encode datum) = .ok datum ↔
      ∃ bytes, bytes.length = 4 ∧ (f32.fields bytes).ReadAs datum := by
  constructor
  · intro decoded
    exact ⟨_, length_of_decode decoded, readAs_of_decode decoded⟩
  · rintro ⟨bytes, length, readAs⟩
    have decoded := @decode_of_length .f32 bytes length
    have same := (readAs_of_decode decoded).unique readAs fun nan => number (readAs.nan.mpr nan)
    rw [same] at decoded
    rwa [encode_of_decode decoded (Datum.ne_nan number)]

end FloatType

/-- Cells of either width are read as the number that their fields say, and are laid out again
as they were. Cells that stand for not-a-number are read as such, and are laid out as such. On
eight cells every other datum is read back; on four it is rounded to the nearest datum that they
can stand for, and so is read back if and only if they can stand for the datum itself. -/
theorem float_cells_keep_numbers :
    (∀ (type : FloatType) (bytes : Bytes), bytes.length = type.width →
      ∃ datum, type.decode bytes = .ok datum ∧ (type.fields bytes).ReadAs datum ∧
        (¬(type.fields bytes).IsNaN → type.encode datum = bytes) ∧
        ((type.fields bytes).IsNaN → (type.fields (type.encode datum)).IsNaN)) ∧
      ∀ datum : Datum .double, ¬datum.IsNaN →
        FloatType.f64.decode (FloatType.f64.encode datum) = .ok datum ∧
          (FloatType.f32.encode datum).length = 4 ∧
          (FloatType.f32.fields (FloatType.f32.encode datum)).IsRounded datum ∧
          (FloatType.f32.decode (FloatType.f32.encode datum) = .ok datum ↔
            ∃ bytes, bytes.length = 4 ∧ (FloatType.f32.fields bytes).ReadAs datum) := by
  refine ⟨fun type bytes width => ?_, fun datum number => ?_⟩
  · have decoded := FloatType.decode_of_length width
    have readAs := FloatType.readAs_of_decode decoded
    refine ⟨_, decoded, readAs, fun number => ?_, fun nan => ?_⟩
    · have notNaN := fun nan => number (readAs.nan.mp nan)
      exact FloatType.encode_of_decode decoded (Datum.ne_nan notNaN)
    · exact FloatType.isNaN_encode decoded (readAs.nan.mpr nan)
  · exact ⟨FloatType.decode_encode .f64 datum, BigEndian.length_ofNat _ _,
      FloatType.fields_encode_f32_isRounded number, FloatType.decode_encode_f32_iff number⟩

/-- The least positive magnitude of four cells is read and laid out again. The first datum that
is too great for four cells is halfway to the power of two that stands for infinity. -/
theorem ends_of_f32 :
    let least : Bytes := [0, 0, 0, 1]
    let beyond : Datum .double := .number true (1150 * 2 ^ 52 + (2 ^ 52 - 2 ^ 28)) (by decide)
    least.length = FloatType.f32.width ∧ ¬(FloatType.f32.fields least).IsNaN ∧
      (∃ datum, FloatType.f32.decode least = .ok datum ∧
        (FloatType.f32.fields least).ReadAs datum ∧ FloatType.f32.encode datum = least) ∧
      ¬beyond.IsNaN ∧ FloatType.f32.encode beyond = [0xFF, 0x80, 0, 0] ∧
      (FloatType.f32.fields [0xFF, 0x80, 0, 0]).IsRounded beyond := by
  intro least beyond
  have notNaN : ¬(FloatType.f32.fields least).IsNaN := by decide
  have number : ¬beyond.IsNaN := not_false
  have encoded : FloatType.f32.encode beyond = [0xFF, 0x80, 0, 0] := by decide +kernel
  obtain ⟨cells, data⟩ := float_cells_keep_numbers
  obtain ⟨datum, decoded, readAs, again, -⟩ := cells .f32 least rfl
  obtain ⟨-, -, rounded, -⟩ := data beyond number
  rw [encoded] at rounded
  exact ⟨rfl, notNaN, ⟨datum, decoded, readAs, again notNaN⟩, number, encoded, rounded⟩

end WordTape
