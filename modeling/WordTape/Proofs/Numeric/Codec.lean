import Mathlib.Data.List.Induction
import WordTape.Numeric.Codec
import WordTape.Proofs.Numeric.Datum

/-!
# Numbers are read back from their cells

The numbers that a type holds are those that its cells can stand for. Each of them is
laid out on the right count of cells and read back from them, and cells are laid out
again as they were, unless they stand for not-a-number.
-/

set_option autoImplicit false

namespace WordTape

namespace BigEndian

theorem toNat_lt (bytes : Bytes) : toNat bytes < 256 ^ bytes.length := by
  induction bytes using List.reverseRecOn with
  | nil => exact Nat.one_pos
  | append_singleton bytes byte ih =>
      have small := byte.toNat_lt
      rw [toNat_append_singleton, List.length_append, List.length_singleton, Nat.pow_succ]
      omega

theorem ofNat_toNat (bytes : Bytes) : ofNat bytes.length (toNat bytes) = bytes := by
  induction bytes using List.reverseRecOn with
  | nil => rfl
  | append_singleton bytes byte ih =>
      have small := byte.toNat_lt
      have front : (256 * toNat bytes + byte.toNat) / 256 = toNat bytes := by omega
      have last : UInt8.ofNat (256 * toNat bytes + byte.toNat) = byte := by
        apply UInt8.toNat_inj.mp
        rw [UInt8.toNat_ofNat']
        omega
      rw [toNat_append_singleton, List.length_append, List.length_singleton, ofNat, front, ih,
        last]

end BigEndian

namespace IntegerType

variable {type : IntegerType} {number : Int} {bytes : Bytes}

theorem least_eq (type : IntegerType) :
    type.least = type.greatest + 1 - type.patterns ∧ 0 ≤ type.greatest ∧
      type.greatest < type.patterns := by
  cases type <;> decide +kernel

theorem pattern_lt (length : bytes.length = type.width) :
    BigEndian.toNat bytes < type.patterns := by
  have below := BigEndian.toNat_lt bytes
  rw [length] at below
  exact below

def Holds (type : IntegerType) (number : Int) : Prop :=
  type.least ≤ number ∧ number ≤ type.greatest

instance (type : IntegerType) (number : Int) : Decidable (type.Holds number) :=
  inferInstanceAs (Decidable (_ ∧ _))

private theorem pattern_of_holds (holds : type.Holds number) :
    number % type.patterns = if number < 0 then number + type.patterns else number := by
  obtain ⟨least, greatest⟩ := holds
  obtain ⟨leastEq, nonnegative, below⟩ := type.least_eq
  split
  · rw [← Int.add_emod_right]
    exact Int.emod_eq_of_lt (by omega) (by omega)
  · exact Int.emod_eq_of_lt (by omega) (by omega)

/-- Bytes stand for the one number of the type that has their pattern. -/
theorem decode_eq_ok_iff : type.decode bytes = .ok number ↔
    bytes.length = type.width ∧ type.Holds number ∧
      number % type.patterns = (BigEndian.toNat bytes : Nat) := by
  obtain ⟨leastEq, nonnegative, greatest⟩ := type.least_eq
  by_cases length : bytes.length = type.width
  · have below := pattern_lt length
    simp only [decode, length, ↓reduceIte, Except.ok.injEq, true_and]
    constructor
    · intro same
      have holds : type.Holds number := by
        rw [Holds, leastEq]
        split at same
        · omega
        · omega
      refine ⟨holds, ?_⟩
      rw [pattern_of_holds holds]
      split at same
      · rw [if_pos (by omega)]
        omega
      · rw [if_neg (by omega)]
        omega
    · intro ⟨holds, pattern⟩
      rw [pattern_of_holds holds] at pattern
      obtain ⟨least, most⟩ := holds
      split at pattern
      · rw [if_pos (by omega)]
        omega
      · rw [if_neg (by omega)]
        omega
  · simp only [decode, length, ↓reduceIte, reduceCtorEq, false_and]

theorem encode_of_holds (holds : type.Holds number) : ∃ bytes,
    type.encode number = .ok bytes ∧ type.decode bytes = .ok number := by
  obtain ⟨leastEq, nonnegative, greatest⟩ := type.least_eq
  have inRange := holds
  rw [Holds] at inRange
  have least := Int.emod_nonneg number (b := type.patterns) (by omega)
  have below := Int.emod_lt_of_pos number (b := type.patterns) (by omega)
  refine ⟨_, if_pos inRange, decode_eq_ok_iff.mpr ⟨BigEndian.length_ofNat _ _, holds, ?_⟩⟩
  have small : (number % type.patterns).toNat < Nat.pow 256 type.width := by
    show _ < type.patterns
    omega
  rw [BigEndian.toNat_ofNat, Nat.mod_eq_of_lt small]
  omega

theorem encode_of_decode (decoded : type.decode bytes = .ok number) :
    type.encode number = .ok bytes := by
  obtain ⟨length, holds, pattern⟩ := decode_eq_ok_iff.mp decoded
  have inRange := holds
  rw [Holds] at inRange
  rw [encode, if_pos inRange, pattern, Int.toNat_natCast, ← length, BigEndian.ofNat_toNat]

end IntegerType

/-! ## Floats -/

namespace FloatType

/-- The datum in the format of eight bytes that stands for one of a type. -/
def hold : (type : FloatType) → Datum type.format → Datum .double
  | f32, datum => datum.convert .double
  | f64, datum => datum

def Holds (type : FloatType) (datum : Datum .double) : Prop :=
  ∃ held, type.hold held = datum

variable {type : FloatType} {bytes : Bytes}

private theorem fraction_pos (type : FloatType) : 0 < type.format.fractionBits := by
  cases type <;> decide

theorem patterns_eq (type : FloatType) :
    2 * Datum.signWeight type.format = 256 ^ type.width := by
  cases type <;> rfl

theorem hold_nan (type : FloatType) (negative : Bool) :
    type.hold (.nan negative) = .nan negative := by
  cases type <;> rfl

theorem hold_top (type : FloatType) (negative : Bool) :
    type.hold (.number negative type.format.topRank (Nat.le_refl _)) =
      .number negative BinaryFormat.double.topRank (Nat.le_refl _) := by
  cases type <;> rfl

theorem encode_hold (type : FloatType) (held : Datum type.format) :
    type.encode (type.hold held) = BigEndian.ofNat type.width held.toBits := by
  cases type with
  | f32 =>
      have same : (hold .f32 held).convert .single = held :=
        Datum.convert_double_convert_single held
      exact congrArg (fun datum : Datum .single => BigEndian.ofNat 4 datum.toBits) same
  | f64 => rfl

theorem text_hold (type : FloatType) (held : Datum type.format) :
    type.text (type.hold held) = held.text := by
  cases type with
  | f32 => exact congrArg Datum.text (Datum.convert_double_convert_single held)
  | f64 => rfl

theorem decode_of_length (length : bytes.length = type.width) :
    type.decode bytes = .ok (type.hold (Datum.ofBits (BigEndian.toNat bytes))) := by
  simp only [decode, length, ↓reduceIte]
  cases type <;> rfl

theorem length_of_decode {datum : Datum .double} (decoded : type.decode bytes = .ok datum) :
    bytes.length = type.width := by
  unfold decode at decoded
  split at decoded
  · assumption
  · cases decoded

theorem toNat_encode_hold (type : FloatType) (held : Datum type.format) :
    BigEndian.toNat (type.encode (type.hold held)) = held.toBits := by
  have below := held.toBits_lt
  rw [patterns_eq] at below
  rw [encode_hold, BigEndian.toNat_ofNat]
  exact Nat.mod_eq_of_lt below

private theorem length_encode_hold (type : FloatType) (held : Datum type.format) :
    (type.encode (type.hold held)).length = type.width := by
  rw [encode_hold, BigEndian.length_ofNat]

theorem decode_encode (type : FloatType) (held : Datum type.format) :
    type.decode (type.encode (type.hold held)) = .ok (type.hold held) := by
  rw [decode_of_length (type.length_encode_hold held), type.toNat_encode_hold held,
    Datum.ofBits_toBits type.fraction_pos]

theorem encode_of_decode {datum : Datum .double} (decoded : type.decode bytes = .ok datum)
    (number : ∀ negative, datum ≠ .nan negative) : type.encode datum = bytes := by
  have length := length_of_decode decoded
  rw [decode_of_length length] at decoded
  cases decoded
  have below := BigEndian.toNat_lt bytes
  rw [length, ← patterns_eq] at below
  rw [encode_hold]
  cases read : (Datum.ofBits (BigEndian.toNat bytes) : Datum type.format) with
  | nan negative =>
      rw [read] at number
      exact absurd (type.hold_nan negative) (number negative)
  | number negative rank bounded =>
      rw [Datum.toBits_of_ofBits below read, ← length, BigEndian.ofNat_toNat]

end FloatType

/-! ## All types -/

def Datum.IsPositiveInfinity {format : BinaryFormat} (datum : Datum format) : Prop :=
  ∃ bounded, datum = .number false format.topRank bounded

namespace NumericType

/-- The numbers that the cells of a type can stand for. -/
def Holds : (type : NumericType) → type.Value → Prop
  | integer type, number => type.Holds number
  | float type, datum => type.Holds datum

/-- Whether the text of a number is a literal. The other texts are words of letters. -/
def HasLiteral : (type : NumericType) → type.Value → Prop
  | integer _, _ => True
  | float _, datum => (∀ negative, datum ≠ .nan negative) ∧ ¬datum.IsPositiveInfinity

variable {type : NumericType} {bytes : Bytes} {value : type.Value}

theorem decode_of_length (length : bytes.length = type.width) :
    ∃ value, type.decode bytes = .ok value := by
  cases type with
  | integer type => exact ⟨_, if_pos length⟩
  | float type => exact ⟨_, FloatType.decode_of_length length⟩

theorem length_of_decode (decoded : type.decode bytes = .ok value) :
    bytes.length = type.width := by
  cases type with
  | integer type => exact (IntegerType.decode_eq_ok_iff.mp decoded).1
  | float type => exact FloatType.length_of_decode decoded

theorem holds_of_decode (decoded : type.decode bytes = .ok value) : type.Holds value := by
  cases type with
  | integer type => exact (IntegerType.decode_eq_ok_iff.mp decoded).2.1
  | float type =>
      have length := FloatType.length_of_decode decoded
      rw [decode, FloatType.decode_of_length length] at decoded
      exact ⟨_, Except.ok.inj decoded⟩

theorem encode_of_holds (holds : type.Holds value) :
    ∃ bytes, type.encode value = .ok bytes ∧ type.decode bytes = .ok value := by
  cases type with
  | integer type => exact IntegerType.encode_of_holds holds
  | float type =>
      obtain ⟨held, rfl⟩ := holds
      exact ⟨_, rfl, type.decode_encode held⟩

theorem encode_of_decode (decoded : type.decode bytes = .ok value)
    (literal : type.HasLiteral value) : type.encode value = .ok bytes := by
  cases type with
  | integer type => exact IntegerType.encode_of_decode decoded
  | float type => exact congrArg Except.ok (FloatType.encode_of_decode decoded literal.1)

end NumericType

end WordTape
