import Mathlib.Data.Nat.Digits.Defs
import WordTape.Proofs.Numeric.Codec

/-!
# Integers on cells

The cells of an integer hold it in two's complement, most significant byte first. Every number
in range has its cells and every row of cells its number, so that a signed and an unsigned type
of one width share their cells: they read them alike below the sign bit, and apart from it by
the number of all patterns.
-/

set_option autoImplicit false

namespace WordTape

namespace BigEndian

theorem toNat_eq_ofDigits (bytes : Bytes) :
    toNat bytes = Nat.ofDigits 256 (bytes.reverse.map UInt8.toNat) := by
  induction bytes using List.reverseRecOn with
  | nil => rfl
  | append_singleton bytes byte ih =>
      rw [toNat_append_singleton, List.reverse_append, List.reverse_singleton,
        List.singleton_append, List.map_cons, Nat.ofDigits_cons, ih, Nat.add_comm]

private theorem toNat_cons (first : UInt8) (rest : Bytes) :
    toNat (first :: rest) = first.toNat * 256 ^ rest.length + toNat rest := by
  induction rest using List.reverseRecOn with
  | nil => simp [toNat]
  | append_singleton rest byte ih =>
      rw [← List.cons_append, toNat_append_singleton, ih, toNat_append_singleton,
        List.length_append, List.length_singleton, Nat.pow_succ]
      ring

end BigEndian

namespace IntegerType

variable {type : IntegerType} {number : Int} {bytes : Bytes}

private theorem patterns_eq (type : IntegerType) : type.patterns = 2 ^ (8 * type.width) := by
  rw [Nat.pow_mul]
  rfl

private theorem range_eq (type : IntegerType) :
    type.least = (if type.isSigned then -2 ^ (8 * type.width - 1) else 0) ∧
      type.greatest =
        (if type.isSigned then 2 ^ (8 * type.width - 1) else 2 ^ (8 * type.width)) - 1 := by
  cases type <;> decide +kernel

theorem greatest_eq (type : IntegerType) :
    2 * (type.greatest + 1) =
      if type.isSigned then (type.patterns : Int) else 2 * type.patterns := by
  cases type <;> decide +kernel

/-- A row of cells stands for a pattern beyond the first half of all patterns if and only if
its first byte is beyond the first half of all bytes. -/
theorem patterns_le_iff {first : UInt8} {rest : Bytes}
    (length : (first :: rest).length = type.width) :
    type.patterns ≤ 2 * BigEndian.toNat (first :: rest) ↔ 128 ≤ first.toNat := by
  have below := BigEndian.toNat_lt rest
  have patterns : type.patterns = 256 * 256 ^ rest.length := by
    rw [patterns, ← length]
    exact Nat.pow_succ'
  rw [patterns, BigEndian.toNat_cons]
  constructor
  · intro beyond
    by_contra small
    have scaled := Nat.mul_le_mul_right (256 ^ rest.length) (Nat.lt_of_not_le small)
    rw [Nat.succ_mul] at scaled
    omega
  · intro lead
    have scaled := Nat.mul_le_mul_right (256 ^ rest.length) lead
    omega

private theorem decode_unsigned (unsigned : type.isSigned = false)
    (length : bytes.length = type.width) :
    type.decode bytes = .ok (BigEndian.toNat bytes : Nat) := by
  have below := pattern_lt length
  have greatest := type.greatest_eq
  rw [unsigned, if_neg Bool.false_ne_true] at greatest
  simp only [decode, length, ↓reduceIte]
  rw [if_neg (by omega)]

private theorem decode_signed (signed : type.isSigned = true) {first : UInt8} {rest : Bytes}
    (length : (first :: rest).length = type.width) :
    type.decode (first :: rest) = .ok ((BigEndian.toNat (first :: rest) : Nat) -
      if 128 ≤ first.toNat then type.patterns else 0) := by
  have greatest := type.greatest_eq
  rw [signed, if_pos rfl] at greatest
  simp only [decode, length, ↓reduceIte, ← patterns_le_iff length]
  generalize BigEndian.toNat (first :: rest) = pattern
  split
  · rw [if_pos (by omega)]
  · rw [if_neg (by omega), Nat.cast_zero, sub_zero]

theorem encode_eq_ok_iff : type.encode number = .ok bytes ↔
    type.Holds number ∧ bytes.length = type.width ∧
      number % type.patterns = (BigEndian.toNat bytes : Nat) := by
  constructor
  · intro encoded
    have holds : type.Holds number := by
      unfold encode at encoded
      split at encoded
      · assumption
      · cases encoded
    obtain ⟨found, same, decoded⟩ := encode_of_holds holds
    cases same.symm.trans encoded
    obtain ⟨length, -, pattern⟩ := decode_eq_ok_iff.mp decoded
    exact ⟨holds, length, pattern⟩
  · rintro ⟨holds, length, pattern⟩
    exact encode_of_decode (decode_eq_ok_iff.mpr ⟨length, holds, pattern⟩)

/-- Laying out and reading are inverse to each other. -/
theorem encode_eq_ok_iff_decode :
    type.encode number = .ok bytes ↔ type.decode bytes = .ok number := by
  rw [encode_eq_ok_iff, decode_eq_ok_iff, and_left_comm]

/-- A number has cells of a type if and only if it is in range, which is centred on zero for a
signed type and begins there for an unsigned one. The cells are as many as the type is
wide, have the value of the number modulo the number of patterns in base 256, and are read as
the number again. Any cells of that width are read as a number in range, which has these cells.
An unsigned type reads the cells of a signed one as a number that is greater by the number of
patterns if the first byte is 128 or more, and else as the same number. -/
theorem cells_are_twos_complement (type : IntegerType) :
    (type.least = (if type.isSigned then -2 ^ (8 * type.width - 1) else 0) ∧
        type.greatest =
          (if type.isSigned then 2 ^ (8 * type.width - 1) else 2 ^ (8 * type.width)) - 1) ∧
      (∀ number, (∃ bytes, type.encode number = .ok bytes) ↔
        type.least ≤ number ∧ number ≤ type.greatest) ∧
      (∀ number bytes, type.encode number = .ok bytes →
        bytes.length = type.width ∧
          (Nat.ofDigits 256 (bytes.reverse.map UInt8.toNat) : Int) =
            number % 2 ^ (8 * type.width) ∧
          type.decode bytes = .ok number) ∧
      (∀ bytes, bytes.length = type.width → ∃ number, type.decode bytes = .ok number ∧
        type.least ≤ number ∧ number ≤ type.greatest ∧ type.encode number = .ok bytes) ∧
      ∀ unsigned : IntegerType, type.isSigned = true → unsigned.isSigned = false →
        unsigned.width = type.width → ∀ first rest, (first :: rest).length = type.width →
          ∃ number natural, type.decode (first :: rest) = .ok number ∧
            unsigned.decode (first :: rest) = .ok natural ∧
            natural - number = if 128 ≤ first.toNat then 2 ^ (8 * type.width) else 0 := by
  refine ⟨type.range_eq, fun number => ⟨?_, fun holds => ?_⟩, fun number bytes encoded => ?_,
    fun bytes length => ?_, fun unsigned isSigned isUnsigned width first rest length => ?_⟩
  · rintro ⟨bytes, encoded⟩
    exact (encode_eq_ok_iff.mp encoded).1
  · obtain ⟨bytes, encoded, -⟩ := encode_of_holds holds
    exact ⟨bytes, encoded⟩
  · obtain ⟨-, length, pattern⟩ := encode_eq_ok_iff.mp encoded
    rw [patterns_eq, BigEndian.toNat_eq_ofDigits] at pattern
    push_cast at pattern
    exact ⟨length, pattern.symm, encode_eq_ok_iff_decode.mp encoded⟩
  · obtain ⟨number, decoded⟩ : ∃ number, type.decode bytes = .ok number :=
      @NumericType.decode_of_length (.integer type) bytes length
    obtain ⟨-, ⟨least, greatest⟩, -⟩ := decode_eq_ok_iff.mp decoded
    exact ⟨number, decoded, least, greatest, encode_of_decode decoded⟩
  · refine ⟨_, _, decode_signed isSigned length,
      decode_unsigned isUnsigned (length.trans width.symm), ?_⟩
    rw [sub_sub_cancel, patterns_eq]
    split
    · push_cast
      rfl
    · rfl

/-- The cells of minus two are those of the number two below the count of all patterns. -/
theorem minus_two_on_cells :
    i16.encode (-2) = .ok [0xFF, 0xFE] ∧ i16.decode [0xFF, 0xFE] = .ok (-2) ∧
      u16.width = i16.width ∧ [0xFF, 0xFE].length = i16.width ∧
      ∃ number natural, i16.decode [0xFF, 0xFE] = .ok number ∧
        u16.decode [0xFF, 0xFE] = .ok natural ∧ natural - number = 2 ^ 16 := by
  obtain ⟨-, -, laidOut, -, shared⟩ := cells_are_twos_complement .i16
  have encoded : i16.encode (-2) = .ok [0xFF, 0xFE] := by decide +kernel
  obtain ⟨-, -, decoded⟩ := laidOut (-2) _ encoded
  exact ⟨encoded, decoded, rfl, rfl, shared .u16 rfl rfl rfl 0xFF [0xFE] rfl⟩

end IntegerType

end WordTape
