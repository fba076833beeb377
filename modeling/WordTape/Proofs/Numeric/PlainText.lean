import WordTape.Proofs.Numeric.DecimalText
import WordTape.Proofs.Numeric.FewestFigures

/-!
# Plain texts

Finite data are written without an exponent, without zeros in front of the whole part and
without zeros at the end of a fraction.
-/

set_option autoImplicit false

namespace WordTape

namespace Decimal

private theorem exists_head_ofNat {number : Nat} (positive : 0 < number) :
    ∃ first rest, ofNat number = first :: rest ∧ first ≠ 48 := by
  have notZero : ∀ value < 10, 0 < value → digit value ≠ 48 := by decide
  fun_induction ofNat number with
  | case1 number small => exact ⟨digit number, [], rfl, notZero number small positive⟩
  | case2 number large ih =>
      obtain ⟨first, rest, front, nonzero⟩ := ih (by omega)
      exact ⟨first, _, by rw [front, List.cons_append], nonzero⟩

private theorem getLast?_ofNat (number : Nat) :
    (ofNat number).getLast? = some (digit (number % 10)) := by
  fun_cases ofNat number with
  | case1 small => rw [Nat.mod_eq_of_lt small, List.getLast?_singleton]
  | case2 large => rw [List.getLast?_append, List.getLast?_singleton, Option.some_or]

private theorem digit_ne_zero {value : Nat} (below : value < 10) (nonzero : value ≠ 0) :
    digit value ≠ 48 := by
  have table : ∀ value < 10, value ≠ 0 → digit value ≠ 48 := by decide
  exact table value below nonzero

end Decimal

/-- An optional minus, a whole part that is zero or starts with another digit, and perhaps a
point and a fraction that ends with another digit than zero. -/
structure DecimalText.Plain (decimal : DecimalText) : Prop where
  sign : decimal.sign ≠ .plus
  whole : decimal.whole = [48] ∨ ∃ first rest, decimal.whole = first :: rest ∧ first ≠ 48
  fraction : ∀ digits ∈ decimal.fraction?, ∃ last, digits.getLast? = some last ∧ last ≠ 48
  exponent : decimal.exponent? = none
  lineFeed : decimal.lineFeed = false

/-- A decimal that is zero or has no superfluous zero. -/
def ScaledDecimal.IsReduced (decimal : ScaledDecimal) : Prop :=
  decimal.digits % 10 ≠ 0 ∨ decimal = { digits := 0, exponent := 0 }

/-- The whole part and the fraction of the positional text of a decimal. -/
structure ScaledDecimal.Parts (decimal : ScaledDecimal) (whole : Bytes)
    (fraction? : Option Bytes) : Prop where
  text : decimal.positional =
    whole ++ match fraction? with
      | none => []
      | some digits => 46 :: digits
  wholeDigits : whole.all Decimal.isDigit = true
  wholeForm : whole = [48] ∨ ∃ first rest, whole = first :: rest ∧ first ≠ 48
  fractionDigits : (fraction?.getD []).all Decimal.isDigit = true
  fractionForm : ∀ digits ∈ fraction?, ∃ last, digits.getLast? = some last ∧ last ≠ 48
  significand : Decimal.value (whole ++ fraction?.getD []) =
    decimal.digits * 10 ^ decimal.exponent.toNat
  places : (fraction?.getD []).length = (-decimal.exponent).toNat

namespace ScaledDecimal

variable {decimal : ScaledDecimal} {whole : Bytes} {fraction? : Option Bytes}

private theorem exists_parts_integral (reduced : decimal.IsReduced)
    (integral : 0 ≤ decimal.exponent) :
    ∃ whole, decimal.Parts whole none := by
  have numeral := Decimal.all_isDigit_ofNat decimal.digits
  refine ⟨Decimal.ofNat decimal.digits ++ List.replicate decimal.exponent.toNat 48, ?_, ?_, ?_,
    rfl, nofun, ?_, ?_⟩
  · simp only [positional, integral, ↓reduceIte, List.append_nil]
  · rw [List.all_append, numeral, Decimal.all_isDigit_zeros, Bool.and_self]
  · rcases reduced with nonzero | zero
    · obtain ⟨first, rest, front, notZero⟩ :=
        Decimal.exists_head_ofNat (show 0 < decimal.digits by omega)
      exact .inr ⟨first, _, by rw [front, List.cons_append], notZero⟩
    · rw [zero]
      exact .inl (by decide +kernel)
  · rw [Option.getD_none, List.append_nil, Decimal.value_append_zeros, Decimal.value_ofNat]
  · rw [Option.getD_none, List.length_nil]
    omega

/-- The part of padded digits before the last places. -/
private theorem wholeForm_take {digits places : Nat} (positive : 0 < digits) :
    (Bytes.padLeft (places + 1) 48 (Decimal.ofNat digits)).take
        ((Bytes.padLeft (places + 1) 48 (Decimal.ofNat digits)).length - places) = [48] ∨
      ∃ first rest, (Bytes.padLeft (places + 1) 48 (Decimal.ofNat digits)).take
        ((Bytes.padLeft (places + 1) 48 (Decimal.ofNat digits)).length - places) = first :: rest ∧
          first ≠ 48 := by
  obtain ⟨first, rest, front, notZero⟩ := Decimal.exists_head_ofNat positive
  have length : (Decimal.ofNat digits).length = rest.length + 1 := by
    rw [front, List.length_cons]
  rcases Nat.lt_or_ge places (Decimal.ofNat digits).length with long | short
  · have unpadded : places + 1 - (Decimal.ofNat digits).length = 0 := by omega
    obtain ⟨more, kept⟩ := Nat.exists_eq_add_of_lt long
    have count : (Decimal.ofNat digits).length - places = more + 1 := by omega
    rw [Bytes.padLeft, unpadded, List.replicate_zero, List.nil_append, count, front,
      List.take_succ_cons]
    exact .inr ⟨first, _, rfl, notZero⟩
  · obtain ⟨zeros, padded⟩ := Nat.exists_eq_add_of_le short
    have count : places + 1 - (Decimal.ofNat digits).length = zeros + 1 := by omega
    have one : zeros + 1 + (Decimal.ofNat digits).length - places = 1 := by omega
    rw [Bytes.padLeft, count, List.length_append, List.length_replicate, one,
      List.replicate_succ, List.cons_append, List.take_succ_cons, List.take_zero]
    exact .inl rfl

private theorem exists_parts_fractional (reduced : decimal.IsReduced)
    (fractional : decimal.exponent < 0) :
    ∃ whole digits, decimal.Parts whole (some digits) := by
  obtain ⟨digits, exponent⟩ := decimal
  obtain ⟨places, positive, rfl⟩ : ∃ places : Nat, 0 < places ∧ exponent = -places :=
    ⟨exponent.natAbs, by dsimp only at fractional; omega, by dsimp only at fractional; omega⟩
  have nonzero : digits % 10 ≠ 0 := by
    refine reduced.resolve_right fun zero => ?_
    have none := congrArg ScaledDecimal.exponent zero
    dsimp only at none
    omega
  have form := @wholeForm_take digits places (by omega)
  have all : (Bytes.padLeft (places + 1) 48 (Decimal.ofNat digits)).all Decimal.isDigit = true := by
    rw [Bytes.padLeft, List.all_append, Decimal.all_isDigit_ofNat, Decimal.all_isDigit_zeros,
      Bool.and_self]
  have last : (Bytes.padLeft (places + 1) 48 (Decimal.ofNat digits)).getLast? =
      some (Decimal.digit (digits % 10)) := by
    rw [Bytes.padLeft, List.getLast?_append, Decimal.getLast?_ofNat, Option.some_or]
  have value := Decimal.value_padLeft (places + 1) (Decimal.ofNat digits)
  have length : places < (Bytes.padLeft (places + 1) 48 (Decimal.ofNat digits)).length := by
    rw [Bytes.padLeft, List.length_append, List.length_replicate]
    omega
  have text : ({ digits, exponent := -places } : ScaledDecimal).positional =
      (Bytes.padLeft (places + 1) 48 (Decimal.ofNat digits)).take
          ((Bytes.padLeft (places + 1) 48 (Decimal.ofNat digits)).length - places) ++
        46 :: (Bytes.padLeft (places + 1) 48 (Decimal.ofNat digits)).drop
          ((Bytes.padLeft (places + 1) 48 (Decimal.ofNat digits)).length - places) := by
    simp only [positional, Int.not_le.mpr fractional, ↓reduceIte, Int.neg_neg, Int.toNat_natCast]
  generalize Bytes.padLeft (places + 1) 48 (Decimal.ofNat digits) = padded at *
  have inside := List.all_eq_true.mp all
  refine ⟨_, _, text, ?_, form, ?_, ?_, ?_, ?_⟩
  · exact List.all_eq_true.mpr fun byte member => inside byte (List.mem_of_mem_take member)
  · exact List.all_eq_true.mpr fun byte member => inside byte (List.mem_of_mem_drop member)
  · rintro _ ⟨⟩
    refine ⟨_, ?_, Decimal.digit_ne_zero (Nat.mod_lt _ (by omega)) nonzero⟩
    rw [List.getLast?_drop, if_neg (by omega), last]
  · have whole : (-(places : Int)).toNat = 0 := by omega
    rw [Option.getD_some, List.take_append_drop, value, Decimal.value_ofNat, whole, Nat.pow_zero,
      Nat.mul_one]
  · rw [Option.getD_some, List.length_drop]
    dsimp only
    omega

private theorem Parts.value_eq (parts : decimal.Parts whole fraction?) :
    (Decimal.value whole + Decimal.value (fraction?.getD []) /
      10 ^ (fraction?.getD []).length : ℚ) = decimal.value := by
  have digits : (Decimal.value whole * 10 ^ (fraction?.getD []).length +
      Decimal.value (fraction?.getD []) : ℚ) =
        decimal.digits * 10 ^ decimal.exponent.toNat := by
    exact_mod_cast (Decimal.value_append _ _).symm.trans parts.significand
  have exponent : decimal.exponent =
      (decimal.exponent.toNat : Int) - (fraction?.getD []).length := by
    rw [parts.places]
    omega
  rw [ScaledDecimal.value, exponent, zpow_sub₀ (by norm_num), zpow_natCast, zpow_natCast,
    ← mul_div_assoc, ← digits, eq_div_iff (by positivity), add_mul,
    div_mul_cancel₀ _ (by positivity)]

/-- The text of a decimal without superfluous zeros is plain, and stands for the decimal. -/
theorem exists_plain (reduced : decimal.IsReduced) (negative : Bool) :
    ∃ own : DecimalText, own.Plain ∧ own.sign.isNegative = negative ∧
      own.text = (if negative then [45] else []) ++ decimal.positional ∧
      own.magnitude = decimal.value := by
  obtain ⟨whole, fraction?, parts⟩ : ∃ whole fraction?, decimal.Parts whole fraction? := by
    rcases Int.lt_or_le decimal.exponent 0 with fractional | integral
    · obtain ⟨whole, digits, parts⟩ := exists_parts_fractional reduced fractional
      exact ⟨whole, some digits, parts⟩
    · obtain ⟨whole, parts⟩ := exists_parts_integral reduced integral
      exact ⟨whole, none, parts⟩
  have nonempty : whole ≠ [] := by
    rcases parts.wholeForm with zero | ⟨first, rest, front, -⟩
    · rw [zero]
      exact List.cons_ne_nil _ _
    · rw [front]
      exact List.cons_ne_nil _ _
  refine ⟨{ sign := if negative then .minus else .none, whole, fraction?, exponent? := none
            lineFeed := false, wholeDigits := parts.wholeDigits
            fractionDigits := parts.fractionDigits
            someDigits := List.append_ne_nil_of_left_ne_nil nonempty _ },
    ⟨?_, parts.wholeForm, parts.fractionForm, rfl, rfl⟩, ?_, ?_, ?_⟩
  · cases negative <;> exact nofun
  · cases negative <;> rfl
  · rw [parts.text]
    cases negative <;> cases fraction? <;>
      simp [DecimalText.text, DecimalText.unsignedText, DecimalText.fractionText,
        DecimalText.exponentText, SignText.text]
  · rw [← parts.value_eq, DecimalText.magnitude]
    simp [DecimalText.exponent, DecimalText.fraction]

end ScaledDecimal

end WordTape
