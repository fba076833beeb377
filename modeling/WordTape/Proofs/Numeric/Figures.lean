import Mathlib.Data.List.TakeDrop
import WordTape.Numeric.Literal
import WordTape.Numeric.Shortest
import WordTape.Proofs.Numeric.Decimal
import WordTape.Proofs.Token.Words

/-!
# Numerals with a sign and a point

The text of a number is a sign and digits, with a point between them if the number has
a fraction. Such a text is a word that counts as a literal and is taken apart again as
it was put together.
-/

set_option autoImplicit false

namespace WordTape

/-- The digits of a number: some before the point and perhaps some behind it. -/
structure Figures where
  whole : Bytes
  fraction : Bytes
  wholeDigits : Literal.isDigitRun whole = true
  fractionDigits : fraction.all Decimal.isDigit = true

namespace Figures

def text (figures : Figures) : Bytes :=
  if figures.fraction = [] then figures.whole
  else figures.whole ++ 46 :: figures.fraction

def signed (negative : Bool) (figures : Figures) : Bytes :=
  if negative then 45 :: figures.text else figures.text

def literal (figures : Figures) : DecimalLiteral where
  whole := figures.whole
  fraction := figures.fraction
  exponentNegative := false
  exponentDigits := []

/-- What the other tests say of a digit. -/
theorem of_isDigit {byte : UInt8} (digit : Decimal.isDigit byte = true) :
    Lexer.isBlank byte = false ∧ Lexer.isLetter byte = false ∧ byte ≠ 43 ∧ byte ≠ 45 := by
  have table : ∀ value < 256, Decimal.isDigit (UInt8.ofNat value) = true →
      Lexer.isBlank (UInt8.ofNat value) = false ∧ Lexer.isLetter (UInt8.ofNat value) = false ∧
        UInt8.ofNat value ≠ 43 ∧ UInt8.ofNat value ≠ 45 := by decide +kernel
  have known := table byte.toNat byte.toNat_lt
  rw [UInt8.ofNat_toNat] at known
  exact known digit

variable (figures : Figures)

theorem all_isDigit_whole : figures.whole.all Decimal.isDigit = true := by
  have digits := figures.wholeDigits
  simp only [Literal.isDigitRun, Bool.and_eq_true] at digits
  exact digits.2

theorem whole_ne_nil : figures.whole ≠ [] := by
  have digits := figures.wholeDigits
  simp only [Literal.isDigitRun, Bool.and_eq_true] at digits
  simpa using digits.1

theorem exists_text_cons :
    ∃ digit rest, Decimal.isDigit digit = true ∧ figures.text = digit :: rest := by
  have nonempty := figures.whole_ne_nil
  have digits := List.all_eq_true.mp figures.all_isDigit_whole
  rw [text]
  cases whole : figures.whole with
  | nil => contradiction
  | cons digit rest =>
      have isDigit : Decimal.isDigit digit = true := digits digit (by simp [whole])
      split
      · exact ⟨digit, rest, isDigit, rfl⟩
      · exact ⟨digit, _, isDigit, rfl⟩

private theorem mem_text {byte : UInt8} (member : byte ∈ figures.text) :
    byte = 46 ∨ Decimal.isDigit byte = true := by
  have inWhole := List.all_eq_true.mp figures.all_isDigit_whole
  have inFraction := List.all_eq_true.mp figures.fractionDigits
  rw [text] at member
  split at member
  · exact .inr (inWhole byte member)
  · rcases List.mem_append.mp member with before | behind
    · exact .inr (inWhole byte before)
    · rcases List.mem_cons.mp behind with point | behind
      · exact .inl point
      · exact .inr (inFraction byte behind)

theorem isWord_signed (negative : Bool) : Lexer.IsWord (figures.signed negative) := by
  obtain ⟨digit, rest, -, first⟩ := figures.exists_text_cons
  have solid : ∀ byte ∈ figures.text, Lexer.isBlank byte = false := by
    intro byte member
    rcases figures.mem_text member with point | digit
    · rw [point]
      rfl
    · exact (of_isDigit digit).1
  cases negative with
  | false =>
      refine ⟨?_, solid⟩
      rw [signed, first]
      exact List.cons_ne_nil digit rest
  | true =>
      refine ⟨List.cons_ne_nil _ _, ?_⟩
      intro byte member
      rcases List.mem_cons.mp member with minus | member
      · rw [minus]
        rfl
      · exact solid byte member

theorem classify_signed (negative : Bool) :
    Lexer.classify (figures.signed negative) = .number := by
  cases negative with
  | true => rfl
  | false =>
      obtain ⟨digit, rest, isDigit, first⟩ := figures.exists_text_cons
      have notLetter := (of_isDigit isDigit).2.1
      rw [signed, first]
      simp only [Bool.false_eq_true, ↓reduceIte, Lexer.classify, notLetter, Lexer.isNumeric,
        isDigit, Bool.true_or]

theorem splitSign_signed {admitsMinus negative : Bool}
    (admitted : negative = true → admitsMinus = true) :
    Literal.splitSign admitsMinus (figures.signed negative) = (negative, figures.text) := by
  cases negative with
  | true => simp [signed, Literal.splitSign, admitted rfl]
  | false =>
      obtain ⟨digit, rest, isDigit, first⟩ := figures.exists_text_cons
      obtain ⟨-, -, notPlus, notMinus⟩ := of_isDigit isDigit
      rw [signed, first]
      simp [Literal.splitSign, notPlus, notMinus]

/-- Digits are taken up to the first byte that is none. -/
theorem span_isDigit {digits rest : Bytes} (inside : digits.all Decimal.isDigit = true)
    (boundary : ∀ byte, rest.head? = some byte → Decimal.isDigit byte = false) :
    (digits ++ rest).span Decimal.isDigit = (digits, rest) := by
  have all := List.all_eq_true.mp inside
  rw [List.span_eq_takeWhile_dropWhile, List.takeWhile_append_of_pos all,
    List.dropWhile_append_of_pos all]
  cases rest with
  | nil => simp
  | cons byte rest => simp [boundary byte rfl]

theorem ofText?_text : DecimalLiteral.ofText? figures.text = some figures.literal := by
  have nonempty := figures.whole_ne_nil
  have ended (digits : Bytes) (inside : digits.all Decimal.isDigit = true) :
      digits.span Decimal.isDigit = (digits, []) := by
    have boundary : ∀ byte, ([] : Bytes).head? = some byte →
        Decimal.isDigit byte = false := by simp
    have spanned := span_isDigit inside boundary
    rwa [List.append_nil] at spanned
  rw [text]
  split
  · rename_i none
    simp only [DecimalLiteral.ofText?, ended figures.whole figures.all_isDigit_whole]
    simp [nonempty, DecimalLiteral.exponentPart?, literal, none]
  · have point : (figures.whole ++ 46 :: figures.fraction).span Decimal.isDigit =
        (figures.whole, 46 :: figures.fraction) := by
      apply span_isDigit figures.all_isDigit_whole
      intro byte first
      cases first
      rfl
    simp only [DecimalLiteral.ofText?, point, ended figures.fraction figures.fractionDigits]
    simp [nonempty, DecimalLiteral.exponentPart?, literal]

private theorem significand_literal :
    figures.literal.significand = Decimal.value (figures.whole ++ figures.fraction) := rfl

private theorem scale_literal : figures.literal.scale = -(figures.fraction.length : Int) := by
  simp [literal, DecimalLiteral.scale, Decimal.value]

theorem excess?_literal
    (short : (figures.whole ++ figures.fraction).length ≤ Literal.digitLimit) :
    figures.literal.excess? = none := by
  rw [List.length_append] at short
  have whole : ¬Literal.digitLimit < figures.whole.length := by omega
  have fraction : ¬Literal.digitLimit < figures.fraction.length := by omega
  simp [DecimalLiteral.excess?, literal, whole, fraction]

end Figures

/-! ## Texts of decimals -/

theorem Literal.isDigitRun_of {text : Bytes} (nonempty : text ≠ [])
    (digits : text.all Decimal.isDigit = true) : isDigitRun text = true := by
  simp [isDigitRun, nonempty, digits]

theorem Decimal.isDigitRun_ofNat (number : Nat) :
    Literal.isDigitRun (ofNat number) = true :=
  Literal.isDigitRun_of (ofNat_ne_nil number) (all_isDigit_ofNat number)

def Figures.ofNat (number : Nat) : Figures where
  whole := Decimal.ofNat number
  fraction := []
  wholeDigits := Decimal.isDigitRun_ofNat number
  fractionDigits := rfl

theorem Decimal.ofInt_eq (number : Int) :
    Decimal.ofInt number = (Figures.ofNat number.natAbs).signed (decide (number < 0)) := by
  cases number with
  | ofNat number => simp [Decimal.ofInt, Figures.signed, Figures.text, Figures.ofNat]
  | negSucc predecessor =>
      simp [Decimal.ofInt, Figures.signed, Figures.text, Figures.ofNat, Int.negSucc_lt_zero]

theorem Decimal.isWord_ofInt (number : Int) : Lexer.IsWord (Decimal.ofInt number) := by
  rw [Decimal.ofInt_eq]
  exact Figures.isWord_signed _ _

/-- Digits with a point put before the last places. -/
theorem Figures.exists_split {digits : Bytes} (all : digits.all Decimal.isDigit = true)
    {places : Nat} (positive : 0 < places) (more : places < digits.length) :
    ∃ figures : Figures,
      figures.text = digits.take (digits.length - places) ++
        46 :: digits.drop (digits.length - places) ∧
      figures.whole ++ figures.fraction = digits ∧ figures.fraction.length = places := by
  have inside := List.all_eq_true.mp all
  have nonempty : digits.take (digits.length - places) ≠ [] := by
    intro empty
    have none := congrArg List.length empty
    rw [List.length_take, List.length_nil] at none
    omega
  have wholeDigits : (digits.take (digits.length - places)).all Decimal.isDigit = true :=
    List.all_eq_true.mpr fun byte member => inside byte (List.mem_of_mem_take member)
  have fractionDigits : (digits.drop (digits.length - places)).all Decimal.isDigit = true :=
    List.all_eq_true.mpr fun byte member => inside byte (List.mem_of_mem_drop member)
  have length : (digits.drop (digits.length - places)).length = places := by
    rw [List.length_drop]
    omega
  have some : digits.drop (digits.length - places) ≠ [] := by
    intro empty
    rw [empty, List.length_nil] at length
    omega
  refine ⟨⟨_, _, Literal.isDigitRun_of nonempty wholeDigits, fractionDigits⟩, ?_, ?_, length⟩
  · simp only [Figures.text, some, ↓reduceIte]
  · exact List.take_append_drop _ digits

/-- The positional text of a decimal shows its digits, with the point where the exponent
puts it. -/
theorem ScaledDecimal.exists_figures (decimal : ScaledDecimal) :
    ∃ figures : Figures, decimal.positional = figures.text ∧
      figures.literal.significand = decimal.digits * 10 ^ decimal.exponent.toNat ∧
      figures.literal.scale = min decimal.exponent 0 ∧
      (figures.whole ++ figures.fraction).length ≤
        (Decimal.ofNat decimal.digits).length + decimal.exponent.natAbs + 1 := by
  obtain ⟨digits, exponent⟩ := decimal
  have numeral := Decimal.all_isDigit_ofNat digits
  by_cases integral : 0 ≤ exponent
  · have all : (Decimal.ofNat digits ++ List.replicate exponent.toNat 48).all
        Decimal.isDigit = true := by
      rw [List.all_append, numeral, Decimal.all_isDigit_zeros, Bool.and_self]
    have nonempty : Decimal.ofNat digits ++ List.replicate exponent.toNat 48 ≠ [] :=
      List.append_ne_nil_of_left_ne_nil (Decimal.ofNat_ne_nil digits) _
    refine ⟨⟨_, [], Literal.isDigitRun_of nonempty all, rfl⟩, ?_, ?_, ?_, ?_⟩
    · simp only [positional, integral, ↓reduceIte, Figures.text]
    · simp only [Figures.significand_literal, List.append_nil, Decimal.value_append_zeros,
        Decimal.value_ofNat]
    · simp only [Figures.scale_literal, List.length_nil]
      omega
    · simp only [List.append_nil, List.length_append, List.length_replicate]
      omega
  · obtain ⟨places, positive, negative⟩ : ∃ places : Nat, 0 < places ∧ exponent = -places :=
      ⟨exponent.natAbs, by omega, by omega⟩
    subst negative
    have all : (Bytes.padLeft (places + 1) 48 (Decimal.ofNat digits)).all
        Decimal.isDigit = true := by
      rw [Bytes.padLeft, List.all_append, numeral, Decimal.all_isDigit_zeros, Bool.and_self]
    have length : (Bytes.padLeft (places + 1) 48 (Decimal.ofNat digits)).length =
        max (places + 1) (Decimal.ofNat digits).length := by
      rw [Bytes.padLeft, List.length_append, List.length_replicate]
      omega
    obtain ⟨figures, text, joined, fraction⟩ :=
      Figures.exists_split all positive (by omega)
    refine ⟨figures, ?_, ?_, ?_, ?_⟩
    · simp only [positional, integral, ↓reduceIte, Int.neg_neg, Int.toNat_natCast, text]
    · have whole : (-(places : Int)).toNat = 0 := by omega
      rw [Figures.significand_literal, joined, Decimal.value_padLeft, Decimal.value_ofNat,
        whole, Nat.pow_zero, Nat.mul_one]
    · rw [Figures.scale_literal, fraction]
      dsimp only
      omega
    · rw [joined, length]
      dsimp only
      omega

end WordTape
