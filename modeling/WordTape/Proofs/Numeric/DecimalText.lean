import WordTape.Proofs.Numeric.Literal

/-!
# Decimal texts

A decimal text has an optional sign, digits with an optional point before, among or behind
them, an optional exponent, and perhaps a line feed at its end. It stands for a rational
number, and is read as the literal with its parts.
-/

set_option autoImplicit false

namespace WordTape

inductive SignText where
  | none
  | plus
  | minus
deriving DecidableEq, Repr

namespace SignText

def text : SignText → Bytes
  | none => []
  | plus => [43]
  | minus => [45]

def isNegative (sign : SignText) : Bool :=
  sign = minus

theorem splitSign_text (sign : SignText) {admitsMinus : Bool}
    (admitted : sign = minus → admitsMinus = true) {rest : Bytes}
    (unsigned : ∀ byte, rest.head? = some byte → byte ≠ 43 ∧ byte ≠ 45) :
    Literal.splitSign admitsMinus (sign.text ++ rest) = (sign.isNegative, rest) := by
  cases sign with
  | plus => rfl
  | minus =>
      rw [admitted rfl]
      rfl
  | none =>
      cases rest with
      | nil => rfl
      | cons byte rest =>
          obtain ⟨notPlus, notMinus⟩ := unsigned byte rfl
          simp [text, Literal.splitSign, notPlus, notMinus, isNegative]

end SignText

structure ExponentText where
  /-- Whether the exponent is marked by a capital letter. -/
  capital : Bool
  sign : SignText
  digits : Bytes
  isRun : Literal.isDigitRun digits = true

def ExponentText.text (exponent : ExponentText) : Bytes :=
  (if exponent.capital then 69 else 101) :: (exponent.sign.text ++ exponent.digits)

def ExponentText.value (exponent : ExponentText) : Int :=
  let magnitude : Int := (Decimal.value exponent.digits : Nat)
  if exponent.sign.isNegative then -magnitude else magnitude

structure DecimalText where
  sign : SignText
  whole : Bytes
  /-- The digits behind the point, if there is one. -/
  fraction? : Option Bytes
  exponent? : Option ExponentText
  lineFeed : Bool
  wholeDigits : whole.all Decimal.isDigit = true
  fractionDigits : (fraction?.getD []).all Decimal.isDigit = true
  someDigits : whole ++ fraction?.getD [] ≠ []

namespace DecimalText

variable (decimal : DecimalText)

def fraction : Bytes :=
  decimal.fraction?.getD []

def fractionText : Bytes :=
  match decimal.fraction? with
  | none => []
  | some digits => 46 :: digits

def exponentText : Bytes :=
  match decimal.exponent? with
  | none => []
  | some exponent => exponent.text

def unsignedText : Bytes :=
  decimal.whole ++ (decimal.fractionText ++ decimal.exponentText)

def text : Bytes :=
  decimal.sign.text ++ decimal.unsignedText ++ if decimal.lineFeed then [Bytes.lineFeed] else []

def exponent : Int :=
  match decimal.exponent? with
  | none => 0
  | some exponent => exponent.value

/-- The number that a text stands for, without its sign. -/
def magnitude : ℚ :=
  (Decimal.value decimal.whole +
    Decimal.value decimal.fraction / 10 ^ decimal.fraction.length) * 10 ^ decimal.exponent

theorem magnitude_nonneg : 0 ≤ decimal.magnitude := by
  rw [magnitude]
  positivity

def value : ℚ :=
  signed decimal.sign.isNegative decimal.magnitude

theorem abs_value : |decimal.value| = decimal.magnitude :=
  (abs_signed _ _).trans (abs_of_nonneg decimal.magnitude_nonneg)

/-- No run of digits is too long to be converted. -/
def Short : Prop :=
  decimal.whole.length ≤ Literal.digitLimit ∧ decimal.fraction.length ≤ Literal.digitLimit ∧
    ∀ exponent ∈ decimal.exponent?, exponent.digits.length ≤ Literal.digitLimit

def literal : DecimalLiteral where
  whole := decimal.whole
  fraction := decimal.fraction
  exponentNegative := decimal.exponent?.any fun exponent => exponent.sign.isNegative
  exponentDigits := (decimal.exponent?.map ExponentText.digits).getD []

/-! ## Reading -/

theorem not_sign_of_isDigit_head {digits : Bytes} (all : digits.all Decimal.isDigit = true) :
    ∀ byte, digits.head? = some byte → byte ≠ 43 ∧ byte ≠ 45 := by
  intro byte first
  have isDigit := List.all_eq_true.mp all byte (List.mem_of_mem_head? first)
  exact (Figures.of_isDigit isDigit).2.2

private theorem exponentPart?_exponentText :
    DecimalLiteral.exponentPart? decimal.exponentText =
      some (decimal.literal.exponentNegative, decimal.literal.exponentDigits) := by
  rw [exponentText, literal]
  cases decimal.exponent? with
  | none => rfl
  | some exponent =>
      obtain ⟨capital, sign, digits, isRun⟩ := exponent
      have all : digits.all Decimal.isDigit = true := by
        simp only [Literal.isDigitRun, Bool.and_eq_true] at isRun
        exact isRun.2
      simp only [ExponentText.text, DecimalLiteral.exponentPart?,
        sign.splitSign_text (fun _ => rfl) (not_sign_of_isDigit_head all), isRun]
      cases capital <;> rfl

theorem exponentText_cases :
    decimal.exponentText = [] ∨ ∃ mark rest, (mark = 69 ∨ mark = 101) ∧
      decimal.exponentText = mark :: rest := by
  rw [exponentText]
  cases decimal.exponent? with
  | none => exact .inl rfl
  | some exponent =>
      refine .inr ⟨_, _, ?_, rfl⟩
      cases exponent.capital
      · exact .inr rfl
      · exact .inl rfl

private theorem exponentText_notDigit (byte : UInt8)
    (first : decimal.exponentText.head? = some byte) :
    Decimal.isDigit byte = false := by
  rcases decimal.exponentText_cases with none | ⟨mark, rest, isMark, text⟩
  · rw [none] at first
    cases first
  · rw [text] at first
    cases first
    rcases isMark with rfl | rfl <;> rfl

private theorem ofText?_unsignedText :
    DecimalLiteral.ofText? decimal.unsignedText = some decimal.literal := by
  have exponentPart := decimal.exponentPart?_exponentText
  have notDigit := decimal.exponentText_notDigit
  have exponentCases := decimal.exponentText_cases
  obtain ⟨sign, whole, fraction?, exponent?, lineFeed, wholeDigits, fractionDigits, someDigits⟩ :=
    decimal
  simp only [unsignedText, fractionText, literal, fraction] at *
  generalize exponentText _ = exponentText at *
  cases fraction? with
  | none =>
      have spanned := Figures.span_isDigit wholeDigits notDigit
      have nonempty : whole.isEmpty = false := by simpa using someDigits
      simp only [DecimalLiteral.ofText?, List.nil_append, spanned]
      rcases exponentCases with none | ⟨mark, rest, isMark, text⟩
      · simp only [none] at exponentPart ⊢
        simp [exponentPart, nonempty]
      · simp only [text] at exponentPart ⊢
        rcases isMark with rfl | rfl <;> simp [exponentPart, nonempty]
  | some digits =>
      have point : ∀ byte, (46 :: (digits ++ exponentText)).head? = some byte →
          Decimal.isDigit byte = false := by
        intro byte first
        cases first
        rfl
      have nonempty : (whole.isEmpty && digits.isEmpty) = false := by
        by_contra empty
        apply someDigits
        simpa using empty
      have inside : digits.all Decimal.isDigit = true := fractionDigits
      simp only [DecimalLiteral.ofText?, List.cons_append, Figures.span_isDigit wholeDigits point,
        Figures.span_isDigit inside notDigit, exponentPart, nonempty]
      rfl

private theorem unsignedText_notSign (byte : UInt8)
    (first : decimal.unsignedText.head? = some byte) :
    byte ≠ 43 ∧ byte ≠ 45 := by
  obtain ⟨sign, whole, fraction?, exponent?, lineFeed, wholeDigits, fractionDigits, someDigits⟩ :=
    decimal
  cases whole with
  | cons digit whole => exact not_sign_of_isDigit_head wholeDigits byte first
  | nil =>
      cases fraction? with
      | none => exact absurd rfl someDigits
      | some digits =>
          cases first
          exact ⟨by decide, by decide⟩

theorem notBlank_of_mem_digits {digits : Bytes} (all : digits.all Decimal.isDigit = true)
    {byte : UInt8} (member : byte ∈ digits) : Lexer.isBlank byte = false :=
  (Figures.of_isDigit (List.all_eq_true.mp all byte member)).1

theorem notBlank_of_mem_sign {sign : SignText} {byte : UInt8} (member : byte ∈ sign.text) :
    Lexer.isBlank byte = false := by
  cases sign with
  | none => cases member
  | plus | minus =>
      rw [List.mem_singleton.mp member]
      rfl

private theorem notBlank_of_mem_exponent {byte : UInt8} (member : byte ∈ decimal.exponentText) :
    Lexer.isBlank byte = false := by
  rw [exponentText] at member
  split at member
  · cases member
  · rename_i exponent _
    have all := exponent.isRun
    simp only [Literal.isDigitRun, Bool.and_eq_true] at all
    rcases List.mem_cons.mp member with mark | member
    · rw [mark]
      cases exponent.capital <;> rfl
    · rcases List.mem_append.mp member with inSign | inDigits
      · exact notBlank_of_mem_sign inSign
      · exact notBlank_of_mem_digits all.2 inDigits

private theorem notBlank_of_mem_fraction {byte : UInt8} (member : byte ∈ decimal.fractionText) :
    Lexer.isBlank byte = false := by
  have all := decimal.fractionDigits
  rw [fractionText] at member
  split at member
  · cases member
  · rename_i digits same
    rw [same] at all
    rcases List.mem_cons.mp member with point | inDigits
    · rw [point]
      rfl
    · exact notBlank_of_mem_digits all inDigits

private theorem notBlank_of_mem {byte : UInt8}
    (member : byte ∈ decimal.sign.text ++ decimal.unsignedText) : Lexer.isBlank byte = false := by
  simp only [unsignedText, List.mem_append] at member
  rcases member with inSign | inWhole | inFraction | inExponent
  · exact notBlank_of_mem_sign inSign
  · exact notBlank_of_mem_digits decimal.wholeDigits inWhole
  · exact decimal.notBlank_of_mem_fraction inFraction
  · exact decimal.notBlank_of_mem_exponent inExponent

theorem splitSign_text :
    Literal.splitSign true (Literal.dropFinalLineFeed decimal.text) =
      (decimal.sign.isNegative, decimal.unsignedText) := by
  have solid : Bytes.lineFeed ∉ decimal.sign.text ++ decimal.unsignedText := by
    intro member
    cases decimal.notBlank_of_mem member
  rw [text, Literal.dropFinalLineFeed_append solid,
    decimal.sign.splitSign_text (fun _ => rfl) decimal.unsignedText_notSign]

private theorem scale_literal :
    decimal.literal.scale = decimal.exponent - decimal.fraction.length := by
  rw [exponent, literal, DecimalLiteral.scale]
  cases decimal.exponent? with
  | none => rfl
  | some exponent => rfl

theorem magnitude_literal : decimal.literal.magnitude = decimal.magnitude := by
  have significand : decimal.literal.significand =
      Decimal.value decimal.whole * 10 ^ decimal.fraction.length +
        Decimal.value decimal.fraction := Decimal.value_append _ _
  rw [DecimalLiteral.magnitude, scale_literal, significand, magnitude,
    zpow_sub₀ (by norm_num), zpow_natCast]
  push_cast
  field_simp

theorem excess?_literal (short : decimal.Short) : decimal.literal.excess? = none := by
  obtain ⟨whole, fraction, exponent⟩ := short
  have digits : decimal.literal.exponentDigits.length ≤ Literal.digitLimit := by
    rw [literal]
    cases given : decimal.exponent? with
    | none => exact Nat.zero_le _
    | some found => exact exponent found given
  have lengths : ∀ count ∈ [decimal.literal.whole, decimal.literal.fraction,
      decimal.literal.exponentDigits].map List.length, count ≤ Literal.digitLimit := by
    simp only [List.map_cons, List.map_nil, List.forall_mem_cons]
    exact ⟨whole, fraction, digits, nofun⟩
  rw [DecimalLiteral.excess?, List.find?_eq_none]
  intro count member
  simpa using lengths count member

/-- What a decimal text is read as, unless a part of it is too long to be converted. -/
theorem parse_text (type : FloatType) :
    type.parse decimal.text =
        .ok (type.hold (decimal.literal.datum type.format decimal.sign.isNegative)) ∨
      type = .f32 ∧ ∃ count, decimal.literal.excess? = some count ∧
        type.parse decimal.text = .error (.tooManyDigits count) :=
  type.parse_decimal decimal.splitSign_text decimal.ofText?_unsignedText

end DecimalText

end WordTape
