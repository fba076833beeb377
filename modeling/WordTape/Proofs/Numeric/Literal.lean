import WordTape.Proofs.Numeric.Codec
import WordTape.Proofs.Numeric.Figures
import WordTape.Proofs.Numeric.Settling
import WordTape.Proofs.Numeric.Shortest

/-!
# Texts of numbers are read back

The text of a number of a type is a literal of the type for that number. Of the floats
this holds for all that have figures, and for negative infinity by its name.
-/

set_option autoImplicit false

namespace WordTape

/-- A word that the language takes for a literal of a type, with the number it is read as. -/
structure NumericType.IsLiteral (type : NumericType) (text : Bytes) (value : type.Value) :
    Prop where
  isWord : Lexer.IsWord text
  number : Lexer.classify text = .number
  parses : type.parse text = .ok value

theorem Literal.dropFinalLineFeed_append {body : Bytes} (solid : Bytes.lineFeed ∉ body)
    (lineFeed : Bool) :
    dropFinalLineFeed (body ++ if lineFeed then [Bytes.lineFeed] else []) = body := by
  cases lineFeed with
  | true => simp [dropFinalLineFeed]
  | false =>
      have noLineFeed : body.getLast? ≠ some Bytes.lineFeed :=
        fun last => solid (List.mem_of_getLast? last)
      simp only [Bool.false_eq_true, ↓reduceIte, List.append_nil, dropFinalLineFeed, noLineFeed]

theorem Literal.dropFinalLineFeed_of_isWord {text : Bytes} (isWord : Lexer.IsWord text) :
    dropFinalLineFeed text = text := by
  have dropped := dropFinalLineFeed_append isWord.lineFeed_not_mem false
  rwa [if_neg Bool.false_ne_true, List.append_nil] at dropped

section

variable {type : IntegerType} {number : Int}

private theorem IntegerType.natAbs_lt (least : type.least ≤ number)
    (greatest : number ≤ type.greatest) :
    number.natAbs < 10 ^ 20 := by
  have bounds : -(10 ^ 20 : Int) < type.least ∧ type.greatest < 10 ^ 20 := by
    cases type <;> decide +kernel
  obtain ⟨lower, upper⟩ := bounds
  omega

private theorem IntegerType.isSigned_of_negative (least : type.least ≤ number)
    (negative : number < 0) :
    type.isSigned = true := by
  cases signed : type.isSigned with
  | true => rfl
  | false =>
      simp only [IntegerType.least, signed, Bool.false_eq_true, ↓reduceIte] at least
      omega

theorem IntegerType.parse_ofInt (least : type.least ≤ number)
    (greatest : number ≤ type.greatest) : type.parse (Decimal.ofInt number) = .ok number := by
  rw [Decimal.ofInt_eq]
  generalize same : Figures.ofNat number.natAbs = figures
  have isWord := figures.isWord_signed (decide (number < 0))
  have admitted : decide (number < 0) = true → type.isSigned = true := by
    intro negative
    exact type.isSigned_of_negative least (of_decide_eq_true negative)
  have split := figures.splitSign_signed admitted
  have few : figures.text.length ≤ Literal.digitLimit := by
    have length := Decimal.length_ofNat_le (by omega) (type.natAbs_lt least greatest)
    rw [← same]
    exact Nat.le_trans length (by decide)
  have run : Literal.isDigitRun figures.text = true := by
    rw [← same]
    exact Decimal.isDigitRun_ofNat _
  have magnitude : Decimal.value figures.text = number.natAbs := by
    rw [← same]
    exact Decimal.value_ofNat _
  have nonempty : (figures.signed (decide (number < 0))).isEmpty = false := by
    simpa using isWord.nonempty
  have sign : (if decide (number < 0) = true then -(number.natAbs : Int) else number.natAbs) =
      number := by
    by_cases negative : number < 0
    · simp only [negative, decide_true, ↓reduceIte]
      omega
    · simp only [negative, decide_false, Bool.false_eq_true, ↓reduceIte]
      omega
  simp only [IntegerType.parse, nonempty, Literal.dropFinalLineFeed_of_isWord isWord, split,
    run, Nat.not_lt.mpr few, magnitude, sign, Int.not_lt.mpr greatest, Int.not_lt.mpr least,
    Bool.false_eq_true, Bool.not_true, ↓reduceIte]

theorem IntegerType.isLiteral_text (holds : type.Holds number) :
    NumericType.IsLiteral (.integer type) (Decimal.ofInt number) number where
  isWord := Decimal.isWord_ofInt number
  number := by
    rw [Decimal.ofInt_eq]
    exact Figures.classify_signed _ _
  parses := IntegerType.parse_ofInt holds.1 holds.2

private theorem IntegerType.holds_of_parse {text : Bytes} (parsed : type.parse text = .ok number) :
    type.Holds number := by
  unfold parse at parsed
  split at parsed
  · cases parsed
  · split at parsed
    split at parsed
    · cases parsed
    · split at parsed
      · cases parsed
      · extract_lets magnitude signed at parsed
        generalize signed = read at parsed
        split at parsed
        · cases parsed
        · split at parsed
          · cases parsed
          · rename_i notAbove notBelow
            cases parsed
            exact ⟨Int.not_lt.mp notBelow, Int.not_lt.mp notAbove⟩

end

/-! ## Floats -/

namespace BinaryFormat

variable {format : BinaryFormat} {rank : Nat}

/-- Zeros may stand for a positive exponent, up to the reach of the format. -/
theorem rankOfDecimal_zeros {digits : Nat} {exponent : Int}
    (finite : format.rankOfDecimal digits exponent < format.topRank) :
    format.rankOfDecimal (digits * 10 ^ exponent.toNat) (min exponent 0) =
      format.rankOfDecimal digits exponent := by
  by_cases fractional : exponent ≤ 0
  · have none : exponent.toNat = 0 := by omega
    rw [none, Nat.pow_zero, Nat.mul_one, Int.min_eq_left fractional]
  · have reach := format.decimalReach_pos
    rw [Int.min_eq_right (by omega)]
    by_cases zero : digits = 0
    · subst zero
      simp only [rankOfDecimal, Nat.zero_mul, ↓reduceIte]
    · have within : ¬format.decimalReach ≤ exponent := by
        intro beyond
        simp only [rankOfDecimal, zero, beyond, ↓reduceIte] at finite
        omega
      have nonzero : digits * 10 ^ exponent.toNat ≠ 0 :=
        Nat.mul_ne_zero zero (Nat.ne_of_gt (Nat.pow_pos (by omega)))
      have notHuge : ¬format.decimalReach ≤ 0 := by omega
      have notTiny (bits : Nat) : ¬exponent + bits + 1 ≤ -format.decimalReach := by omega
      have notTinyZero (bits : Nat) : ¬(0 : Int) + bits + 1 ≤ -format.decimalReach := by omega
      have integral : 0 ≤ exponent := by omega
      have one : Nat.pow 10 0 = 1 := rfl
      simp only [rankOfDecimal, zero, nonzero, within, notHuge, notTiny, notTinyZero, integral,
        ↓reduceIte, Int.toNat_zero, Int.le_refl, one, Nat.mul_one]
      rfl

def decimal (format : BinaryFormat) (rank : Nat) : ScaledDecimal :=
  if rank = 0 then { digits := 0, exponent := 0 } else format.shortest rank

private theorem rankOfDecimal_decimal (fine : 0 < format.unitExponent)
    (finite : rank < format.topRank) :
    format.rankOfDecimal (format.decimal rank).digits (format.decimal rank).exponent = rank := by
  rw [decimal]
  split
  · rename_i zero
    rw [zero]
    rfl
  · exact rankOfDecimal_shortestFrom fine (by omega) (by omega) _

private theorem decimal_single_bounded (finite : rank < single.topRank) :
    (single.decimal rank).digits < 10 ^ 240 ∧ (single.decimal rank).exponent.natAbs ≤ 149 := by
  rw [decimal]
  split
  · exact ⟨Nat.pow_pos (by omega), Nat.zero_le _⟩
  · exact shortest_single_bounded finite

end BinaryFormat

theorem Datum.text_number {format : BinaryFormat} {rank : Nat} (finite : rank < format.topRank)
    (negative : Bool) :
    (number negative rank (Nat.le_of_lt finite) : Datum format).text =
      (if negative then [45] else []) ++ (format.decimal rank).positional := by
  have notInfinite : rank ≠ format.topRank := by omega
  have zeroText : ScaledDecimal.positional { digits := 0, exponent := 0 } =
      Bytes.ofString "0" := by decide +kernel
  by_cases zero : rank = 0
  · subst zero
    simp only [text, notInfinite, ↓reduceIte, BinaryFormat.decimal, zeroText]
  · simp only [text, notInfinite, zero, ↓reduceIte, BinaryFormat.decimal]

/-- The text of a finite datum shows figures that are read as its magnitude. -/
theorem Datum.exists_figures {format : BinaryFormat} {rank : Nat} (fine : 0 < format.unitExponent)
    (finite : rank < format.topRank) (negative : Bool) :
    ∃ figures : Figures,
      (number negative rank (Nat.le_of_lt finite) : Datum format).text =
        figures.signed negative ∧
      figures.literal.rank format = rank ∧
      (format = .single →
        (figures.whole ++ figures.fraction).length ≤ Literal.digitLimit) := by
  obtain ⟨figures, text, significand, scale, length⟩ := (format.decimal rank).exists_figures
  have read := BinaryFormat.rankOfDecimal_decimal fine finite
  refine ⟨figures, ?_, ?_, ?_⟩
  · rw [text_number finite, text]
    cases negative <;> rfl
  · rw [DecimalLiteral.rank, significand, scale, BinaryFormat.rankOfDecimal_zeros, read]
    rw [read]
    exact finite
  · intro single
    subst single
    obtain ⟨digits, exponent⟩ := BinaryFormat.decimal_single_bounded finite
    have numeral := Decimal.length_ofNat_le (by omega) digits
    have limit : Literal.digitLimit = 4300 := rfl
    omega

namespace FloatType

variable {type : FloatType}

/-- A decimal is read as its nearest datum, unless a part of it is too long to be converted. -/
theorem parse_decimal (type : FloatType) {text body : Bytes} {negative : Bool}
    {literal : DecimalLiteral}
    (split : Literal.splitSign true (Literal.dropFinalLineFeed text) = (negative, body))
    (read : DecimalLiteral.ofText? body = some literal) :
    type.parse text = .ok (type.hold (literal.datum type.format negative)) ∨
      type = .f32 ∧ ∃ count, literal.excess? = some count ∧
        type.parse text = .error (.tooManyDigits count) := by
  simp only [parse, split, read]
  cases type with
  | f64 => exact .inl rfl
  | f32 =>
      by_cases extreme : literal.rank .double = 0 ∨
          literal.rank .double = BinaryFormat.double.topRank
      · rw [if_pos (by simpa using extreme), literal.guess_eq negative extreme]
        exact .inl rfl
      · rw [if_neg (by simpa using extreme)]
        cases excess : literal.excess? with
        | some count => exact .inr ⟨rfl, count, rfl, rfl⟩
        | none =>
            dsimp only
            rw [literal.settle_guess_eq negative (fun top => extreme (.inr top))]
            exact .inl rfl

private theorem parse_signed (type : FloatType) (negative : Bool) (figures : Figures)
    (short : type.format = .single →
      (figures.whole ++ figures.fraction).length ≤ Literal.digitLimit) :
    type.parse (figures.signed negative) =
      .ok (type.hold (figures.literal.datum type.format negative)) := by
  have isWord := figures.isWord_signed negative
  have split : Literal.splitSign true (figures.signed negative) = (negative, figures.text) :=
    figures.splitSign_signed fun _ => rfl
  rw [← Literal.dropFinalLineFeed_of_isWord isWord] at split
  rcases type.parse_decimal split figures.ofText?_text with read | ⟨rfl, count, excess, _⟩
  · exact read
  · rw [figures.excess?_literal (short rfl)] at excess
    cases excess

private theorem parse_minus_inf (type : FloatType) :
    type.parse (45 :: Bytes.ofString "inf") =
      .ok (type.hold (.number true type.format.topRank (Nat.le_refl _))) := by
  cases type <;> rfl

private theorem namedDatum?_cases {negative : Bool} {body : Bytes} {datum : Datum .double}
    (named : Literal.namedDatum? negative body = some datum) :
    datum = .nan negative ∨
      datum = .number negative BinaryFormat.double.topRank (Nat.le_refl _) := by
  rw [Literal.namedDatum?] at named
  split at named
  · exact .inr (Option.some.inj named).symm
  · split at named
    · exact .inl (Option.some.inj named).symm
    · cases named

theorem holds_of_parse {text : Bytes} {datum : Datum .double}
    (parsed : type.parse text = .ok datum) : type.Holds datum := by
  cases split : Literal.splitSign true (Literal.dropFinalLineFeed text) with
  | mk negative body =>
      cases read : DecimalLiteral.ofText? body with
      | some literal =>
          rcases type.parse_decimal split read with found | ⟨_, count, _, refused⟩
          · exact ⟨_, Except.ok.inj (found.symm.trans parsed)⟩
          · cases refused.symm.trans parsed
      | none =>
          simp only [parse, split, read] at parsed
          cases named : Literal.namedDatum? negative body with
          | none =>
              rw [named] at parsed
              cases parsed
          | some found =>
              simp only [named] at parsed
              split at parsed
              · cases parsed
                rcases namedDatum?_cases named with nan | infinite
                · exact ⟨_, nan ▸ type.hold_nan negative⟩
                · exact ⟨_, infinite ▸ type.hold_top negative⟩
              · cases parsed

end FloatType

theorem FloatType.isLiteral_text {type : FloatType} (held : Datum type.format)
    (number : ∀ negative, held ≠ .nan negative) (finite : ¬held.IsPositiveInfinity) :
    NumericType.IsLiteral (.float type) held.text (type.hold held) := by
  cases held with
  | nan negative => exact absurd rfl (number negative)
  | number negative rank bounded =>
      by_cases top : rank = type.format.topRank
      · subst top
        cases negative with
        | false => exact absurd ⟨bounded, rfl⟩ finite
        | true =>
            have text : (Datum.number true type.format.topRank bounded).text =
                45 :: Bytes.ofString "inf" := by simp [Datum.text]
            rw [text]
            exact ⟨⟨List.cons_ne_nil _ _, by decide +kernel⟩, rfl, parse_minus_inf type⟩
      · have finite : rank < type.format.topRank := by omega
        have fine : 0 < type.format.unitExponent := by cases type <;> decide +kernel
        obtain ⟨figures, text, read, short⟩ := Datum.exists_figures fine finite negative
        rw [text]
        refine ⟨figures.isWord_signed negative, figures.classify_signed negative, ?_⟩
        have parsed := parse_signed type negative figures short
        have same : figures.literal.datum type.format negative = .number negative rank bounded :=
          Datum.number_congr read
        rw [same] at parsed
        exact parsed

namespace NumericType

variable {type : NumericType} {value : type.Value}

theorem holds_of_parse {text : Bytes} (parsed : type.parse text = .ok value) :
    type.Holds value := by
  cases type with
  | integer type => exact IntegerType.holds_of_parse parsed
  | float type => exact FloatType.holds_of_parse parsed

/-- The text of a number that a type holds is a literal of the type for that number, unless
it is a word of letters. -/
theorem isLiteral_text (holds : type.Holds value) (literal : type.HasLiteral value) :
    type.IsLiteral (type.text value) value := by
  cases type with
  | integer type => exact IntegerType.isLiteral_text holds
  | float type =>
      obtain ⟨held, rfl⟩ := holds
      obtain ⟨number, finite⟩ := literal
      have text : NumericType.text (.float type) (type.hold held) = held.text :=
        type.text_hold held
      rw [text]
      apply FloatType.isLiteral_text held
      · intro negative nan
        subst nan
        exact number negative (type.hold_nan negative)
      · intro infinite
        obtain ⟨bounded, rfl⟩ := infinite
        exact finite ⟨Nat.le_refl _, type.hold_top false⟩

end NumericType

end WordTape
