import WordTape.Proofs.Numeric.DecimalText

/-!
# Integer literals

An integer literal is a text of a fixed shape: perhaps a sign, then digits, then perhaps a
line feed. A text of this shape is read as its signed decimal value, if it is not too long and
the type has the value, and no other text is read. Of several reasons to refuse a text the
first one in a fixed order is told.
-/

set_option autoImplicit false

namespace WordTape

/-- A text of the shape of an integer. -/
structure IntegerText where
  sign : SignText
  digits : Bytes
  lineFeed : Bool
  isRun : Literal.isDigitRun digits = true

namespace IntegerText

def text (literal : IntegerText) : Bytes :=
  literal.sign.text ++ literal.digits ++ if literal.lineFeed then [Bytes.lineFeed] else []

/-- The number that the text stands for. Zeros in front count as digits, but not here. -/
def value (literal : IntegerText) : Int :=
  if literal.sign.isNegative then -(Decimal.value literal.digits : Nat)
  else (Decimal.value literal.digits : Nat)

variable (literal : IntegerText)

theorem all_isDigit : literal.digits.all Decimal.isDigit = true := by
  have isRun := literal.isRun
  rw [Literal.isDigitRun, Bool.and_eq_true] at isRun
  exact isRun.2

private theorem digits_ne_nil : literal.digits ≠ [] := by
  have isRun := literal.isRun
  rw [Literal.isDigitRun, Bool.and_eq_true] at isRun
  simpa using isRun.1

private theorem text_ne_nil : literal.text ≠ [] := by
  simp [text, literal.digits_ne_nil]

private theorem lineFeed_not_mem : Bytes.lineFeed ∉ literal.sign.text ++ literal.digits := by
  intro member
  have notBlank : Lexer.isBlank Bytes.lineFeed = false := by
    rcases List.mem_append.mp member with inSign | inDigits
    · exact DecimalText.notBlank_of_mem_sign inSign
    · exact DecimalText.notBlank_of_mem_digits literal.all_isDigit inDigits
  cases notBlank

end IntegerText

namespace Literal

private theorem exists_lineFeed (text : Bytes) : ∃ lineFeed : Bool,
    text = dropFinalLineFeed text ++ if lineFeed then [Bytes.lineFeed] else [] := by
  rw [dropFinalLineFeed]
  split
  · rename_i last
    exact ⟨true, (List.dropLast_append_getLast? _ last).symm⟩
  · exact ⟨false, (List.append_nil text).symm⟩

/-- A text from which a sign is split off is that sign, as it is written, and the rest. -/
theorem exists_sign {admitsMinus negative : Bool} {text rest : Bytes}
    (split : splitSign admitsMinus text = (negative, rest)) :
    ∃ sign : SignText, (sign = .minus → admitsMinus = true) ∧ sign.isNegative = negative ∧
      text = sign.text ++ rest := by
  cases text with
  | nil =>
      cases split
      exact ⟨.none, by simp, rfl, rfl⟩
  | cons first tail =>
      rw [splitSign] at split
      split at split
      · rename_i plus
        cases split
        exact ⟨.plus, by simp, rfl, congrArg (· :: rest) plus⟩
      · split at split
        · rename_i minus
          obtain ⟨isMinus, admitted⟩ := Bool.and_eq_true_iff.mp minus
          cases split
          exact ⟨.minus, fun _ => admitted, rfl,
            congrArg (· :: rest) (of_decide_eq_true isMinus)⟩
        · cases split
          exact ⟨.none, by simp, rfl, rfl⟩

end Literal

namespace IntegerType

variable {type : IntegerType} {literal : IntegerText} {text : Bytes}

/-- Only signed types take a minus. A plus goes with every type. -/
def Admits (type : IntegerType) (literal : IntegerText) : Prop :=
  literal.sign = .minus → type.isSigned = true

private theorem splitSign_literal (admits : type.Admits literal) :
    Literal.splitSign type.isSigned (Literal.dropFinalLineFeed literal.text) =
      (literal.sign.isNegative, literal.digits) := by
  rw [IntegerText.text, Literal.dropFinalLineFeed_append literal.lineFeed_not_mem]
  exact literal.sign.splitSign_text admits
    (DecimalText.not_sign_of_isDigit_head literal.all_isDigit)

/-- What is left after a sign and a line feed decides whether a text has the shape. -/
theorem exists_literal {negative : Bool} {digits : Bytes}
    (split : Literal.splitSign type.isSigned (Literal.dropFinalLineFeed text) =
      (negative, digits)) (isRun : Literal.isDigitRun digits = true) :
    ∃ literal : IntegerText, type.Admits literal ∧ literal.text = text := by
  obtain ⟨lineFeed, whole⟩ := Literal.exists_lineFeed text
  obtain ⟨sign, admitted, -, signed⟩ := Literal.exists_sign split
  refine ⟨{ sign, digits, lineFeed, isRun }, admitted, ?_⟩
  rw [signed] at whole
  exact whole.symm

/-- A text of the shape is refused for its length, then for its value. -/
theorem parse_literal (admits : type.Admits literal) : type.parse literal.text =
    if 4300 < literal.digits.length then
      .error (.tooManyDigits literal.digits.length)
    else if type.greatest < literal.value then .error .tooLarge
    else if literal.value < type.least then .error .tooSmall
    else .ok literal.value := by
  have nonempty : literal.text.isEmpty = false := by simpa using literal.text_ne_nil
  simp only [parse, nonempty, splitSign_literal admits, literal.isRun, Bool.false_eq_true,
    Bool.not_true, ↓reduceIte]
  rfl

theorem parse_shapeless (nonempty : text ≠ [])
    (shapeless : ∀ literal : IntegerText, type.Admits literal → literal.text ≠ text) :
    type.parse text = .error .invalidDigit := by
  have notEmpty : text.isEmpty = false := by simpa using nonempty
  cases split : Literal.splitSign type.isSigned (Literal.dropFinalLineFeed text) with
  | mk negative digits =>
      have noRun : Literal.isDigitRun digits = false := by
        cases isRun : Literal.isDigitRun digits with
        | false => rfl
        | true =>
            obtain ⟨literal, admits, same⟩ := exists_literal split isRun
            exact absurd same (shapeless literal admits)
      simp only [parse, notEmpty, split, noRun, Bool.false_eq_true, Bool.not_false, ↓reduceIte]

/-- Why a text is not read. Each reason is told only where none of those above it applies. -/
inductive Refuses (type : IntegerType) : Bytes → LiteralError → Prop where
  | empty : type.Refuses [] .emptyInteger
  | shapeless {text : Bytes} : text ≠ [] →
      (∀ literal : IntegerText, type.Admits literal → literal.text ≠ text) →
      type.Refuses text .invalidDigit
  | long {literal : IntegerText} : type.Admits literal →
      4300 < literal.digits.length →
      type.Refuses literal.text (.tooManyDigits literal.digits.length)
  | large {literal : IntegerText} : type.Admits literal → literal.digits.length ≤ 4300 →
      type.greatest < literal.value → type.Refuses literal.text .tooLarge
  | small {literal : IntegerText} : type.Admits literal → literal.digits.length ≤ 4300 →
      literal.value < type.least → type.Refuses literal.text .tooSmall

/-- What a text comes to: the number of a literal in range, or a reason to refuse it. -/
inductive Reads (type : IntegerType) : Bytes → Except LiteralError Int → Prop where
  | accepted {literal : IntegerText} : type.Admits literal → literal.digits.length ≤ 4300 →
      type.Holds literal.value → type.Reads literal.text (.ok literal.value)
  | refused {text : Bytes} {reason : LiteralError} : type.Refuses text reason →
      type.Reads text (.error reason)

theorem reads_parse (type : IntegerType) (text : Bytes) :
    type.Reads text (type.parse text) := by
  by_cases empty : text = []
  · rw [empty]
    exact .refused .empty
  · by_cases shaped : ∃ literal : IntegerText, type.Admits literal ∧ literal.text = text
    · obtain ⟨literal, admits, rfl⟩ := shaped
      rw [parse_literal admits]
      split
      · rename_i long
        exact .refused (.long admits long)
      · rename_i short
        have short := Nat.not_lt.mp short
        split
        · rename_i large
          exact .refused (.large admits short large)
        · rename_i notLarge
          split
          · rename_i small
            exact .refused (.small admits short small)
          · rename_i notSmall
            exact .accepted admits short ⟨Int.not_lt.mp notSmall, Int.not_lt.mp notLarge⟩
    · have shapeless : ∀ literal : IntegerText, type.Admits literal → literal.text ≠ text :=
        fun literal admits same => shaped ⟨literal, admits, same⟩
      rw [parse_shapeless empty shapeless]
      exact .refused (.shapeless empty shapeless)

private theorem not_large_of_small {number : Int} (small : number < type.least) :
    ¬type.greatest < number := by
  obtain ⟨least, nonnegative, below⟩ := type.least_eq
  omega

/-- There is one reading of a text only. -/
theorem parse_of_reads {result : Except LiteralError Int} (reads : type.Reads text result) :
    type.parse text = result := by
  cases reads with
  | accepted admits short holds =>
      obtain ⟨least, greatest⟩ := holds
      rw [parse_literal admits, if_neg (Nat.not_lt.mpr short), if_neg (Int.not_lt.mpr greatest),
        if_neg (Int.not_lt.mpr least)]
  | refused refuses =>
      cases refuses with
      | empty => rfl
      | shapeless nonempty shapeless => exact parse_shapeless nonempty shapeless
      | long admits long => rw [parse_literal admits, if_pos long]
      | large admits short large =>
          rw [parse_literal admits, if_neg (Nat.not_lt.mpr short), if_pos large]
      | small admits short small =>
          rw [parse_literal admits, if_neg (Nat.not_lt.mpr short),
            if_neg (not_large_of_small small), if_pos small]

theorem parse_eq_iff {result : Except LiteralError Int} :
    type.parse text = result ↔ type.Reads text result := by
  constructor
  · rintro rfl
    exact type.reads_parse text
  · exact parse_of_reads

/-- A text is read as a number if and only if it is a sign that the type admits, one to 4300
digits and at most one line feed, which stand for that number, and the number is in the range
of the type. The text of every number in range is read as this number. Any other text is
refused for the first reason that applies. -/
theorem literals_are_exact (type : IntegerType) :
    (∀ text number, type.parse text = .ok number ↔
      ∃ literal : IntegerText, literal.text = text ∧ type.Admits literal ∧
        literal.digits.length ≤ 4300 ∧ literal.value = number ∧
        type.least ≤ number ∧ number ≤ type.greatest) ∧
      (∀ number, type.least ≤ number → number ≤ type.greatest →
        type.parse (NumericType.text (.integer type) number) = .ok number) ∧
      ∀ text reason, type.parse text = .error reason ↔ type.Refuses text reason := by
  refine ⟨fun text number => ?_, fun number least greatest => parse_ofInt least greatest,
    fun text reason => ?_⟩
  · rw [parse_eq_iff]
    constructor
    · rintro (⟨admits, short, least, greatest⟩ | _)
      exact ⟨_, rfl, admits, short, rfl, least, greatest⟩
    · rintro ⟨literal, rfl, admits, short, rfl, least, greatest⟩
      exact .accepted admits short ⟨least, greatest⟩
  · rw [parse_eq_iff]
    constructor
    · rintro (_ | refuses)
      exact refuses
    · exact .refused

/-- The least number of eight cells is read, also behind zeros and before a line feed. The number
below it is refused, and so is zero with a digit too many. -/
theorem least_i64_is_read :
    let text := Bytes.ofString "-0009223372036854775808\n"
    i64.parse text = .ok i64.least ∧
      (∃ literal : IntegerText, literal.text = text ∧ i64.Admits literal ∧
        literal.digits.length ≤ 4300 ∧ literal.value = i64.least) ∧
      i64.parse (NumericType.text (.integer .i64) i64.least) = .ok i64.least ∧
      i64.Refuses (Bytes.ofString "-9223372036854775809") .tooSmall ∧
      i64.Refuses (45 :: List.replicate 4301 48) (.tooManyDigits 4301) := by
  intro text
  obtain ⟨accepted, written, refused⟩ := literals_are_exact .i64
  have parsed : i64.parse text = .ok i64.least := by decide +kernel
  obtain ⟨literal, same, admits, short, value, -⟩ := (accepted text i64.least).mp parsed
  exact ⟨parsed, ⟨literal, same, admits, short, value⟩,
    written i64.least le_rfl (by decide +kernel), (refused _ _).mp (by decide +kernel),
    (refused _ _).mp (by decide +kernel)⟩

end IntegerType

end WordTape
