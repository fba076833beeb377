import WordTape.Proofs.Device.Faults
import WordTape.Proofs.Numeric.Literal
import WordTape.Proofs.Structure.Layout

/-!
# What is read as an instruction

An instruction is of the mnemonic of its token. If this takes an operand, the operand
is the next token, and a number that is to be laid out is one that its type holds.
-/

set_option autoImplicit false

namespace WordTape

/-- An instruction is read from a mnemonic at a position. -/
structure Instruction.ReadAt (tokens : Array Token) (position : Nat) (mnemonic : Mnemonic)
    (instruction : Instruction) : Prop where
  ofMnemonic : instruction.mnemonic = mnemonic
  operand : mnemonic.operand ≠ .none → position + 1 < tokens.size
  encodable : instruction.Encodable

theorem exists_of_map_eq_ok {Error Value Result : Type} {read : Except Error Value}
    {build : Value → Result} {result : Result} (mapped : read.map build = .ok result) :
    ∃ value, read = .ok value ∧ build value = result := by
  cases read with
  | error error => cases mapped
  | ok value => exact ⟨value, rfl, Except.ok.inj mapped⟩

private theorem eq_error_of_map {Error Value Result : Type} {read : Except Error Value}
    {build : Value → Result} {error : Error} (mapped : read.map build = .error error) :
    read = .error error := by
  cases read with
  | error other => exact congrArg Except.error (Except.error.inj mapped)
  | ok value => cases mapped

variable {tokens : Array Token} {position : Nat} {token : Token}

namespace Instruction

variable {instruction : Instruction}

theorem numberOperand_eq_ok {type : NumericType} {value : type.Value}
    (read : numberOperand tokens position token type = .ok value) :
    position + 1 < tokens.size ∧ type.Holds value := by
  unfold numberOperand at read
  split at read
  · cases read
  · rename_i operand found
    split at read
    · split at read
      · rename_i parsed
        cases read
        exact ⟨(Array.getElem?_eq_some_iff.mp found).1, NumericType.holds_of_parse parsed⟩
      · cases read
    · cases read

private theorem wordOperand_eq_ok {text : Bytes}
    (read : wordOperand tokens position token = .ok text) : position + 1 < tokens.size := by
  unfold wordOperand at read
  split at read
  · cases read
  · rename_i operand found
    exact (Array.getElem?_eq_some_iff.mp found).1

private theorem readAt_of_ofMnemonic {mnemonic : Mnemonic}
    (read : ofMnemonic tokens position token mnemonic = .ok instruction) :
    ReadAt tokens position mnemonic instruction := by
  cases mnemonic with
  | loopOpen | loopClose | readByte | readLine | writeCell | writeAs _ | writeRun | clearRun =>
      cases read
      exact ⟨rfl, fun operand => absurd rfl operand, trivial⟩
  | moveForward | moveBackward | increment | decrement =>
      obtain ⟨value, operand, rfl⟩ := exists_of_map_eq_ok read
      exact ⟨rfl, fun _ => (numberOperand_eq_ok operand).1, trivial⟩
  | setString =>
      obtain ⟨text, operand, rfl⟩ := exists_of_map_eq_ok read
      exact ⟨rfl, fun _ => wordOperand_eq_ok operand, trivial⟩
  | setAs type =>
      obtain ⟨value, operand, rfl⟩ := exists_of_map_eq_ok read
      obtain ⟨within, holds⟩ := numberOperand_eq_ok operand
      exact ⟨rfl, fun _ => within, holds⟩

/-- Only a mnemonic is read as an instruction. -/
theorem readAt_of_fetch (read : fetch tokens position token = .ok instruction) :
    ∃ mnemonic, token.kind = .instruction mnemonic ∧
      ReadAt tokens position mnemonic instruction := by
  unfold fetch at read
  split at read
  · cases read
  · cases read
  · rename_i mnemonic kind
    split at read
    · rename_i found
      cases read
      exact ⟨mnemonic, kind, readAt_of_ofMnemonic found⟩
    · cases read

section

variable {mnemonic : Mnemonic} {type : NumericType}

private theorem ofMnemonic_of_numberOperand_error {error : OperandError}
    (expects : mnemonic.operand = .number type)
    (refused : numberOperand tokens position token type = .error error) :
    ofMnemonic tokens position token mnemonic = .error error := by
  cases mnemonic with
  | loopOpen | loopClose | readByte | readLine | writeCell | writeAs _ | setString | writeRun
  | clearRun => cases expects
  | moveForward | moveBackward | increment | decrement | setAs _ =>
      cases expects
      simp only [ofMnemonic, refused]
      rfl

/-- An operand of a number is missing, or it is no number of the type. -/
theorem numberOperand_eq_error {error : OperandError}
    (refused : numberOperand tokens position token type = .error error) :
    (tokens[position + 1]? = none ∧ error.token = token) ∨
      ∃ operand, tokens[position + 1]? = some operand ∧ error.token = operand ∧
        (operand.kind ≠ .number ∨ ∃ reason, type.parse operand.value = .error reason) := by
  unfold numberOperand at refused
  split at refused
  · rename_i missing
    cases refused
    exact .inl ⟨missing, rfl⟩
  · rename_i operand next
    split at refused
    · split at refused
      · cases refused
      · rename_i reason unparsed
        cases refused
        exact .inr ⟨operand, next, rfl, .inr ⟨reason, unparsed⟩⟩
    · rename_i notNumber
      cases refused
      exact .inr ⟨operand, next, rfl, .inl notNumber⟩

/-- A mnemonic is refused because of its number, or because it misses its word. -/
theorem ofMnemonic_eq_error {error : OperandError}
    (unread : ofMnemonic tokens position token mnemonic = .error error) :
    (∃ type, mnemonic.operand = .number type ∧
      numberOperand tokens position token type = .error error) ∨
      mnemonic.operand = .word ∧ error.token = token := by
  cases mnemonic with
  | loopOpen | loopClose | readByte | readLine | writeCell | writeAs _ | writeRun | clearRun =>
      cases unread
  | moveForward | moveBackward | increment | decrement | setAs _ =>
      exact .inl ⟨_, rfl, eq_error_of_map unread⟩
  | setString =>
      have missing := eq_error_of_map unread
      unfold wordOperand at missing
      split at missing
      · cases missing
        exact .inr ⟨rfl, rfl⟩
      · cases missing

/-- A number that is refused as an operand makes a malformed instruction. -/
theorem fetch_of_numberOperand_error {error : OperandError}
    (kind : token.kind = .instruction mnemonic) (expects : mnemonic.operand = .number type)
    (refused : numberOperand tokens position token type = .error error) :
    fetch tokens position token = .error (.malformedOperand error) := by
  unfold fetch
  rw [kind]
  simp only [ofMnemonic_of_numberOperand_error expects refused]

theorem numberOperand_of_parse_error {operand : Token} {reason : LiteralError}
    (next : tokens[position + 1]? = some operand) (number : operand.kind = .number)
    (unparsed : type.parse operand.value = .error reason) :
    numberOperand tokens position token type = .error (.invalidNumber type operand reason) := by
  unfold numberOperand
  simp only [next, number, ↓reduceIte, unparsed]

theorem numberOperand_of_not_number {operand : Token}
    (next : tokens[position + 1]? = some operand) (other : operand.kind ≠ .number) :
    numberOperand tokens position token type = .error (.notNumber operand) := by
  unfold numberOperand
  simp only [next, other, ↓reduceIte]

end

end Instruction

namespace Stands

variable {instruction : Instruction} (stands : Stands tokens position token instruction)

include stands

theorem kind : token.kind = .instruction instruction.mnemonic := by
  obtain ⟨mnemonic, kind, read⟩ := Instruction.readAt_of_fetch stands.reads
  rw [kind, read.ofMnemonic]

theorem eq_mnemonic {mnemonic : Mnemonic} (kind : token.kind = .instruction mnemonic) :
    instruction.mnemonic = mnemonic :=
  TokenKind.instruction.inj (stands.kind.symm.trans kind)

theorem eq_of_stands {other : Instruction} (same : Stands tokens position token other) :
    instruction = other :=
  Except.ok.inj (stands.reads.symm.trans same.reads)

theorem encodable : instruction.Encodable := by
  obtain ⟨mnemonic, kind, read⟩ := Instruction.readAt_of_fetch stands.reads
  exact read.encodable

/-- The instruction and its operand lie within the tokens. -/
theorem within : position + instruction.length ≤ tokens.size := by
  obtain ⟨mnemonic, kind, read⟩ := Instruction.readAt_of_fetch stands.reads
  have here := (Array.getElem?_eq_some_iff.mp stands.found).1
  have operand := read.operand
  simp only [Instruction.length, Mnemonic.length, read.ofMnemonic]
  cases expected : mnemonic.operand with
  | none => exact here
  | number _ | word =>
      rw [expected] at operand
      exact operand (by simp)

end Stands

/-- The steps of a move are a number of eight bytes. -/
theorem Stands.steps_lt {steps : Nat}
    (stands : Stands tokens position token (.moveForward steps)) : steps < 2 ^ 64 := by
  have read := stands.reads
  unfold Instruction.fetch at read
  rw [stands.kind] at read
  simp only [Instruction.mnemonic] at read
  split at read
  · rename_i found
    cases read
    obtain ⟨value, operand, same⟩ := exists_of_map_eq_ok found
    obtain ⟨_, holds⟩ := Instruction.numberOperand_eq_ok operand
    have greatest : (value : Int) ≤ IntegerType.u64.greatest := holds.2
    have bound : IntegerType.u64.greatest = 2 ^ 64 - 1 := by decide
    cases same
    rw [bound] at greatest
    omega
  · cases read

end WordTape
