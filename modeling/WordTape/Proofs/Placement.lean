import WordTape.Proofs.Structure.Reading
import WordTape.Proofs.Token.Concatenation

/-!
# Programs placed in longer ones

The tokens of a program may stand among those of a longer one, behind others and some
lines further down. What is read at a place of the program is read there, too, and what
cannot be read is refused for the same reason, if the longer program ends with it.
-/

set_option autoImplicit false

namespace WordTape

/-! ## Places further down -/

namespace OperandError

def below (lines : Nat) : OperandError → OperandError
  | missingNumber instruction => missingNumber (instruction.below lines)
  | missingWord instruction => missingWord (instruction.below lines)
  | notNumber operand => notNumber (operand.below lines)
  | invalidNumber type operand reason => invalidNumber type (operand.below lines) reason

@[simp] theorem token_below (lines : Nat) (error : OperandError) :
    (error.below lines).token = error.token.below lines := by
  cases error <;> rfl

@[simp] theorem description_below (lines : Nat) (error : OperandError) :
    (error.below lines).description = error.description := by
  cases error <;> rfl

theorem below_zero (error : OperandError) : error.below 0 = error := by
  cases error <;> rfl

end OperandError

namespace InstructionError

def below (lines : Nat) : InstructionError → InstructionError
  | unknownWord token => unknownWord (token.below lines)
  | strayNumber token => strayNumber (token.below lines)
  | malformedOperand error => malformedOperand (error.below lines)

@[simp] theorem token_below (lines : Nat) (error : InstructionError) :
    (error.below lines).token = error.token.below lines := by
  cases error with
  | unknownWord token | strayNumber token => rfl
  | malformedOperand error => exact OperandError.token_below lines error

theorem below_zero (error : InstructionError) : error.below 0 = error := by
  cases error with
  | unknownWord token | strayNumber token => rfl
  | malformedOperand error => exact congrArg malformedOperand (OperandError.below_zero error)

end InstructionError

namespace RunFault

def below (lines : Nat) : RunFault → RunFault
  | notInstruction error => notInstruction (error.below lines)
  | noOpenLoop token => noOpenLoop (token.below lines)
  | interrupted token cause => interrupted (token.below lines) cause

theorem token_below (lines : Nat) (fault : RunFault) :
    (fault.below lines).token = fault.token.below lines := by
  cases fault with
  | notInstruction error => exact InstructionError.token_below lines error
  | noOpenLoop token | interrupted token cause => rfl

theorem cause_below (lines : Nat) (fault : RunFault) : (fault.below lines).cause = fault.cause := by
  cases fault with
  | notInstruction error =>
      cases error with
      | unknownWord token | strayNumber token => rfl
      | malformedOperand error =>
          simp only [below, InstructionError.below, cause, InstructionError.description,
            OperandError.description_below]
  | noOpenLoop token => rfl
  | interrupted token cause => cases cause <;> rfl

theorem below_zero (fault : RunFault) : fault.below 0 = fault := by
  cases fault with
  | notInstruction error => exact congrArg notInstruction (InstructionError.below_zero error)
  | noOpenLoop token | interrupted token cause => rfl

end RunFault

/-! ## Placed tokens -/

/-- The tokens of a program stand in a longer one from a place on, some lines further
down. -/
def Placed (tokens whole : Array Token) (offset lines : Nat) : Prop :=
  ∀ position token, tokens[position]? = some token →
    whole[offset + position]? = some (token.below lines)

variable {tokens whole : Array Token} {offset lines position : Nat} {token : Token}
  {instruction : Instruction}

theorem Placed.refl (tokens : Array Token) : Placed tokens tokens 0 0 := by
  intro position token found
  rw [Nat.zero_add, found]
  rfl

theorem Placed.append_left (tokens rest : Array Token) : Placed tokens (tokens ++ rest) 0 0 := by
  intro position token found
  have here := (Array.getElem?_eq_some_iff.mp found).1
  rw [Nat.zero_add, Array.getElem?_append_left here, found]
  rfl

theorem Placed.append_right (earlier tokens : Array Token) (lines : Nat) :
    Placed tokens (earlier ++ tokens.map (Token.below lines)) earlier.size lines := by
  intro position token found
  rw [Array.getElem?_append_right (Nat.le_add_right _ _), Nat.add_sub_cancel_left,
    Array.getElem?_map, found, Option.map_some]

/-- A longer program that ends with the program has a token where it has one. -/
theorem Placed.getElem? (placed : Placed tokens whole offset lines)
    (ended : whole.size = offset + tokens.size) (position : Nat) :
    whole[offset + position]? = tokens[position]?.map (Token.below lines) := by
  cases found : tokens[position]? with
  | none =>
      have past := Array.getElem?_eq_none_iff.mp found
      rw [Option.map_none, Array.getElem?_eq_none_iff]
      omega
  | some token => exact placed position token found

namespace Instruction

private theorem mapError_map {Error Value Result : Type} (read : Except Error Value)
    (build : Value → Result) (change : Error → Error) :
    (read.map build).mapError change = (read.mapError change).map build := by
  cases read <;> rfl

section

variable (next : whole[offset + position + 1]? = tokens[position + 1]?.map (Token.below lines))

include next

private theorem numberOperand_placed (token : Token) (type : NumericType) :
    numberOperand whole (offset + position) (token.below lines) type =
      (numberOperand tokens position token type).mapError (OperandError.below lines) := by
  unfold numberOperand
  rw [next]
  cases tokens[position + 1]? with
  | none => rfl
  | some operand =>
      simp only [Option.map_some]
      by_cases number : operand.kind = .number
      · simp only [Token.below, number, ↓reduceIte]
        cases parsed : type.parse operand.value with
        | ok value => rfl
        | error reason =>
            simp only [Except.mapError, OperandError.below, Token.below, number]
      · simp only [Token.below, number, ↓reduceIte]
        rfl

private theorem wordOperand_placed (token : Token) :
    wordOperand whole (offset + position) (token.below lines) =
      (wordOperand tokens position token).mapError (OperandError.below lines) := by
  unfold wordOperand
  rw [next]
  cases tokens[position + 1]? <;> rfl

end

private theorem ofMnemonic_placed {mnemonic : Mnemonic} (next : mnemonic.operand ≠ .none →
      whole[offset + position + 1]? = tokens[position + 1]?.map (Token.below lines))
    (token : Token) :
    ofMnemonic whole (offset + position) (token.below lines) mnemonic =
      (ofMnemonic tokens position token mnemonic).mapError (OperandError.below lines) := by
  cases mnemonic with
  | loopOpen | loopClose | readByte | readLine | writeCell | writeAs _ | writeRun | clearRun => rfl
  | moveForward | moveBackward | increment | decrement | setAs _ =>
      have follows := next (by simp [Mnemonic.operand])
      simp only [ofMnemonic, numberOperand_placed follows]
      exact (mapError_map _ _ _).symm
  | setString =>
      have follows := next (by simp [Mnemonic.operand])
      simp only [ofMnemonic, wordOperand_placed follows]
      exact (mapError_map _ _ _).symm

private theorem fetch_placed (next : ∀ mnemonic, token.kind = .instruction mnemonic →
      mnemonic.operand ≠ .none →
      whole[offset + position + 1]? = tokens[position + 1]?.map (Token.below lines)) :
    fetch whole (offset + position) (token.below lines) =
      (fetch tokens position token).mapError (InstructionError.below lines) := by
  have sameKind : (token.below lines).kind = token.kind := rfl
  unfold fetch
  rw [sameKind]
  cases kind : token.kind with
  | unknown | number => rfl
  | instruction mnemonic =>
      simp only [ofMnemonic_placed (next mnemonic kind)]
      cases ofMnemonic tokens position token mnemonic <;> rfl

end Instruction

/-- What stands in a program stands where the program is placed. -/
theorem Stands.placed (placed : Placed tokens whole offset lines)
    (stands : Stands tokens position token instruction) :
    Stands whole (offset + position) (token.below lines) instruction := by
  refine ⟨placed position token stands.found, ?_⟩
  rw [Instruction.fetch_placed, stands.reads]
  · rfl
  · intro mnemonic kind operand
    obtain ⟨other, same, read⟩ := Instruction.readAt_of_fetch stands.reads
    rw [kind] at same
    cases same
    have within := read.operand operand
    rw [Array.getElem?_eq_getElem within, Nat.add_assoc,
      placed (position + 1) _ (Array.getElem?_eq_getElem within), Option.map_some]

/-- What is refused in a program is refused at its place in one that ends with it. -/
theorem Placed.fetch_error {error : InstructionError}
    (placed : Placed tokens whole offset lines) (ended : whole.size = offset + tokens.size)
    (refused : Instruction.fetch tokens position token = .error error) :
    Instruction.fetch whole (offset + position) (token.below lines) =
      .error (error.below lines) := by
  rw [Instruction.fetch_placed, refused]
  · rfl
  · intro mnemonic kind operand
    rw [Nat.add_assoc]
    exact placed.getElem? ended (position + 1)

end WordTape
