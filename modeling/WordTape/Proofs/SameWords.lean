import WordTape.Brainfuck.Translation
import WordTape.Machine
import WordTape.Proofs.Token.Words

/-!
# Programs with the same words

What is read at a position of a program depends on its words alone. Where two programs have
the same words, the same instructions are read, and what is refused in one is refused in the
other for the same reason, at a token of the same position.
-/

set_option autoImplicit false

namespace WordTape

open Lexer

/-- The words of two programs are the same, of the same kinds; their places in the sources
may differ. -/
def SameWords (tokens others : Array Token) : Prop :=
  others.toList.map view = tokens.toList.map view

/-- Two tokens stand at the same position of their programs. -/
def StandTogether (tokens others : Array Token) (token other : Token) : Prop :=
  ∃ position : Nat, tokens[position]? = some token ∧ others[position]? = some other

/-- Two readings come to the same value, or both are refused by errors that match. -/
inductive ReadsAlike {Error Value : Type} (matching : Error → Error → Prop) :
    Except Error Value → Except Error Value → Prop where
  | ok (value : Value) : ReadsAlike matching (.ok value) (.ok value)
  | error {error other : Error} : matching error other →
      ReadsAlike matching (.error error) (.error other)

private theorem ReadsAlike.map {Error Value Result : Type} {matching : Error → Error → Prop}
    {read other : Except Error Value} (alike : ReadsAlike matching read other)
    (build : Value → Result) : ReadsAlike matching (read.map build) (other.map build) := by
  cases alike with
  | ok value => exact .ok (build value)
  | error matched => exact .error matched

section

variable (tokens others : Array Token)

structure OperandError.Matches (error other : OperandError) : Prop where
  description : other.description = error.description
  together : StandTogether tokens others error.token other.token

/-- Two faults have the same kind and description and are about tokens of one position. -/
structure RunFault.Matches (fault other : RunFault) : Prop where
  cause : other.cause = fault.cause
  together : StandTogether tokens others fault.token other.token

end

variable {tokens others : Array Token}

namespace SameWords

theorem refl (tokens : Array Token) : SameWords tokens tokens := rfl

private theorem size_eq (same : SameWords tokens others) : others.size = tokens.size := by
  simpa only [List.length_map, Array.length_toList] using congrArg List.length same

theorem getElem?_eq_none_iff (same : SameWords tokens others) (position : Nat) :
    others[position]? = none ↔ tokens[position]? = none := by
  rw [Array.getElem?_eq_none_iff, Array.getElem?_eq_none_iff, same.size_eq]

/-- Where one program has a token, the other has one with the same word. -/
theorem exists_other (same : SameWords tokens others) {position : Nat} {token : Token}
    (found : tokens[position]? = some token) :
    ∃ other, others[position]? = some other ∧ other.value = token.value ∧
      other.kind = token.kind := by
  have viewed := congrArg (·[position]?) same
  simp only [List.getElem?_map, Array.getElem?_toList, found, Option.map_some,
    Option.map_eq_some_iff] at viewed
  obtain ⟨other, there, equal⟩ := viewed
  obtain ⟨value, kind⟩ := Prod.mk.inj equal
  exact ⟨other, there, value, kind⟩

theorem view_eq (same : SameWords tokens others) {token other : Token}
    (together : StandTogether tokens others token other) :
    other.value = token.value ∧ other.kind = token.kind := by
  obtain ⟨position, found, there⟩ := together
  obtain ⟨_, here, value, kind⟩ := same.exists_other found
  cases there.symm.trans here
  exact ⟨value, kind⟩

end SameWords

/-! ## Instructions -/

namespace Instruction

variable {position : Nat} {token other : Token}

section

variable (same : SameWords tokens others) (found : tokens[position]? = some token)
  (there : others[position]? = some other)

include same found there

private theorem numberOperand_alike (type : NumericType) :
    ReadsAlike (OperandError.Matches tokens others) (numberOperand tokens position token type)
      (numberOperand others position other type) := by
  obtain ⟨value, _⟩ := same.view_eq ⟨position, found, there⟩
  unfold numberOperand
  cases next : tokens[position + 1]? with
  | none =>
      rw [(same.getElem?_eq_none_iff (position + 1)).mpr next]
      refine .error ⟨?_, position, found, there⟩
      simp only [OperandError.description, value]
  | some operand =>
      obtain ⟨otherOperand, beside, word, kind⟩ := same.exists_other next
      have together : StandTogether tokens others operand otherOperand :=
        ⟨position + 1, next, beside⟩
      rw [beside]
      simp only [kind, word]
      split
      · cases type.parse operand.value with
        | ok number => exact .ok number
        | error reason =>
            refine .error ⟨?_, together⟩
            simp only [OperandError.description, word]
      · refine .error ⟨?_, together⟩
        simp only [OperandError.description, word]

private theorem wordOperand_alike :
    ReadsAlike (OperandError.Matches tokens others) (wordOperand tokens position token)
      (wordOperand others position other) := by
  unfold wordOperand
  cases next : tokens[position + 1]? with
  | none =>
      rw [(same.getElem?_eq_none_iff (position + 1)).mpr next]
      exact .error ⟨rfl, position, found, there⟩
  | some operand =>
      obtain ⟨otherOperand, beside, word, _⟩ := same.exists_other next
      rw [beside]
      simp only [word]
      exact .ok operand.value

theorem ofMnemonic_alike (mnemonic : Mnemonic) :
    ReadsAlike (OperandError.Matches tokens others) (ofMnemonic tokens position token mnemonic)
      (ofMnemonic others position other mnemonic) := by
  have number := numberOperand_alike same found there
  cases mnemonic with
  | moveForward | moveBackward => exact (number (.integer .u64)).map _
  | increment | decrement => exact (number (.integer .u8)).map _
  | setAs type => exact (number type).map _
  | setString => exact (wordOperand_alike same found there).map _
  | loopOpen | loopClose | readByte | readLine | writeCell | writeAs _ | writeRun | clearRun =>
      exact .ok _

theorem fetch_alike :
    ReadsAlike
      (fun error other => RunFault.Matches tokens others (.notInstruction error)
        (.notInstruction other))
      (fetch tokens position token) (fetch others position other) := by
  obtain ⟨value, kind⟩ := same.view_eq ⟨position, found, there⟩
  have together : StandTogether tokens others token other := ⟨position, found, there⟩
  unfold fetch
  rw [kind]
  cases token.kind with
  | unknown =>
      refine .error ⟨?_, together⟩
      simp only [RunFault.cause, InstructionError.description, value]
  | number =>
      refine .error ⟨?_, together⟩
      simp only [RunFault.cause, InstructionError.description, value]
  | instruction mnemonic =>
      have read := ofMnemonic_alike same found there mnemonic
      dsimp only
      generalize ofMnemonic tokens position token mnemonic = first at read ⊢
      generalize ofMnemonic others position other mnemonic = second at read ⊢
      cases read with
      | ok instruction => exact .ok instruction
      | error matched =>
          refine .error ⟨?_, matched.together⟩
          simp only [RunFault.cause, InstructionError.description, matched.description]

end

end Instruction

/-! ## Translations -/

namespace Brainfuck

/-- Two refusals to translate are of the same kind and have the same description. -/
structure TranslationError.Matches (error other : TranslationError) : Prop where
  kind : other.kind = error.kind
  description : other.description = error.description

variable {position : Nat} {token other : Token}

private theorem advance_alike (same : SameWords tokens others)
    (found : tokens[position]? = some token)
    (there : others[position]? = some other) (scopes : Scopes) :
    ReadsAlike TranslationError.Matches (advance tokens position token scopes)
      (advance others position other scopes) := by
  obtain ⟨value, kind⟩ := same.view_eq ⟨position, found, there⟩
  have unsupported : TranslationError.Matches (.notSupported token) (.notSupported other) := by
    refine ⟨rfl, ?_⟩
    simp only [TranslationError.description, value]
  unfold advance
  rw [kind]
  cases token.kind with
  | unknown | number => exact .error unsupported
  | instruction mnemonic =>
      have read := Instruction.ofMnemonic_alike same found there mnemonic
      dsimp only
      split
      · exact .error unsupported
      · generalize Instruction.ofMnemonic tokens position token mnemonic = first at read ⊢
        generalize Instruction.ofMnemonic others position other mnemonic = second at read ⊢
        cases read with
        | error matched => exact .error ⟨rfl, matched.description⟩
        | ok instruction =>
            split
            · contradiction
            · exact .ok _
            · cases scopes.closeLoop? with
              | some closed => exact .ok _
              | none => exact .error ⟨rfl, rfl⟩
            · split
              · exact .ok _
              · exact .error unsupported

/-- A translation goes on with what its step comes to. -/
theorem translateFrom_eq (found : tokens[position]? = some token) (scopes : Scopes) :
    translateFrom tokens position scopes =
      match advance tokens position token scopes with
      | .error error => .error error
      | .ok (next, scopes) => translateFrom tokens next scopes := by
  obtain ⟨within, same⟩ := Array.getElem?_eq_some_iff.mp found
  subst same
  rw [translateFrom]
  simp only [within, ↓reduceDIte]
  split <;> simp only [*]

theorem translateFrom_end (past : tokens[position]? = none) (scopes : Scopes) :
    translateFrom tokens position scopes = .ok scopes.nodes := by
  have outside : ¬position < tokens.size := Nat.not_lt.mpr (Array.getElem?_eq_none_iff.mp past)
  rw [translateFrom]
  simp only [outside, ↓reduceDIte]

private theorem translateFrom_alike (same : SameWords tokens others) (position : Nat)
    (scopes : Scopes) :
    ReadsAlike TranslationError.Matches (translateFrom tokens position scopes)
      (translateFrom others position scopes) := by
  fun_induction translateFrom tokens position scopes with
  | case1 position scopes within error refused =>
      have found := Array.getElem?_eq_getElem within
      obtain ⟨other, there, _⟩ := same.exists_other found
      have alike := advance_alike same found there scopes
      rw [translateFrom_eq there]
      generalize advance others position other scopes = advanced at alike ⊢
      rw [refused] at alike
      cases alike with
      | error matched => exact .error matched
  | case2 position scopes within next later stepped ih =>
      have found := Array.getElem?_eq_getElem within
      obtain ⟨other, there, _⟩ := same.exists_other found
      have alike := advance_alike same found there scopes
      rw [translateFrom_eq there]
      generalize advance others position other scopes = advanced at alike ⊢
      rw [stepped] at alike
      cases alike with
      | ok => exact ih
  | case3 position scopes past =>
      have ended : tokens[position]? = none :=
        Array.getElem?_eq_none_iff.mpr (Nat.le_of_not_lt past)
      rw [translateFrom_end ((same.getElem?_eq_none_iff position).mpr ended)]
      exact .ok _

theorem ofTokens_alike (same : SameWords tokens others) :
    ReadsAlike TranslationError.Matches (ofTokens tokens) (ofTokens others) :=
  translateFrom_alike same 0 {}

end Brainfuck

end WordTape
