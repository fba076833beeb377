import WordTape.Proofs.Numeric.Literal
import WordTape.Proofs.SessionRun

/-!
# Programs without loops

A source made of the words of instructions has these instructions as its program. If no
loop is among them and none of them faults, its run performs them in a row and completes.
-/

set_option autoImplicit false

namespace WordTape

def Mnemonic.word (mnemonic : Mnemonic) : Bytes :=
  Bytes.ofString mnemonic.spelling

def Source.ofWords (words : List Bytes) : Source :=
  .contents (Lexer.joined words)

/-- The words of an instruction that is no loop instruction. A number is spelled by any
literal for it. -/
inductive Spells : List Bytes → Instruction → Prop where
  | bare {instruction : Instruction} :
      instruction.mnemonic.operand = .none →
      instruction ≠ .loopOpen → instruction ≠ .loopClose →
      Spells [instruction.mnemonic.word] instruction
  | moveForward {text : Bytes} {steps : Nat} :
      NumericType.IsLiteral (.integer .u64) text (steps : Int) →
      Spells [Mnemonic.moveForward.word, text] (.moveForward steps)
  | moveBackward {text : Bytes} {steps : Nat} :
      NumericType.IsLiteral (.integer .u64) text (steps : Int) →
      Spells [Mnemonic.moveBackward.word, text] (.moveBackward steps)
  | increment {text : Bytes} {amount : Nat} :
      NumericType.IsLiteral (.integer .u8) text (amount : Int) →
      Spells [Mnemonic.increment.word, text] (.increment amount)
  | decrement {text : Bytes} {amount : Nat} :
      NumericType.IsLiteral (.integer .u8) text (amount : Int) →
      Spells [Mnemonic.decrement.word, text] (.decrement amount)
  | setString {word : Bytes} : Lexer.IsWord word →
      Spells [Mnemonic.setString.word, word] (.setString word)
  | setAs {type : NumericType} {text : Bytes} {value : type.Value} :
      type.IsLiteral text value → Spells [(Mnemonic.setAs type).word, text] (.setAs type value)

inductive SpellsAll : List Bytes → List Instruction → Prop where
  | nil : SpellsAll [] []
  | cons {words rest : List Bytes} {instruction : Instruction}
      {instructions : List Instruction} :
      Spells words instruction → SpellsAll rest instructions →
      SpellsAll (words ++ rest) (instruction :: instructions)

/-- Performs instructions one after another, up to the first that stops. -/
def Instruction.actAll : List Instruction → Device → Outcome Device
  | [], device => .done device
  | instruction :: rest, device => (instruction.act device).andThen (actAll rest)

theorem Instruction.actAll_cons {instruction : Instruction} {device next : Device}
    (acted : instruction.act device = .done next) (rest : List Instruction) :
    actAll (instruction :: rest) device = actAll rest next := by
  rw [actAll, acted, Outcome.andThen]

open Lexer

variable {tokens : Array Token} {position : Nat} {words : List Bytes}
  {instruction : Instruction} {instructions : List Instruction}

def WordsAt (tokens : Array Token) (position : Nat) (words : List Bytes) : Prop :=
  ∀ index word, words[index]? = some word → WordAt tokens (position + index) word

theorem WordsAt.of_append {left right : List Bytes}
    (standing : WordsAt tokens position (left ++ right)) :
    WordsAt tokens position left ∧ WordsAt tokens (position + left.length) right := by
  constructor
  · intro index word found
    apply standing
    rw [List.getElem?_append_left (List.getElem?_eq_some_iff.mp found).1, found]
  · intro index word found
    rw [Nat.add_assoc]
    apply standing
    rw [List.getElem?_append_right (Nat.le_add_right _ _), Nat.add_sub_cancel_left, found]

private theorem stands_of_word {mnemonic : Mnemonic}
    (standing : WordAt tokens position mnemonic.word)
    (reads : ∀ token, Instruction.ofMnemonic tokens position token mnemonic = .ok instruction) :
    ∃ token, Stands tokens position token instruction := by
  obtain ⟨token, found, value, kind⟩ := standing
  have instructionKind : token.kind = .instruction mnemonic :=
    kind.trans (classify_spelling mnemonic)
  refine ⟨token, found, ?_⟩
  simp only [Instruction.fetch, instructionKind, reads]

private theorem numberOperand_of_literal {type : NumericType} {text : Bytes} {value : type.Value}
    (standing : WordAt tokens (position + 1) text) (literal : type.IsLiteral text value)
    (token : Token) :
    Instruction.numberOperand tokens position token type = .ok value := by
  obtain ⟨operand, found, same, kind⟩ := standing
  have number : operand.kind = .number := kind.trans literal.number
  simp only [Instruction.numberOperand, found, number, ↓reduceIte, same, literal.parses]

private theorem Spells.stands (spells : Spells words instruction)
    (standing : WordsAt tokens position words) :
    ∃ token, Stands tokens position token instruction := by
  cases spells with
  | @bare instruction none notOpen notClose =>
      apply stands_of_word (standing 0 _ rfl)
      intro token
      cases instruction <;> first | contradiction | rfl
  | setString isWord =>
      apply stands_of_word (standing 0 _ rfl)
      intro token
      obtain ⟨operand, found, same, kind⟩ := standing 1 _ rfl
      simp only [Instruction.ofMnemonic, Instruction.wordOperand, found, same, Except.map]
  | setAs literal =>
      apply stands_of_word (standing 0 _ rfl)
      intro token
      have operand := numberOperand_of_literal (standing 1 _ rfl) literal token
      simp only [Nat.add_zero, Instruction.ofMnemonic, operand, Except.map]
  | moveForward literal | moveBackward literal | increment literal | decrement literal =>
      apply stands_of_word (standing 0 _ rfl)
      intro token
      have operand := numberOperand_of_literal (standing 1 _ rfl) literal token
      simp only [Nat.add_zero, Instruction.ofMnemonic, operand, Except.map, Int.toNat_natCast]

private theorem Spells.length_eq (spells : Spells words instruction) :
    instruction.length = words.length := by
  cases spells with
  | bare none notOpen notClose => simp only [Instruction.length, Mnemonic.length, none]; rfl
  | _ => rfl

private theorem Spells.not_loop (spells : Spells words instruction) :
    instruction ≠ .loopOpen ∧ instruction ≠ .loopClose := by
  cases spells with
  | bare none notOpen notClose => exact ⟨notOpen, notClose⟩
  | _ => exact ⟨Instruction.noConfusion, Instruction.noConfusion⟩

theorem Spells.areWords (spells : Spells words instruction) : ∀ word ∈ words, IsWord word := by
  have mnemonicWord (mnemonic : Mnemonic) : IsWord mnemonic.word := isWord_spelling mnemonic
  intro word member
  cases spells with
  | bare none notOpen notClose =>
      rw [List.mem_singleton.mp member]
      exact mnemonicWord _
  | setString isWord =>
      simp only [List.mem_cons, List.not_mem_nil, or_false] at member
      rcases member with rfl | rfl
      · exact mnemonicWord _
      · exact isWord
  | setAs literal | moveForward literal | moveBackward literal | increment literal
  | decrement literal =>
      simp only [List.mem_cons, List.not_mem_nil, or_false] at member
      rcases member with rfl | rfl
      · exact mnemonicWord _
      · exact literal.isWord

theorem SpellsAll.areWords (spells : SpellsAll words instructions) :
    ∀ word ∈ words, IsWord word := by
  induction spells with
  | nil => simp
  | cons first _ ih =>
      intro word member
      rcases List.mem_append.mp member with member | member
      · exact first.areWords word member
      · exact ih word member

/-- A run performs the instructions whose words stand before it. -/
theorem SpellsAll.reaches (spells : SpellsAll words instructions)
    (standing : WordsAt tokens position words) {loops : List Nat} {device final : Device}
    {state : Nat × Machine} (arrived : Machine.At position loops device state)
    (acted : Instruction.actAll instructions device = .done final) :
    ∃ last, Machine.At (position + words.length) loops final last ∧
      (Machine.runs tokens).Reaches state last := by
  induction spells generalizing position device state with
  | nil =>
      cases acted
      exact ⟨state, arrived, .refl⟩
  | @cons words rest instruction instructions first _ ih =>
      obtain ⟨here, further⟩ := standing.of_append
      obtain ⟨token, stands⟩ := first.stands here
      obtain ⟨notOpen, notClose⟩ := first.not_loop
      have carried : (Machine.runs tokens).Carries 0 _ _ state _ :=
        arrived.carries_act stands notOpen notClose
      rw [Instruction.evaluate] at carried
      rw [Instruction.actAll] at acted
      cases performed : instruction.act device with
      | stopped stopped cause =>
          rw [performed] at acted
          cases acted
      | done next =>
          rw [performed] at acted carried
          obtain ⟨middle, arrived, reached⟩ := carried
          rw [first.length_eq] at arrived
          obtain ⟨last, ended, later⟩ := ih further arrived acted
          rw [List.length_append, ← Nat.add_assoc]
          exact ⟨last, ended, reached.trans later⟩

namespace Session

/-- A run of the source completes and leaves a device of which the property holds. -/
def Completes (session : Session) (source : Source) (property : Device → Prop) : Prop :=
  ∃ bound last, session.run bound source = .completed last ∧ property last.machine.device

theorem Completes.imp {session : Session} {source : Source} {property implied : Device → Prop}
    (completes : session.Completes source property)
    (implies : ∀ device, property device → implied device) :
    session.Completes source implied := by
  obtain ⟨bound, last, completed, holds⟩ := completes
  exact ⟨bound, last, completed, implies _ holds⟩

/-- A program of instructions that all succeed completes on the device that they leave, with
its output flushed. -/
theorem completes_of_spellsAll {session : Session} {final : Device}
    (spells : SpellsAll words instructions)
    (acted : Instruction.actAll instructions session.machine.device = .done final)
    (flushes : final.output.flushRefusal final.output.flushes = none) :
    session.Completes (.ofWords words) fun device =>
      device = { final with output.flushes := final.output.flushes + 1 } := by
  have areWords := spells.areWords
  have standing : WordsAt (tokenize (joined words)) 0 words := by
    intro index word found
    rw [Nat.zero_add]
    exact wordAt_tokenize_joined areWords found
  obtain ⟨events, starts⟩ := session.machineFor_eq (joined words)
  have start : Machine.At 0 [] session.machine.device (0, session.machineFor (joined words)) := by
    rw [starts]
    exact ⟨rfl, rfl, rfl⟩
  obtain ⟨⟨position, machine⟩, arrived, steps, ran⟩ := spells.reaches standing start acted
  obtain ⟨rfl, -, rfl⟩ := arrived
  have past : (tokenize (joined words))[0 + words.length]? = none := by
    rw [Nat.zero_add, ← size_tokenize_joined areWords]
    simp
  have finished := ran 0
  simp only [Machine.runs, Machine.execute_end past] at finished
  refine ⟨steps + 0, ⟨recorded machine, tokenize (joined words)⟩, ?_, rfl⟩
  rw [Source.ofWords, run_eq_of_readable rfl, finished]
  exact conclude_completed (tokenize (joined words)) flushes

end Session

end WordTape
