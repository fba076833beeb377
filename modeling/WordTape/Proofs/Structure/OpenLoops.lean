import Mathlib.Data.List.Basic
import WordTape.Proofs.Structure.Reading

/-!
# The open loops of a scan

A scan goes over the tokens once, from left to right, skipping the operand of every
instruction that takes one. It matches each `pol` with the nearest `lop` before it that
no earlier `pol` is matched with. The loops that are open at a place are the `lop`
instructions before it that no `pol` before it is matched with. No instruction is run
for this.
-/

set_option autoImplicit false

namespace WordTape

def TokenKind.takesOperand : TokenKind → Bool
  | .instruction mnemonic => decide (mnemonic.operand ≠ .none)
  | .number | .unknown => false

namespace Scan

/-- The token at a position is the operand of the instruction before it. -/
def isOperand (tokens : Array Token) : Nat → Bool
  | 0 => false
  | position + 1 =>
      !isOperand tokens position && tokens[position]?.any (·.kind.takesOperand)

/-- The scan comes to an instruction at a position. -/
def IsBoundary (tokens : Array Token) (position : Nat) : Prop :=
  position < tokens.size ∧ isOperand tokens position = false

instance (tokens : Array Token) (position : Nat) : Decidable (IsBoundary tokens position) :=
  inferInstanceAs (Decidable (_ ∧ _))

/-- The last instruction of a program, the first position if there is none. -/
def lastBoundary (tokens : Array Token) : Nat :=
  (((List.range tokens.size).filter (IsBoundary tokens ·)).getLast?).getD 0

/-- An instruction of the mnemonic begins at a position. -/
def begins (mnemonic : Mnemonic) (tokens : Array Token) (position : Nat) : Bool :=
  !isOperand tokens position && tokens[position]?.any (·.kind = .instruction mnemonic)

/-- The `lop` instructions before a position that are not among the matched ones. -/
def unmatched (tokens : Array Token) (matched : List (Nat × Nat)) (position : Nat) : List Nat :=
  (List.range position).filter fun opened =>
    begins .loopOpen tokens opened && !matched.any (·.1 = opened)

/-- The `pol` instructions before a position, each with the `lop` that it is matched
with: the nearest before it that is not matched. -/
def loopMatches (tokens : Array Token) : Nat → List (Nat × Nat)
  | 0 => []
  | position + 1 =>
      let matched := loopMatches tokens position
      if begins .loopClose tokens position then
        match (unmatched tokens matched position).getLast? with
        | some opened => (opened, position) :: matched
        | none => matched
      else matched

/-- The loops that are open at a position, the outermost first. -/
def openLoops (tokens : Array Token) (position : Nat) : List Nat :=
  unmatched tokens (loopMatches tokens position) position

variable {tokens : Array Token} {position opened : Nat}

theorem openLoops_increasing (tokens : Array Token) (position : Nat) :
    (openLoops tokens position).Pairwise (· < ·) :=
  List.pairwise_lt_range.filter _

theorem begins_of_mem_openLoops (member : opened ∈ openLoops tokens position) :
    begins .loopOpen tokens opened = true := by
  have chosen := (List.mem_filter.mp member).2
  rw [Bool.and_eq_true] at chosen
  exact chosen.1

theorem lt_of_mem_openLoops (member : opened ∈ openLoops tokens position) : opened < position :=
  List.mem_range.mp (List.mem_filter.mp member).1

private theorem begins_of_kind {token : Token} {mnemonic : Mnemonic}
    (found : tokens[position]? = some token) (kind : token.kind = .instruction mnemonic)
    (boundary : isOperand tokens position = false) (other : Mnemonic) :
    begins other tokens position = decide (mnemonic = other) := by
  simp [begins, found, kind, boundary]

/-- An operand begins no instruction, whatever its word. -/
theorem begins_operand (operand : isOperand tokens position = true) (mnemonic : Mnemonic) :
    begins mnemonic tokens position = false := by
  rw [begins, operand]
  rfl

theorem isOperand_of_begins {mnemonic : Mnemonic}
    (here : begins mnemonic tokens position = true) (bare : mnemonic.operand = .none) :
    isOperand tokens (position + 1) = false := by
  simp only [begins, Bool.and_eq_true, Option.any_eq_true] at here
  obtain ⟨boundary, token, found, kind⟩ := here
  simp only [decide_eq_true_eq] at kind
  simp [isOperand, found, kind, TokenKind.takesOperand, bare]

theorem begins_loopClose_of_loopOpen (opens : begins .loopOpen tokens position = true) :
    begins .loopClose tokens position = false := by
  simp only [begins, Bool.and_eq_true, Option.any_eq_true, decide_eq_true_eq] at opens
  obtain ⟨boundary, token, found, kind⟩ := opens
  simp [begins, found, kind]

private theorem lt_of_mem_loopMatches {pair : Nat × Nat}
    (member : pair ∈ loopMatches tokens position) :
    pair.1 < position := by
  induction position with
  | zero => cases member
  | succ position ih =>
      have earlier (inside : pair ∈ loopMatches tokens position) : pair.1 < position + 1 :=
        Nat.lt_succ_of_lt (ih inside)
      simp only [loopMatches] at member
      split at member
      · split at member
        · rename_i opened last
          rcases List.mem_cons.mp member with rfl | member
          · have inside : opened ∈ openLoops tokens position := List.mem_of_getLast? last
            exact Nat.lt_succ_of_lt (lt_of_mem_openLoops inside)
          · exact earlier member
        · exact earlier member
      · exact earlier member

/-! ## One step of the scan -/

theorem unmatched_succ (matched : List (Nat × Nat)) :
    unmatched tokens matched (position + 1) =
      unmatched tokens matched position ++
        if begins .loopOpen tokens position && !matched.any (·.1 = position) then [position]
        else [] := by
  simp only [unmatched, List.range_succ, List.filter_append, List.filter_cons, List.filter_nil]

theorem openLoops_succ_loopOpen (opens : begins .loopOpen tokens position = true) :
    openLoops tokens (position + 1) = openLoops tokens position ++ [position] := by
  have fresh : (loopMatches tokens position).any (·.1 = position) = false := by
    rw [List.any_eq_false]
    intro pair member
    have := lt_of_mem_loopMatches member
    simp only [decide_eq_true_eq]
    omega
  simp [openLoops, loopMatches, begins_loopClose_of_loopOpen opens, unmatched_succ, opens, fresh]

theorem openLoops_succ_other (notOpen : begins .loopOpen tokens position = false)
    (notClose : begins .loopClose tokens position = false) :
    openLoops tokens (position + 1) = openLoops tokens position := by
  simp [openLoops, loopMatches, notClose, unmatched_succ, notOpen]

/-- An increasing list without its last element. -/
private theorem filter_ne_last {front : List Nat} {last : Nat}
    (increasing : (front ++ [last]).Pairwise (· < ·)) :
    (front ++ [last]).filter (· ≠ last) = front := by
  obtain ⟨_, _, below⟩ := List.pairwise_append.mp increasing
  have kept : front.filter (· ≠ last) = front := by
    apply List.filter_eq_self.mpr
    intro element member
    exact decide_eq_true (Nat.ne_of_lt (below element member last (List.mem_singleton_self last)))
  rw [List.filter_append, kept]
  simp

theorem openLoops_succ_loopClose (closes : begins .loopClose tokens position = true) :
    openLoops tokens (position + 1) = (openLoops tokens position).dropLast := by
  have notOpen : begins .loopOpen tokens position = false := by
    cases opens : begins .loopOpen tokens position with
    | false => rfl
    | true =>
        rw [begins_loopClose_of_loopOpen opens] at closes
        cases closes
  have increasing := openLoops_increasing tokens position
  simp only [openLoops, loopMatches, closes, ↓reduceIte, unmatched_succ, notOpen, Bool.false_and,
    Bool.false_eq_true, List.append_nil] at increasing ⊢
  rcases List.eq_nil_or_concat' (unmatched tokens (loopMatches tokens position) position) with
    none | ⟨front, last, split⟩
  · simp [none]
  · rw [split] at increasing ⊢
    simp only [List.getLast?_concat, List.dropLast_concat]
    have removed : unmatched tokens ((last, position) :: loopMatches tokens position) position =
        (unmatched tokens (loopMatches tokens position) position).filter (· ≠ last) := by
      simp only [unmatched, List.filter_filter]
      apply List.filter_congr
      intro opened _
      simp only [List.any_cons]
      grind
    rw [removed, split]
    exact filter_ne_last increasing

/-! ## Loops that stay open -/

/-- A loop that is open at a place has stayed open, with the loops around it. -/
private theorem openLoops_prefix (member : opened ∈ openLoops tokens position) :
    openLoops tokens (opened + 1) <+: openLoops tokens position := by
  induction position with
  | zero => cases member
  | succ position ih =>
      cases opens : begins .loopOpen tokens position with
      | true =>
          rw [openLoops_succ_loopOpen opens] at member ⊢
          rcases List.mem_append.mp member with inside | here
          · exact (ih inside).trans (List.prefix_append _ _)
          · have whole : openLoops tokens (opened + 1) =
                openLoops tokens position ++ [position] := by
              rw [List.mem_singleton.mp here, openLoops_succ_loopOpen opens]
            exact whole ▸ List.prefix_rfl
      | false =>
          cases closes : begins .loopClose tokens position with
          | false =>
              rw [openLoops_succ_other opens closes] at member ⊢
              exact ih member
          | true =>
              rw [openLoops_succ_loopClose closes] at member ⊢
              have increasing := openLoops_increasing tokens position
              rcases List.eq_nil_or_concat' (openLoops tokens position) with
                none | ⟨front, last, split⟩
              · rw [none] at member
                cases member
              rw [split] at member increasing ih ⊢
              rw [List.dropLast_concat] at member ⊢
              have below := (List.pairwise_append.mp increasing).2.2 opened member last
                (List.mem_singleton_self last)
              rcases List.prefix_concat_iff.mp (ih (List.mem_append_left _ member)) with
                whole | inside
              · have shown : last ∈ openLoops tokens (opened + 1) :=
                  whole ▸ List.mem_append_right _ (List.mem_singleton_self last)
                have := lt_of_mem_openLoops shown
                omega
              · exact inside

/-- Behind the `lop` of the innermost open loop the same loops are open. -/
theorem openLoops_innermost {outer : List Nat}
    (split : openLoops tokens position = outer ++ [opened]) :
    openLoops tokens (opened + 1) = outer ++ [opened] := by
  have increasing := openLoops_increasing tokens position
  have member : opened ∈ openLoops tokens position :=
    split ▸ List.mem_append_right _ (List.mem_singleton_self opened)
  have here := openLoops_succ_loopOpen (begins_of_mem_openLoops member)
  have inside := openLoops_prefix member
  rw [split] at inside increasing
  rcases List.prefix_concat_iff.mp inside with whole | inside
  · exact whole
  · have repeated : opened ∈ outer := by
      apply inside.subset
      rw [here]
      exact List.mem_append_right _ (List.mem_singleton_self opened)
    have := (List.pairwise_append.mp increasing).2.2 opened repeated opened
      (List.mem_singleton_self opened)
    omega

/-! ## Boundaries -/

section

variable {token : Token} {instruction : Instruction}
  (stands : Stands tokens position token instruction)
  (boundary : isOperand tokens position = false)

include stands boundary

/-- Behind an instruction stands its operand, if it has one, and then a boundary. -/
theorem boundary_cases :
    instruction.length = 1 ∧ isOperand tokens (position + 1) = false ∨
      instruction.length = 2 ∧ isOperand tokens (position + 1) = true ∧
        isOperand tokens (position + 2) = false := by
  have kind := stands.kind
  by_cases bare : instruction.mnemonic.operand = .none
  · left
    constructor
    · simp only [Instruction.length, Mnemonic.length, bare]
    · simp [isOperand, boundary, stands.found, kind, TokenKind.takesOperand, bare]
  · right
    have operand : isOperand tokens (position + 1) = true := by
      simp [isOperand, boundary, stands.found, kind, TokenKind.takesOperand, bare]
    refine ⟨?_, operand, ?_⟩
    · cases expected : instruction.mnemonic.operand with
      | none => contradiction
      | number _ | word => simp only [Instruction.length, Mnemonic.length, expected]
    · rw [isOperand, operand]
      rfl

theorem isOperand_next : isOperand tokens (position + instruction.length) = false := by
  rcases boundary_cases stands boundary with ⟨length, next⟩ | ⟨length, _, next⟩
  · rw [length]
    exact next
  · rw [length]
    exact next

theorem begins_of_stands (mnemonic : Mnemonic) :
    begins mnemonic tokens position = decide (instruction.mnemonic = mnemonic) :=
  begins_of_kind stands.found stands.kind boundary mnemonic

theorem not_begins_loopOpen (notOpen : instruction ≠ .loopOpen) :
    begins .loopOpen tokens position = false := by
  rw [begins_of_stands stands boundary, decide_eq_false_iff_not]
  intro same
  cases instruction <;> contradiction

theorem not_begins_loopClose (notClose : instruction ≠ .loopClose) :
    begins .loopClose tokens position = false := by
  rw [begins_of_stands stands boundary, decide_eq_false_iff_not]
  intro same
  cases instruction <;> contradiction

/-- Past an instruction other than the loop instructions the same loops are open. -/
theorem openLoops_next (notOpen : instruction ≠ .loopOpen) (notClose : instruction ≠ .loopClose) :
    openLoops tokens (position + instruction.length) = openLoops tokens position := by
  have opens := not_begins_loopOpen stands boundary notOpen
  have closes := not_begins_loopClose stands boundary notClose
  rcases boundary_cases stands boundary with ⟨length, next⟩ | ⟨length, operand, next⟩
  · rw [length, openLoops_succ_other opens closes]
  · rw [length, openLoops_succ_other (begins_operand operand _) (begins_operand operand _),
      openLoops_succ_other opens closes]

/-- An instruction that the tokens end with is the last. -/
theorem lastBoundary_eq (ended : position + instruction.length = tokens.size) :
    lastBoundary tokens = position := by
  have here : IsBoundary tokens position := by
    have := instruction.length_pos
    exact ⟨by omega, boundary⟩
  rcases boundary_cases stands boundary with ⟨length, next⟩ | ⟨length, operand, next⟩
  · have size : tokens.size = position + 1 := by omega
    simp [lastBoundary, size, List.range_succ, here]
  · have size : tokens.size = position + 2 := by omega
    have skipped : ¬IsBoundary tokens (position + 1) := by simp [IsBoundary, operand]
    simp [lastBoundary, size, List.range_succ, here, skipped]

end

end Scan

end WordTape
