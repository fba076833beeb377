import WordTape.Proofs.Structure.OpenLoops

/-!
# The closed loops around a place

A closed loop stands around the places between its `lop` and its `pol`, as a scan of the
tokens matches these. Statements are passed with the loops open that were open before
them, and close no loop around an earlier place.
-/

set_option autoImplicit false

namespace WordTape

namespace Scan

/-- An instruction other than the loop instructions begins at a place. -/
def IsPlain (tokens : Array Token) (place : Nat) : Prop :=
  IsBoundary tokens place ∧ begins .loopOpen tokens place = false ∧
    begins .loopClose tokens place = false

instance (tokens : Array Token) (place : Nat) : Decidable (IsPlain tokens place) :=
  inferInstanceAs (Decidable (_ ∧ _))

/-- The number of loops around a place that are closed before a position. -/
def loopsAround (tokens : Array Token) (position place : Nat) : Nat :=
  (loopMatches tokens position).countP fun pair => decide (pair.1 < place ∧ place < pair.2)

variable {tokens : Array Token} {position place opened : Nat} {outer : List Nat}

theorem IsPlain.ne_of_begins {mnemonic : Mnemonic} (plain : IsPlain tokens place)
    (loop : mnemonic = .loopOpen ∨ mnemonic = .loopClose)
    (here : begins mnemonic tokens position = true) : place ≠ position := by
  rintro rfl
  obtain ⟨_, notOpen, notClose⟩ := plain
  rcases loop with rfl | rfl
  · rw [notOpen] at here
    cases here
  · rw [notClose] at here
    cases here

private theorem closed_lt_of_mem_loopMatches {pair : Nat × Nat}
    (member : pair ∈ loopMatches tokens position) : pair.2 < position := by
  induction position with
  | zero => cases member
  | succ position ih =>
      have earlier (inside : pair ∈ loopMatches tokens position) : pair.2 < position + 1 :=
        Nat.lt_succ_of_lt (ih inside)
      simp only [loopMatches] at member
      split at member
      · split at member
        · rcases List.mem_cons.mp member with rfl | member
          · exact Nat.lt_succ_self position
          · exact earlier member
        · exact earlier member
      · exact earlier member

/-- No loop around a place is closed before it. -/
theorem loopsAround_eq_zero (before : position ≤ place + 1) :
    loopsAround tokens position place = 0 := by
  rw [loopsAround, List.countP_eq_zero]
  intro pair member
  have := closed_lt_of_mem_loopMatches member
  simp only [decide_eq_true_eq]
  omega

private theorem loopMatches_succ_other (notClose : begins .loopClose tokens position = false) :
    loopMatches tokens (position + 1) = loopMatches tokens position := by
  simp only [loopMatches, notClose, Bool.false_eq_true, ↓reduceIte]

private theorem loopMatches_succ_loopClose (closes : begins .loopClose tokens position = true)
    (innermost : openLoops tokens position = outer ++ [opened]) :
    loopMatches tokens (position + 1) = (opened, position) :: loopMatches tokens position := by
  have last : (unmatched tokens (loopMatches tokens position) position).getLast? =
      some opened := by
    have found := congrArg List.getLast? innermost
    rwa [List.getLast?_concat] at found
  simp only [loopMatches, closes, ↓reduceIte, last]

private theorem loopsAround_succ_other (notClose : begins .loopClose tokens position = false) :
    loopsAround tokens (position + 1) place = loopsAround tokens position place := by
  rw [loopsAround, loopMatches_succ_other notClose, loopsAround]

private theorem loopsAround_succ_loopClose (closes : begins .loopClose tokens position = true)
    (innermost : openLoops tokens position = outer ++ [opened]) :
    loopsAround tokens (position + 1) place =
      loopsAround tokens position place + if opened < place ∧ place < position then 1 else 0 := by
  rw [loopsAround, loopMatches_succ_loopClose closes innermost, List.countP_cons, loopsAround]
  simp only [decide_eq_true_eq]

/-! ## Instructions -/

section

variable {token : Token} {instruction : Instruction}
  (stands : Stands tokens position token instruction)
  (boundary : isOperand tokens position = false)

include stands boundary

theorem isPlain_of_stands (notOpen : instruction ≠ .loopOpen)
    (notClose : instruction ≠ .loopClose) : IsPlain tokens position :=
  ⟨⟨(Array.getElem?_eq_some_iff.mp stands.found).1, boundary⟩,
    not_begins_loopOpen stands boundary notOpen, not_begins_loopClose stands boundary notClose⟩

/-- An instruction begins at no place behind the token of another one and before the
instruction behind it. -/
theorem isPlain_within (plain : IsPlain tokens place) (after : position ≤ place)
    (before : place < position + instruction.length) : place = position := by
  rcases boundary_cases stands boundary with ⟨length, _⟩ | ⟨length, operand, _⟩
  · omega
  · rcases Nat.eq_or_lt_of_le after with same | later
    · exact same.symm
    · have beside : place = position + 1 := by omega
      have instructionHere := plain.1.2
      rw [beside, operand] at instructionHere
      cases instructionHere

theorem loopsAround_next (notClose : instruction ≠ .loopClose) :
    loopsAround tokens (position + instruction.length) place =
      loopsAround tokens position place := by
  have closes := not_begins_loopClose stands boundary notClose
  rcases boundary_cases stands boundary with ⟨length, next⟩ | ⟨length, operand, next⟩
  · rw [length, loopsAround_succ_other closes]
  · rw [length, loopsAround_succ_other (begins_operand operand _), loopsAround_succ_other closes]

end

end Scan

/-! ## Statements -/

open Scan

variable {tokens : Array Token} {position next place : Nat}

/-- Past statements the same loops are open as before them. -/
theorem Spans.scanned {statements : List Statement}
    (spans : Spans tokens position statements next)
    (boundary : isOperand tokens position = false) :
    isOperand tokens next = false ∧ openLoops tokens next = openLoops tokens position := by
  induction spans with
  | nil => exact ⟨boundary, rfl⟩
  | plain stands notOpen notClose _ ih =>
      obtain ⟨later, same⟩ := ih (isOperand_next stands boundary)
      exact ⟨later, same.trans (openLoops_next stands boundary notOpen notClose)⟩
  | loop opens _ closes _ bodyIH restIH =>
      obtain ⟨inside, innermost⟩ := bodyIH (isOperand_next opens boundary)
      obtain ⟨later, same⟩ := restIH (isOperand_next closes inside)
      refine ⟨later, ?_⟩
      rw [same, openLoops_succ_loopClose (begins_of_stands closes inside .loopClose), innermost,
        openLoops_succ_loopOpen (begins_of_stands opens boundary .loopOpen), List.dropLast_concat]

/-- The loop around a body is one more around the places in it. -/
theorem Spans.loopsAround_closed {opening closing : Token} {body : List Statement} {closed : Nat}
    (spans : Spans tokens (position + 1) body closed)
    (opens : Stands tokens position opening .loopOpen)
    (closes : Stands tokens closed closing .loopClose)
    (boundary : isOperand tokens position = false) (place : Nat) :
    loopsAround tokens (closed + 1) place =
      loopsAround tokens closed place + if position < place ∧ place < closed then 1 else 0 := by
  obtain ⟨inside, innermost⟩ := spans.scanned (isOperand_next opens boundary)
  rw [openLoops_succ_loopOpen (begins_of_stands opens boundary .loopOpen)] at innermost
  exact loopsAround_succ_loopClose (begins_of_stands closes inside .loopClose) innermost

/-- Statements close no loop around a place before them. -/
theorem Spans.loopsAround_eq {statements : List Statement}
    (spans : Spans tokens position statements next)
    (boundary : isOperand tokens position = false) (before : place ≤ position) :
    loopsAround tokens next place = loopsAround tokens position place := by
  induction spans with
  | nil => rfl
  | plain stands _ notClose _ ih =>
      have passed := ih (isOperand_next stands boundary) (Nat.le_add_right_of_le before)
      exact passed.trans (loopsAround_next stands boundary notClose)
  | @loop position closed next _ _ _ _ opens spans closes _ bodyIH restIH =>
      have ordered := spans.le
      have inside := isOperand_next opens boundary
      have outside : ¬(position < place ∧ place < closed) := by omega
      calc loopsAround tokens next place
        _ = loopsAround tokens (closed + 1) place :=
            restIH (isOperand_next closes (spans.scanned inside).1) (by omega)
        _ = loopsAround tokens closed place := by
            rw [spans.loopsAround_closed opens closes boundary, if_neg outside, Nat.add_zero]
        _ = loopsAround tokens (position + 1) place := bodyIH inside (by omega)
        _ = loopsAround tokens position place := loopsAround_next opens boundary nofun

theorem ItemsSpan.loopsAround_eq {items : List Item}
    (spans : ItemsSpan tokens position items next)
    (boundary : isOperand tokens position = false) (before : place ≤ position) :
    loopsAround tokens next place = loopsAround tokens position place := by
  induction spans with
  | nil => rfl
  | statement spans _ ih =>
      have passed := ih (spans.scanned boundary).1 (before.trans spans.le)
      exact passed.trans (spans.loopsAround_eq boundary before)
  | openLoop opens _ ih =>
      have passed := ih (isOperand_next opens boundary) (Nat.le_add_right_of_le before)
      exact passed.trans (loopsAround_next opens boundary nofun)

/-- The first `lop` stays open, so that one closed loop is around the `wrt`. -/
example : loopsAround (Lexer.tokenize (Bytes.ofString "lop lop wrt pol")) 4 2 = 1 := by
  decide +kernel

/-- The loops that the scan finds open at the end are those that stay open in the items. -/
theorem ItemsSpan.openLoops_eq {items : List Item}
    (spans : ItemsSpan tokens position items next)
    (boundary : isOperand tokens position = false) :
    openLoops tokens next = openLoops tokens position ++ (openPositions items).reverse := by
  induction spans with
  | nil => exact (List.append_nil _).symm
  | statement spans _ ih =>
      obtain ⟨later, same⟩ := spans.scanned boundary
      rw [ih later, same, openPositions]
  | openLoop opens _ ih =>
      have opened := openLoops_succ_loopOpen (begins_of_stands opens boundary .loopOpen)
      rw [ih (isOperand_next opens boundary), opened, openPositions, List.reverse_append,
        List.append_assoc, List.reverse_singleton, List.singleton_append]

end WordTape
