import WordTape.Proofs.Structure.Reading

/-!
# Programs have one reading

The rules by which statements and open loops stand next to each other leave no choice. The
reading from left to right finds the statements of a program if it has any, and a program
cannot be divided into others.
-/

set_option autoImplicit false

namespace WordTape

/-- The items are the nesting of a program: they span its tokens, and no others do. -/
def Nests (tokens : Array Token) (items : List Item) : Prop :=
  ∀ other, ItemsSpan tokens 0 other tokens.size ↔ other = items

variable {tokens : Array Token} {position next : Nat}

/-! ## Ends -/

private theorem Spans.le_size {statements : List Statement}
    (spans : Spans tokens position statements next) (within : position ≤ tokens.size) :
    next ≤ tokens.size := by
  induction spans with
  | nil => exact within
  | plain stands _ _ _ ih => exact ih stands.within
  | loop _ _ closes _ _ ih => exact ih closes.within

private theorem ItemsSpan.le_size {items : List Item} (spans : ItemsSpan tokens position items next)
    (within : position ≤ tokens.size) : next ≤ tokens.size := by
  induction spans with
  | nil => exact within
  | statement spans _ ih => exact ih (spans.le_size within)
  | openLoop opens _ ih => exact ih opens.within

/-- Items that span a program up to a place without a token span all of it. -/
theorem ItemsSpan.eq_size {items : List Item} (spans : ItemsSpan tokens 0 items next)
    (ended : tokens[next]? = none) : next = tokens.size :=
  Nat.le_antisymm (spans.le_size (Nat.zero_le _)) (Array.getElem?_eq_none_iff.mp ended)

/-! ## Reading from a position on -/

namespace Nesting

/-- What the program comes to if reading goes on from a position. -/
def outlineFrom (tokens : Array Token) (position : Nat) (nesting : Nesting) : Outline :=
  nesting.outline (sitesFrom tokens position).2 (sitesFrom tokens position).1

section

variable {token : Token} {instruction : Instruction}

theorem sitesFrom_of_stands (stands : Stands tokens position token instruction) :
    sitesFrom tokens position =
      ({ position, token, instruction } ::
          (sitesFrom tokens (position + instruction.length)).1,
        (sitesFrom tokens (position + instruction.length)).2) := by
  obtain ⟨inside, rfl⟩ := Array.getElem?_eq_some_iff.mp stands.found
  rw [sitesFrom]
  simp only [inside, ↓reduceDIte, stands.reads]

private theorem outlineFrom_plain (stands : Stands tokens position token instruction)
    (notOpen : instruction ≠ .loopOpen) (notClose : instruction ≠ .loopClose)
    (nesting : Nesting) :
    outlineFrom tokens position nesting =
      outlineFrom tokens (position + instruction.length)
        (nesting.push (.plain token instruction)) := by
  rw [outlineFrom, sitesFrom_of_stands stands]
  cases instruction with
  | loopOpen | loopClose => contradiction
  | _ => rfl

theorem outlineFrom_loopOpen (opens : Stands tokens position token .loopOpen)
    (nesting : Nesting) :
    outlineFrom tokens position nesting =
      outlineFrom tokens (position + 1) (nesting.openLoop position) := by
  rw [outlineFrom, sitesFrom_of_stands opens]
  rfl

private theorem outlineFrom_loopClose (closes : Stands tokens position token .loopClose)
    {nesting closed : Nesting} (result : nesting.closeLoop? token = some closed) :
    outlineFrom tokens position nesting = outlineFrom tokens (position + 1) closed := by
  rw [outlineFrom, sitesFrom_of_stands closes]
  simp only [outline, result]
  rfl

private theorem outlineFrom_size (tokens : Array Token) (nesting : Nesting) :
    outlineFrom tokens tokens.size nesting = { items := nesting.items, fault? := none } := by
  have past : ¬tokens.size < tokens.size := Nat.lt_irrefl _
  rw [outlineFrom, sitesFrom]
  simp only [past, ↓reduceDIte]
  rfl

end

end Nesting

open Nesting

/-! ## The reading finds what spans the program -/

theorem Spans.outlineFrom {statements : List Statement}
    (spans : Spans tokens position statements next) (innermost : List Statement)
    (outer : List (List Statement × Nat)) :
    Nesting.outlineFrom tokens position { innermost, outer } =
      Nesting.outlineFrom tokens next { innermost := innermost ++ statements, outer } := by
  induction spans generalizing innermost outer with
  | nil => rw [List.append_nil]
  | plain stands notOpen notClose _ ih =>
      rw [outlineFrom_plain stands notOpen notClose]
      exact (ih _ outer).trans (by rw [List.append_assoc, List.singleton_append])
  | @loop position closed next opening closing body rest opens _ closes _ bodyIH restIH =>
      have closed : Nesting.closeLoop? closing
          { innermost := body, outer := (innermost, position) :: outer } = some _ := rfl
      rw [outlineFrom_loopOpen opens, Nesting.openLoop, bodyIH, List.nil_append,
        outlineFrom_loopClose closes closed, restIH, List.append_assoc, List.singleton_append]

theorem ItemsSpan.outlineFrom {items : List Item}
    (spans : ItemsSpan tokens position items next) (nesting : Nesting) :
    ∃ later : Nesting, later.items = nesting.items ++ items ∧
      Nesting.outlineFrom tokens position nesting = Nesting.outlineFrom tokens next later := by
  induction spans generalizing nesting with
  | nil => exact ⟨nesting, (List.append_nil _).symm, rfl⟩
  | @statement _ _ _ statement _ spans _ ih =>
      obtain ⟨later, items, same⟩ := ih (nesting.push statement)
      refine ⟨later, ?_, (spans.outlineFrom nesting.innermost nesting.outer).trans same⟩
      rw [items]
      simp [Nesting.items, Nesting.push]
  | @openLoop position _ _ _ opens _ ih =>
      obtain ⟨later, items, same⟩ := ih (nesting.openLoop position)
      refine ⟨later, ?_, (outlineFrom_loopOpen opens nesting).trans same⟩
      rw [items]
      simp [Nesting.items, Nesting.openLoop, Nesting.outerItems]

/-- The reading comes to the end with some items exactly if these span the program. -/
theorem Outline.ofTokens_eq_iff {items : List Item} :
    Outline.ofTokens tokens = { items, fault? := none } ↔
      ItemsSpan tokens 0 items tokens.size := by
  constructor
  · intro read
    obtain ⟨nesting, position, laid, same, ends⟩ := Outline.ofTokens_reads tokens
    rw [read] at same ends
    cases ends with
    | finished ended =>
        have whole := laid.items
        rw [laid.items.eq_size ended, ← same] at whole
        exact whole
  · intro spans
    obtain ⟨later, same, read⟩ := spans.outlineFrom {}
    have ended : Outline.ofTokens tokens = Nesting.outlineFrom tokens tokens.size later := read
    rw [ended, outlineFrom_size, same]
    rfl

theorem ItemsSpan.nests {items : List Item} (spans : ItemsSpan tokens 0 items tokens.size) :
    Nests tokens items := by
  intro other
  constructor
  · intro otherSpans
    have read := Outline.ofTokens_eq_iff.mpr otherSpans
    rw [Outline.ofTokens_eq_iff.mpr spans] at read
    exact (Outline.mk.inj read).1.symm
  · rintro rfl
    exact spans

theorem Nests.spans {items : List Item} (nests : Nests tokens items) :
    ItemsSpan tokens 0 items tokens.size :=
  (nests items).mpr rfl

end WordTape
