import WordTape.Proofs.Structure.Statement

/-!
# Where statements stand

Statements stand next to each other in the tokens of a program. What a reading has
collected when it comes to a position spans the tokens before that position, and the
loops that it holds open are those that the program has opened and not closed.
-/

set_option autoImplicit false

namespace WordTape

/-- The token at a position begins an instruction. -/
structure Stands (tokens : Array Token) (position : Nat) (token : Token)
    (instruction : Instruction) : Prop where
  found : tokens[position]? = some token
  reads : Instruction.fetch tokens position token = .ok instruction

/-- Statements without open loops from one position to another. -/
inductive Spans (tokens : Array Token) : Nat → List Statement → Nat → Prop where
  | nil {position : Nat} : Spans tokens position [] position
  | plain {position next : Nat} {token : Token} {instruction : Instruction}
      {rest : List Statement} :
      Stands tokens position token instruction →
      instruction ≠ .loopOpen → instruction ≠ .loopClose →
      Spans tokens (position + instruction.length) rest next →
      Spans tokens position (.plain token instruction :: rest) next
  | loop {position closed next : Nat} {opening closing : Token}
      {body rest : List Statement} :
      Stands tokens position opening .loopOpen →
      Spans tokens (position + 1) body closed →
      Stands tokens closed closing .loopClose →
      Spans tokens (closed + 1) rest next →
      Spans tokens position (.loop body closing :: rest) next

/-- The parts of a program from one position to another. -/
inductive ItemsSpan (tokens : Array Token) : Nat → List Item → Nat → Prop where
  | nil {position : Nat} : ItemsSpan tokens position [] position
  | statement {position middle next : Nat} {statement : Statement} {rest : List Item} :
      Spans tokens position [statement] middle → ItemsSpan tokens middle rest next →
      ItemsSpan tokens position (.statement statement :: rest) next
  | openLoop {position next : Nat} {opening : Token} {rest : List Item} :
      Stands tokens position opening .loopOpen →
      ItemsSpan tokens (position + 1) rest next →
      ItemsSpan tokens position (.openLoop position :: rest) next

section

variable {tokens : Array Token} {position middle next : Nat}

theorem Spans.append {left right : List Statement}
    (first : Spans tokens position left middle) (second : Spans tokens middle right next) :
    Spans tokens position (left ++ right) next := by
  induction first with
  | nil => exact second
  | plain stands notOpen notClose _ ih => exact .plain stands notOpen notClose (ih second)
  | loop opens body closes _ _ ih => exact .loop opens body closes (ih second)

theorem Spans.le {statements : List Statement} (spans : Spans tokens position statements next) :
    position ≤ next := by
  induction spans with
  | nil => exact Nat.le_refl _
  | plain _ _ _ _ ih => omega
  | loop _ _ _ _ bodyIH restIH => omega

theorem ItemsSpan.append {left right : List Item}
    (first : ItemsSpan tokens position left middle)
    (second : ItemsSpan tokens middle right next) :
    ItemsSpan tokens position (left ++ right) next := by
  induction first with
  | nil => exact second
  | statement spans _ ih => exact .statement spans (ih second)
  | openLoop opens _ ih => exact .openLoop opens (ih second)

theorem Spans.items {statements : List Statement}
    (spans : Spans tokens position statements next) :
    ItemsSpan tokens position (statements.map .statement) next := by
  induction spans with
  | nil => exact .nil
  | plain stands notOpen notClose _ ih =>
      exact .statement (.plain stands notOpen notClose .nil) ih
  | loop opens body closes _ _ ih => exact .statement (.loop opens body closes .nil) ih

end

/-- The positions of the loops that stay open, the innermost first. -/
def openPositions : List Item → List Nat
  | [] => []
  | .statement _ :: rest => openPositions rest
  | .openLoop position :: rest => openPositions rest ++ [position]

@[simp] theorem openPositions_append (left right : List Item) :
    openPositions (left ++ right) = openPositions right ++ openPositions left := by
  induction left with
  | nil => simp [openPositions]
  | cons item rest ih => cases item <;> simp [openPositions, ih]

@[simp] theorem openPositions_map_statement (statements : List Statement) :
    openPositions (statements.map .statement) = [] := by
  induction statements with
  | nil => rfl
  | cons statement rest ih => exact ih

namespace Nesting

/-- The scopes around an open loop end where it begins. -/
inductive ScopesLaid (tokens : Array Token) : List (List Statement × Nat) → Nat → Prop where
  | outermost : ScopesLaid tokens [] 0
  | inside {start opened : Nat} {opening : Token} {scope : List Statement}
      {outer : List (List Statement × Nat)} :
      ScopesLaid tokens outer start → Spans tokens start scope opened →
      Stands tokens opened opening .loopOpen →
      ScopesLaid tokens ((scope, opened) :: outer) (opened + 1)

/-- A reading has come to a position. -/
def Laid (tokens : Array Token) (nesting : Nesting) (position : Nat) : Prop :=
  ∃ start, ScopesLaid tokens nesting.outer start ∧ Spans tokens start nesting.innermost position

variable {tokens : Array Token} {nesting : Nesting} {position : Nat} {token : Token}

theorem Laid.start : Laid tokens {} 0 :=
  ⟨0, .outermost, .nil⟩

theorem Laid.push {instruction : Instruction} (laid : Laid tokens nesting position)
    (stands : Stands tokens position token instruction)
    (notOpen : instruction ≠ .loopOpen) (notClose : instruction ≠ .loopClose) :
    Laid tokens (nesting.push (.plain token instruction)) (position + instruction.length) := by
  obtain ⟨start, scopes, innermost⟩ := laid
  exact ⟨start, scopes, innermost.append (.plain stands notOpen notClose .nil)⟩

theorem Laid.openLoop (laid : Laid tokens nesting position)
    (opens : Stands tokens position token .loopOpen) :
    Laid tokens (nesting.openLoop position) (position + 1) := by
  obtain ⟨start, scopes, innermost⟩ := laid
  exact ⟨position + 1, .inside scopes innermost opens, .nil⟩

theorem Laid.closeLoop {closed : Nesting} (laid : Laid tokens nesting position)
    (closes : Stands tokens position token .loopClose)
    (result : nesting.closeLoop? token = some closed) :
    Laid tokens closed (position + 1) := by
  obtain ⟨innermost, outer⟩ := nesting
  obtain ⟨start, scopes, body⟩ := laid
  cases scopes with
  | outermost => cases result
  | inside scopes scope opens =>
      cases result
      exact ⟨_, scopes, scope.append (.loop opens body closes .nil)⟩

theorem ScopesLaid.items {outer : List (List Statement × Nat)} {start : Nat}
    (scopes : ScopesLaid tokens outer start) :
    ItemsSpan tokens 0 (outerItems outer) start := by
  induction scopes with
  | outermost => exact .nil
  | inside _ scope opens ih => exact (ih.append scope.items).append (.openLoop opens .nil)

/-- What a reading has collected spans the tokens up to where it has come. -/
theorem Laid.items (laid : Laid tokens nesting position) :
    ItemsSpan tokens 0 nesting.items position := by
  obtain ⟨start, scopes, innermost⟩ := laid
  exact scopes.items.append innermost.items

private theorem openPositions_outerItems (outer : List (List Statement × Nat)) :
    openPositions (outerItems outer) = outer.map Prod.snd := by
  induction outer with
  | nil => rfl
  | cons scope outer ih =>
      obtain ⟨statements, position⟩ := scope
      simp [outerItems, openPositions, ih]

theorem openPositions_items (nesting : Nesting) :
    openPositions nesting.items = nesting.outer.map Prod.snd := by
  simp [items, openPositions_outerItems]

theorem closeLoop?_eq_none_iff : nesting.closeLoop? token = none ↔ nesting.outer = [] := by
  obtain ⟨innermost, outer⟩ := nesting
  cases outer <;> simp [closeLoop?]

end Nesting

/-- Why reading ends at a position: the program is over, its token begins no
instruction, or it closes a loop and none is open. -/
inductive EndsReading (tokens : Array Token) (nesting : Nesting) (position : Nat) :
    Option RunFault → Prop where
  | finished : tokens[position]? = none → EndsReading tokens nesting position none
  | notInstruction {token : Token} {error : InstructionError} :
      tokens[position]? = some token →
      Instruction.fetch tokens position token = .error error →
      EndsReading tokens nesting position (some (.notInstruction error))
  | noOpenLoop {token : Token} :
      Stands tokens position token .loopClose → nesting.outer = [] →
      EndsReading tokens nesting position (some (.noOpenLoop token))

/-- The statements of a program are those before a position at which reading ends. -/
structure Outline.Reads (tokens : Array Token) (outline : Outline) (nesting : Nesting)
    (position : Nat) : Prop where
  laid : nesting.Laid tokens position
  items : outline.items = nesting.items
  ends : EndsReading tokens nesting position outline.fault?

theorem Nesting.outline_reads {tokens : Array Token} {position : Nat} {nesting : Nesting}
    {sites : List Site} {error? : Option InstructionError}
    (laid : nesting.Laid tokens position)
    (listed : sitesFrom tokens position = (sites, error?)) :
    ∃ final last, (nesting.outline error? sites).Reads tokens final last := by
  fun_induction sitesFrom tokens position generalizing nesting sites error? with
  | case1 position inside error read =>
      cases listed
      exact ⟨nesting, position, laid, rfl,
        .notInstruction (Array.getElem?_eq_getElem inside) read⟩
  | case2 position inside instruction read rest restError? restListed ih =>
      cases listed
      have stands : Stands tokens position tokens[position] instruction :=
        ⟨Array.getElem?_eq_getElem inside, read⟩
      simp only [Nesting.outline]
      split
      · exact ih (laid.openLoop stands) restListed
      · split
        · rename_i closed
          exact ih (laid.closeLoop stands closed) restListed
        · rename_i unclosed
          exact ⟨nesting, position, laid, rfl,
            .noOpenLoop stands (closeLoop?_eq_none_iff.mp unclosed)⟩
      · rename_i notOpen notClose
        exact ih (laid.push stands notOpen notClose) restListed
  | case3 position outside =>
      cases listed
      exact ⟨nesting, position, laid, rfl, .finished (Array.getElem?_eq_none (by omega))⟩

theorem Outline.ofTokens_reads (tokens : Array Token) :
    ∃ nesting position, (Outline.ofTokens tokens).Reads tokens nesting position :=
  Nesting.outline_reads .start rfl

end WordTape
