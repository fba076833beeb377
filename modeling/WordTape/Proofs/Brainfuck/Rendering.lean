import WordTape.Proofs.Brainfuck.Nodes
import WordTape.Proofs.SameWords
import WordTape.Proofs.Structure.OneReading

/-!
# Rendering by structure

A program is rendered part by part: an instruction is a leaf, a closed loop is the
rendering of its body followed by a loop over it, and a loop that stays open adds nothing
of its own. The translation goes over the tokens with a stack of the loops that are open,
and comes to what the nesting of the program is rendered as.
-/

set_option autoImplicit false

namespace WordTape

open Brainfuck

inductive Instruction.Renders : Instruction → Node → Prop where
  | moveForward (steps : Nat) : Renders (.moveForward steps) (.move steps)
  | moveBackward (steps : Nat) : Renders (.moveBackward steps) (.move (-steps))
  | increment (amount : Nat) : Renders (.increment amount) (.add amount)
  | decrement (amount : Nat) : Renders (.decrement amount) (.add (-amount))
  | writeCell : Renders .writeCell (.command (Bytes.ofString "."))
  | readByte : Renders .readByte (.command (Bytes.ofString ","))

inductive Statement.Renders : List Statement → List Node → Prop where
  | nil : Renders [] []
  | plain {token : Token} {instruction : Instruction} {leaf : Node} {rest : List Statement}
      {nodes : List Node} :
      instruction.Renders leaf → Renders rest nodes →
      Renders (.plain token instruction :: rest) (leaf :: nodes)
  | loop {closing : Token} {body rest : List Statement} {inside nodes : List Node} :
      Renders body inside → Renders rest nodes →
      Renders (.loop body closing :: rest) (inside ++ .loop inside :: nodes)

inductive Item.Renders : List Item → List Node → Prop where
  | nil : Renders [] []
  | statement {statement : Statement} {rest : List Item} {front nodes : List Node} :
      Statement.Renders [statement] front → Renders rest nodes →
      Renders (.statement statement :: rest) (front ++ nodes)
  | openLoop {position : Nat} {rest : List Item} {nodes : List Node} :
      Renders rest nodes → Renders (.openLoop position :: rest) nodes

/-- What stands next to each other is rendered next to each other. -/
theorem Item.renders_append_iff {left right : List Item} {nodes : List Node} :
    Item.Renders (left ++ right) nodes ↔
      ∃ front back, Item.Renders left front ∧ Item.Renders right back ∧
        nodes = front ++ back := by
  induction left generalizing nodes with
  | nil =>
      constructor
      · intro renders
        exact ⟨[], nodes, .nil, renders, rfl⟩
      · rintro ⟨front, back, first, second, rfl⟩
        cases first
        exact second
  | cons item rest ih =>
      constructor
      · intro renders
        cases renders with
        | @statement _ _ head _ statement renders =>
            obtain ⟨front, back, first, second, rfl⟩ := ih.mp renders
            exact ⟨head ++ front, back, .statement statement first, second,
              (List.append_assoc ..).symm⟩
        | openLoop renders =>
            obtain ⟨front, back, first, second, same⟩ := ih.mp renders
            exact ⟨front, back, .openLoop first, second, same⟩
      · rintro ⟨front, back, first, second, rfl⟩
        cases first with
        | statement statement first =>
            rw [List.append_assoc]
            exact .statement statement (ih.mpr ⟨_, back, first, second, rfl⟩)
        | openLoop first => exact .openLoop (ih.mpr ⟨front, back, first, second, rfl⟩)

/-! ## A translation renders -/

theorem Instruction.renders_iff {instruction : Instruction} {leaf : Node} :
    instruction.Renders leaf ↔ nodeOf? instruction = some leaf := by
  constructor
  · intro renders
    cases renders <;> rfl
  · intro translated
    cases instruction with
    | loopOpen | loopClose | readLine | writeAs _ | setString _ | setAs _ _ | writeRun
    | clearRun => cases translated
    | moveForward steps =>
        cases translated
        exact .moveForward steps
    | moveBackward steps =>
        cases translated
        exact .moveBackward steps
    | increment amount =>
        cases translated
        exact .increment amount
    | decrement amount =>
        cases translated
        exact .decrement amount
    | readByte =>
        cases translated
        exact .readByte
    | writeCell =>
        cases translated
        exact .writeCell

theorem Translatable.renders {statements : List Statement}
    (translatable : Translatable statements) :
    Statement.Renders statements (Statement.nodesOf statements) := by
  induction translatable with
  | nil => exact .nil
  | plain translated _ ih =>
      rw [Statement.nodesOf, Statement.nodes, translated]
      exact .plain (Instruction.renders_iff.mpr translated) ih
  | loop _ _ bodyIH restIH =>
      rw [Statement.nodesOf, Statement.nodes, List.append_assoc, List.singleton_append]
      exact .loop bodyIH restIH

theorem Translatable.split {statement : Statement} {rest : List Statement}
    (translatable : Translatable (statement :: rest)) :
    Translatable [statement] ∧ Translatable rest := by
  cases translatable with
  | plain translated rest => exact ⟨.plain translated .nil, rest⟩
  | loop body rest => exact ⟨.loop body .nil, rest⟩

private theorem Item.renders_of_translatable {items : List Item}
    (translatable : Translatable (items.filterMap Item.statement?)) :
    Item.Renders items (Statement.nodesOf (items.filterMap Item.statement?)) := by
  induction items with
  | nil => exact .nil
  | cons item rest ih =>
      cases item with
      | statement statement =>
          obtain ⟨first, later⟩ := Translatable.split translatable
          have front := first.renders
          rw [Statement.nodesOf, Statement.nodesOf, List.append_nil] at front
          exact .statement front (ih later)
      | openLoop position => exact .openLoop (ih translatable)

/-! ## What is rendered is translated -/

namespace Brainfuck

namespace Scopes

/-- The translation in progress with nodes behind those of the innermost open loop. -/
def append (scopes : Scopes) (nodes : List Node) : Scopes where
  innermost := scopes.innermost ++ nodes.toArray
  outer := scopes.outer

variable (scopes : Scopes) (nodes more : List Node)

theorem append_nil : scopes.append [] = scopes := by
  rw [append, Array.append_empty]

theorem append_append : (scopes.append nodes).append more = scopes.append (nodes ++ more) := by
  simp only [append, Array.append_assoc, List.append_toArray]

private theorem push_append (leaf : Node) :
    (scopes.push leaf).append more = scopes.append (leaf :: more) := by
  obtain ⟨innermost, outer⟩ := scopes
  simp only [push, append, Array.push_eq_append, Array.append_assoc, List.append_toArray,
    List.singleton_append]

/-- A loop that is closed leaves its body once, and then the loop over it. -/
private theorem closeLoop?_openLoop_append :
    (scopes.openLoop.append nodes).closeLoop? = some (scopes.append (nodes ++ [.loop nodes])) := by
  simp [closeLoop?, openLoop, append]

private theorem nodes_append : (scopes.append nodes).nodes = scopes.nodes ++ nodes := by
  obtain ⟨innermost, outer⟩ := scopes
  simp only [append, Scopes.nodes]
  induction outer generalizing innermost with
  | nil => simp only [List.foldl_nil, Array.toList_append]
  | cons scope outer ih => rw [List.foldl_cons, ← Array.append_assoc, ih, List.foldl_cons]

private theorem nodes_openLoop : scopes.openLoop.nodes = scopes.nodes := by
  simp only [openLoop, Scopes.nodes, List.foldl_cons, Array.append_empty]

end Scopes

variable {tokens : Array Token} {position next : Nat} {token : Token}

private theorem ofMnemonic_of_stands {instruction : Instruction}
    (stands : Stands tokens position token instruction) :
    Instruction.ofMnemonic tokens position token instruction.mnemonic = .ok instruction := by
  have reads := stands.reads
  rw [Instruction.fetch, stands.kind] at reads
  dsimp only at reads
  split at reads
  · rename_i read
    cases reads
    exact read
  · cases reads

private theorem translateFrom_leaf {instruction : Instruction} {leaf : Node}
    (stands : Stands tokens position token instruction) (renders : instruction.Renders leaf)
    (scopes : Scopes) :
    translateFrom tokens position scopes =
      translateFrom tokens (position + instruction.length) (scopes.push leaf) := by
  have read := ofMnemonic_of_stands stands
  have advanced : advance tokens position token scopes =
      .ok (position + instruction.length, scopes.push leaf) := by
    rw [advance, stands.kind]
    cases renders <;> simp only [Instruction.mnemonic] at read ⊢ <;> rw [read] <;> rfl
  rw [translateFrom_eq stands.found, advanced]

private theorem translateFrom_loopOpen (opens : Stands tokens position token .loopOpen)
    (scopes : Scopes) :
    translateFrom tokens position scopes =
      translateFrom tokens (position + 1) scopes.openLoop := by
  have advanced : advance tokens position token scopes = .ok (position + 1, scopes.openLoop) := by
    rw [advance, opens.kind]
    rfl
  rw [translateFrom_eq opens.found, advanced]

private theorem translateFrom_loopClose (closes : Stands tokens position token .loopClose)
    {scopes closed : Scopes} (result : scopes.closeLoop? = some closed) :
    translateFrom tokens position scopes = translateFrom tokens (position + 1) closed := by
  have advanced : advance tokens position token scopes = .ok (position + 1, closed) := by
    rw [advance, closes.kind]
    simp only [Instruction.mnemonic, Instruction.ofMnemonic, result]
    rfl
  rw [translateFrom_eq closes.found, advanced]

end Brainfuck

variable {tokens : Array Token} {position next : Nat}

/-- Over statements without open loops the stack stays as it is, but for the nodes of the
statements in the innermost scope. -/
theorem Spans.translateFrom {statements : List Statement} {nodes : List Node}
    (spans : Spans tokens position statements next) (renders : Statement.Renders statements nodes)
    (scopes : Scopes) :
    Brainfuck.translateFrom tokens position scopes =
      Brainfuck.translateFrom tokens next (scopes.append nodes) := by
  induction spans generalizing scopes nodes with
  | nil =>
      cases renders
      rw [Scopes.append_nil]
  | plain stands _ _ _ ih =>
      cases renders with
      | plain leaf rest => rw [translateFrom_leaf stands leaf, ih rest, Scopes.push_append]
  | loop opens _ closes _ bodyIH restIH =>
      cases renders with
      | @loop _ _ _ inside nodes body rest =>
          -- The body is read into a scope of its own, which is spliced in twice.
          have closed := scopes.closeLoop?_openLoop_append inside
          rw [translateFrom_loopOpen opens, bodyIH body, translateFrom_loopClose closes closed,
            restIH rest, Scopes.append_append, List.append_assoc, List.singleton_append]

/-- Loops that stay open leave their scopes on the stack, which are joined at the end. -/
theorem ItemsSpan.translateFrom {items : List Item} {nodes : List Node}
    (spans : ItemsSpan tokens position items next) (renders : Item.Renders items nodes)
    (scopes : Scopes) :
    ∃ later : Scopes, later.nodes = scopes.nodes ++ nodes ∧
      Brainfuck.translateFrom tokens position scopes =
        Brainfuck.translateFrom tokens next later := by
  induction spans generalizing scopes nodes with
  | nil =>
      cases renders
      exact ⟨scopes, (List.append_nil _).symm, rfl⟩
  | statement spans _ ih =>
      cases renders with
      | @statement _ _ front nodes statement rest =>
          obtain ⟨later, joined, same⟩ := ih rest (scopes.append front)
          refine ⟨later, ?_, (spans.translateFrom statement scopes).trans same⟩
          rw [joined, Scopes.nodes_append, List.append_assoc]
  | openLoop opens _ ih =>
      cases renders with
      | openLoop rest =>
          obtain ⟨later, joined, same⟩ := ih rest scopes.openLoop
          refine ⟨later, ?_, (translateFrom_loopOpen opens scopes).trans same⟩
          rw [joined, Scopes.nodes_openLoop]

/-- A program is translated exactly if its nesting is rendered, and to the same nodes. -/
theorem Brainfuck.ofTokens_eq_ok_iff {nodes : List Node} :
    ofTokens tokens = .ok nodes ↔ ∃ items, Nests tokens items ∧ Item.Renders items nodes := by
  constructor
  · intro translated
    obtain ⟨nesting, last, laid, translatable, ends⟩ := ofTokens_reads tokens
    rw [translated] at ends
    obtain ⟨ended, rfl⟩ := ends
    have whole := laid.items
    rw [laid.items.eq_size ended] at whole
    exact ⟨nesting.items, whole.nests, Item.renders_of_translatable translatable.statements⟩
  · rintro ⟨items, nests, renders⟩
    obtain ⟨later, joined, same⟩ := nests.spans.translateFrom renders {}
    have past : tokens[tokens.size]? = none := Array.getElem?_size
    have translated : ofTokens tokens = .ok later.nodes := same.trans (translateFrom_end past later)
    rw [translated, joined]
    rfl

end WordTape
