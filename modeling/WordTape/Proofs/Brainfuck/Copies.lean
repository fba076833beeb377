import WordTape.Proofs.Brainfuck.Concatenation
import WordTape.Proofs.Structure.Enclosure

/-!
# Copies of instructions

The body of a closed loop stands in a translation twice: once as it is, and once in the
loop. An instruction is therefore copied as often as the closed loops around it demand,
twice for each of them, and loops that stay open around it change nothing.
-/

set_option autoImplicit false

namespace WordTape

open Brainfuck Scan

namespace Brainfuck

mutual

def Node.leaves : Node → List Node
  | .add amount => [.add amount]
  | .move distance => [.move distance]
  | .command text => [.command text]
  | .loop body => leaves body

/-- The nodes that are no loops, as they stand in a text, those inside of loops included. -/
def leaves : List Node → List Node
  | [] => []
  | node :: rest => node.leaves ++ leaves rest

end

private theorem leaves_append (left right : List Node) :
    leaves (left ++ right) = leaves left ++ leaves right := by
  induction left with
  | nil => rfl
  | cons node rest ih => rw [List.cons_append, leaves, leaves, ih, List.append_assoc]

end Brainfuck

/-! ## The places that leaves come from -/

mutual

/-- The number of tokens of a statement. -/
def Statement.width : Statement → Nat
  | .plain _ instruction => instruction.length
  | .loop body _ => Statement.widthOf body + 2

def Statement.widthOf : List Statement → Nat
  | [] => 0
  | statement :: rest => statement.width + Statement.widthOf rest

end

mutual

/-- The places of the instructions that the leaves of a statement come from, one for each
leaf, when the statement begins at a position. -/
def Statement.leafPlaces (position : Nat) : Statement → List Nat
  | .plain _ _ => [position]
  | .loop body _ =>
      Statement.leafPlacesOf (position + 1) body ++ Statement.leafPlacesOf (position + 1) body

def Statement.leafPlacesOf (position : Nat) : List Statement → List Nat
  | [] => []
  | statement :: rest =>
      statement.leafPlaces position ++ Statement.leafPlacesOf (position + statement.width) rest

end

def Item.leafPlacesOf (position : Nat) : List Item → List Nat
  | [] => []
  | .statement inner :: rest =>
      inner.leafPlaces position ++ Item.leafPlacesOf (position + inner.width) rest
  | .openLoop _ :: rest => Item.leafPlacesOf (position + 1) rest

/-- A leaf is what the instruction at a place is rendered as. -/
def ComesFrom (tokens : Array Token) (place : Nat) (leaf : Node) : Prop :=
  ∃ token instruction, Stands tokens place token instruction ∧ instruction.Renders leaf

variable {tokens : Array Token} {position next place : Nat}

theorem Spans.next_eq {statements : List Statement}
    (spans : Spans tokens position statements next) :
    next = position + Statement.widthOf statements := by
  induction spans with
  | nil => rfl
  | plain _ _ _ _ ih => rw [ih, Statement.widthOf, Statement.width, Nat.add_assoc]
  | loop _ _ _ _ bodyIH restIH =>
      rw [restIH, bodyIH, Statement.widthOf, Statement.width]
      omega

section

variable {closed : Nat} {closing : Token} {body rest : List Statement}

private theorem Spans.leafPlacesOf_loop (spans : Spans tokens (position + 1) body closed) :
    Statement.leafPlacesOf position (.loop body closing :: rest) =
      Statement.leafPlacesOf (position + 1) body ++
        (Statement.leafPlacesOf (position + 1) body ++
          Statement.leafPlacesOf (closed + 1) rest) := by
  have width : position + (Statement.widthOf body + 2) = closed + 1 := by
    rw [spans.next_eq]
    omega
  rw [Statement.leafPlacesOf, Statement.leafPlaces, Statement.width, width, List.append_assoc]

private theorem Statement.leafPlacesOf_plain {token : Token} {instruction : Instruction} :
    Statement.leafPlacesOf position (.plain token instruction :: rest) =
      position :: Statement.leafPlacesOf (position + instruction.length) rest := by
  rw [Statement.leafPlacesOf, Statement.leafPlaces, Statement.width, List.singleton_append]

private theorem Spans.leafPlacesOf_statement {statement : Statement} {items : List Item}
    (spans : Spans tokens position [statement] next) :
    Item.leafPlacesOf position (.statement statement :: items) =
      Statement.leafPlacesOf position [statement] ++ Item.leafPlacesOf next items := by
  have width := spans.next_eq
  rw [Statement.widthOf, Statement.widthOf, Nat.add_zero] at width
  rw [Item.leafPlacesOf, Statement.leafPlacesOf, Statement.leafPlacesOf, List.append_nil, width]

end

/-! ## Every leaf comes from the instruction at its place -/

theorem Spans.leaves_come_from {statements : List Statement} {nodes : List Node}
    (spans : Spans tokens position statements next)
    (renders : Statement.Renders statements nodes) :
    List.Forall₂ (ComesFrom tokens) (Statement.leafPlacesOf position statements)
      (leaves nodes) := by
  induction spans generalizing nodes with
  | nil =>
      cases renders
      exact .nil
  | @plain position _ token instruction _ stands _ _ _ ih =>
      cases renders with
      | @plain _ _ leaf _ nodes rendered rest =>
          have single : leaves (leaf :: nodes) = leaf :: leaves nodes := by
            cases rendered <;> rfl
          rw [Statement.leafPlacesOf_plain, single]
          exact .cons ⟨token, instruction, stands, rendered⟩ (ih rest)
  | loop _ spans _ _ bodyIH restIH =>
      cases renders with
      | loop body rest =>
          rw [spans.leafPlacesOf_loop, leaves_append, leaves, Node.leaves]
          exact List.rel_append (bodyIH body) (List.rel_append (bodyIH body) (restIH rest))

private theorem ItemsSpan.leaves_come_from {items : List Item} {nodes : List Node}
    (spans : ItemsSpan tokens position items next) (renders : Item.Renders items nodes) :
    List.Forall₂ (ComesFrom tokens) (Item.leafPlacesOf position items) (leaves nodes) := by
  induction spans generalizing nodes with
  | nil =>
      cases renders
      exact .nil
  | statement spans _ ih =>
      cases renders with
      | statement statement rest =>
          rw [spans.leafPlacesOf_statement, leaves_append]
          exact List.rel_append (spans.leaves_come_from statement) (ih rest)
  | openLoop _ _ ih =>
      cases renders with
      | openLoop rest => exact ih rest

/-! ## How often an instruction is copied -/

/-- Leaves come from places within their statements at which instructions begin. -/
theorem Spans.of_mem_leafPlacesOf {statements : List Statement}
    (spans : Spans tokens position statements next)
    (boundary : isOperand tokens position = false)
    (member : place ∈ Statement.leafPlacesOf position statements) :
    position ≤ place ∧ place < next ∧ IsPlain tokens place := by
  induction spans with
  | nil => cases member
  | @plain position next token instruction rest stands notOpen notClose spans ih =>
      have ordered := spans.le
      have length := instruction.length_pos
      rw [Statement.leafPlacesOf_plain] at member
      rcases List.mem_cons.mp member with rfl | member
      · exact ⟨Nat.le_refl _, by omega, isPlain_of_stands stands boundary notOpen notClose⟩
      · obtain ⟨after, before, plain⟩ := ih (isOperand_next stands boundary) member
        exact ⟨by omega, before, plain⟩
  | loop opens spans closes restSpans bodyIH restIH =>
      have inside := isOperand_next opens boundary
      have ordered := spans.le
      have laterOrdered := restSpans.le
      rw [spans.leafPlacesOf_loop, List.mem_append, List.mem_append] at member
      rcases member with member | member | member
      · obtain ⟨after, before, plain⟩ := bodyIH inside member
        exact ⟨by omega, by omega, plain⟩
      · obtain ⟨after, before, plain⟩ := bodyIH inside member
        exact ⟨by omega, by omega, plain⟩
      · obtain ⟨after, before, plain⟩ :=
          restIH (isOperand_next closes (spans.scanned inside).1) member
        exact ⟨by omega, before, plain⟩

theorem Spans.count_eq_zero {statements : List Statement}
    (spans : Spans tokens position statements next)
    (boundary : isOperand tokens position = false) (outside : place < position ∨ next ≤ place) :
    (Statement.leafPlacesOf position statements).count place = 0 := by
  apply List.count_eq_zero_of_not_mem
  intro member
  obtain ⟨after, before, _⟩ := spans.of_mem_leafPlacesOf boundary member
  omega

/-- Within statements an instruction is copied twice for each closed loop around it. -/
theorem Spans.count_leafPlacesOf {statements : List Statement}
    (spans : Spans tokens position statements next)
    (boundary : isOperand tokens position = false) (plain : IsPlain tokens place)
    (after : position ≤ place) (before : place < next) :
    (Statement.leafPlacesOf position statements).count place =
      2 ^ loopsAround tokens next place := by
  induction spans with
  | nil => omega
  | @plain position next token instruction rest stands _ notClose spans ih =>
      have later := isOperand_next stands boundary
      rw [Statement.leafPlacesOf_plain]
      rcases Nat.lt_or_ge place (position + instruction.length) with here | beyond
      · have same := isPlain_within stands boundary plain after here
        subst same
        have around : loopsAround tokens next place = 0 := by
          rw [spans.loopsAround_eq later (Nat.le_add_right _ _),
            loopsAround_next stands boundary notClose, loopsAround_eq_zero (Nat.le_succ _)]
        rw [List.count_cons_self, spans.count_eq_zero later (.inl here), around, Nat.zero_add,
          Nat.pow_zero]
      · have length := instruction.length_pos
        have other : position ≠ place := by omega
        rw [List.count_cons_of_ne other, ih later beyond before]
  | @loop position closed next _ _ _ _ opens spans closes restSpans bodyIH restIH =>
      have inside := isOperand_next opens boundary
      have later := isOperand_next closes (spans.scanned inside).1
      rw [spans.leafPlacesOf_loop, List.count_append, List.count_append]
      rcases Nat.lt_or_ge place (closed + 1) with within | beyond
      · -- The place is in the body, since the tokens around it are those of the loop.
        have opened := plain.ne_of_begins (.inl rfl) (begins_of_stands opens boundary .loopOpen)
        have shut := plain.ne_of_begins (.inr rfl)
          (begins_of_stands closes (spans.scanned inside).1 .loopClose)
        have enclosed : position < place ∧ place < closed := by omega
        have around : loopsAround tokens next place = loopsAround tokens closed place + 1 := by
          rw [restSpans.loopsAround_eq later (by omega),
            spans.loopsAround_closed opens closes boundary, if_pos enclosed]
        rw [bodyIH inside enclosed.1 enclosed.2, restSpans.count_eq_zero later (.inl within),
          around, Nat.add_zero, Nat.pow_succ, Nat.mul_two]
      · have outside : closed ≤ place := by omega
        rw [spans.count_eq_zero inside (.inr outside), restIH later beyond before, Nat.zero_add,
          Nat.zero_add]

theorem ItemsSpan.of_mem_leafPlacesOf {items : List Item}
    (spans : ItemsSpan tokens position items next)
    (boundary : isOperand tokens position = false)
    (member : place ∈ Item.leafPlacesOf position items) :
    position ≤ place ∧ IsPlain tokens place := by
  induction spans with
  | nil => cases member
  | statement spans _ ih =>
      rw [spans.leafPlacesOf_statement] at member
      rcases List.mem_append.mp member with member | member
      · obtain ⟨after, _, plain⟩ := spans.of_mem_leafPlacesOf boundary member
        exact ⟨after, plain⟩
      · obtain ⟨after, plain⟩ := ih (spans.scanned boundary).1 member
        exact ⟨spans.le.trans after, plain⟩
  | openLoop opens _ ih =>
      obtain ⟨after, plain⟩ := ih (isOperand_next opens boundary) member
      exact ⟨Nat.le_of_succ_le after, plain⟩

private theorem ItemsSpan.count_leafPlacesOf {items : List Item}
    (spans : ItemsSpan tokens position items next)
    (boundary : isOperand tokens position = false) (plain : IsPlain tokens place)
    (after : position ≤ place) (before : place < next) :
    (Item.leafPlacesOf position items).count place = 2 ^ loopsAround tokens next place := by
  induction spans with
  | nil => omega
  | @statement position middle next statement rest spans restSpans ih =>
      have later := (spans.scanned boundary).1
      rw [spans.leafPlacesOf_statement, List.count_append]
      rcases Nat.lt_or_ge place middle with within | beyond
      · have none : (Item.leafPlacesOf middle rest).count place = 0 := by
          apply List.count_eq_zero_of_not_mem
          intro member
          have := (restSpans.of_mem_leafPlacesOf later member).1
          omega
        rw [none, spans.count_leafPlacesOf boundary plain after within,
          restSpans.loopsAround_eq later (Nat.le_of_lt within), Nat.add_zero]
      · rw [spans.count_eq_zero boundary (.inr beyond), ih later beyond before, Nat.zero_add]
  | openLoop opens _ ih =>
      have opened := plain.ne_of_begins (.inl rfl) (begins_of_stands opens boundary .loopOpen)
      exact ih (isOperand_next opens boundary) (by omega) before

/-- A leaf comes from every instruction other than the loop instructions, as many times as
two to the power of the number of closed loops around it, and from no other place. -/
theorem Nests.count_leafPlacesOf {items : List Item} (nests : Nests tokens items)
    (place : Nat) :
    (Item.leafPlacesOf 0 items).count place =
      if IsPlain tokens place then 2 ^ loopsAround tokens tokens.size place else 0 := by
  by_cases plain : IsPlain tokens place
  · rw [if_pos plain]
    exact nests.spans.count_leafPlacesOf rfl plain (Nat.zero_le place) plain.1.1
  · rw [if_neg plain]
    apply List.count_eq_zero_of_not_mem
    intro member
    exact plain (nests.spans.of_mem_leafPlacesOf rfl member).2

/-- A program is translated exactly if its nesting is rendered, and to what this is
rendered as, part by part. If it leaves no loop open, a program behind it is translated as
on its own. The leaves of a translation are the instructions of its program, each as many
times as two to the power of the number of closed loops around it. -/
theorem Brainfuck.translation_follows_nesting (tokens : Array Token) (nodes : List Node) :
    (ofTokens tokens = .ok nodes ↔
      ∃ items, Nests tokens items ∧ Item.Renders items nodes) ∧
    (∀ left right parts, Item.Renders (left ++ right) parts ↔
      ∃ front back, Item.Renders left front ∧ Item.Renders right back ∧
        parts = front ++ back) ∧
    (ofTokens tokens = .ok nodes → openLoops tokens tokens.size = [] → ∀ more,
      ofTokens (tokens ++ more) = (ofTokens more).map (nodes ++ ·)) ∧
    (∀ items, Nests tokens items → Item.Renders items nodes →
      List.Forall₂ (ComesFrom tokens) (Item.leafPlacesOf 0 items) (leaves nodes) ∧
        ∀ place, (Item.leafPlacesOf 0 items).count place =
          if IsPlain tokens place then 2 ^ loopsAround tokens tokens.size place else 0) := by
  refine ⟨ofTokens_eq_ok_iff, fun _ _ _ => Item.renders_append_iff, ?_, ?_⟩
  · intro translated closed more
    obtain ⟨items, nests, renders⟩ := ofTokens_eq_ok_iff.mp translated
    have opened := nests.spans.openLoops_eq rfl
    rw [closed] at opened
    exact nests.translate_append more renders
      (List.reverse_eq_nil_iff.mp (List.append_eq_nil_iff.mp opened.symm).2)
  · intro items nests renders
    exact ⟨nests.spans.leaves_come_from renders, nests.count_leafPlacesOf⟩

theorem Brainfuck.doubly_enclosed_command_is_copied_four_times :
    let tokens := Lexer.tokenize (Bytes.ofString "lop lop wrt pol dec 1 pol")
    let more := Lexer.tokenize (Bytes.ofString "lop rdi")
    let write := Node.command (Bytes.ofString ".")
    let nodes := [write, .loop [write], .add (-1), .loop [write, .loop [write], .add (-1)]]
    ofTokens tokens = .ok nodes ∧
      ofTokens (tokens ++ more) = .ok (nodes ++ [.command (Bytes.ofString ",")]) ∧
      ∃ items, Nests tokens items ∧ Item.Renders items nodes ∧
        List.Forall₂ (ComesFrom tokens) (Item.leafPlacesOf 0 items) (leaves nodes) ∧
        (Item.leafPlacesOf 0 items).count 2 = 4 ∧ (Item.leafPlacesOf 0 items).count 4 = 2 := by
  have translated : ofTokens (Lexer.tokenize (Bytes.ofString "lop lop wrt pol dec 1 pol")) =
      .ok [.command (Bytes.ofString "."), .loop [.command (Bytes.ofString ".")], .add (-1),
        .loop [.command (Bytes.ofString "."), .loop [.command (Bytes.ofString ".")],
          .add (-1)]] := by decide +kernel
  have behind : ofTokens (Lexer.tokenize (Bytes.ofString "lop rdi")) =
      .ok [.command (Bytes.ofString ",")] := by decide +kernel
  intro tokens more write nodes
  obtain ⟨structured, _, joined, copied⟩ := translation_follows_nesting tokens nodes
  obtain ⟨items, nests, renders⟩ := structured.mp translated
  obtain ⟨come, counts⟩ := copied items nests renders
  refine ⟨translated, ?_, items, nests, renders, come, ?_, ?_⟩
  · rw [joined translated (by decide +kernel) more, behind]
    rfl
  · rw [counts]
    decide +kernel
  · rw [counts]
    decide +kernel

end WordTape
