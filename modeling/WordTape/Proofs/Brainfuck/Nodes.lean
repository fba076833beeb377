import WordTape.Brainfuck.Translation
import WordTape.Proofs.Structure.Layout

/-!
# The nodes of statements

A translation in progress holds the nodes of the statements that were read. It goes
on until the program is over, or up to a token that it refuses; tokens that are refused
for their operand or for the loop that they close also end the reading of the program.
-/

set_option autoImplicit false

namespace WordTape

open Brainfuck

mutual

def Statement.nodes : Statement → List Node
  | .plain _ instruction => (nodeOf? instruction).toList
  | .loop body _ => Statement.nodesOf body ++ [.loop (Statement.nodesOf body)]

def Statement.nodesOf : List Statement → List Node
  | [] => []
  | statement :: rest => statement.nodes ++ Statement.nodesOf rest

end

inductive Translatable : List Statement → Prop where
  | nil : Translatable []
  | plain {token : Token} {instruction : Instruction} {node : Node} {rest : List Statement} :
      nodeOf? instruction = some node → Translatable rest →
      Translatable (.plain token instruction :: rest)
  | loop {closing : Token} {body rest : List Statement} :
      Translatable body → Translatable rest → Translatable (.loop body closing :: rest)

namespace Statement

@[simp] theorem nodesOf_append (left right : List Statement) :
    nodesOf (left ++ right) = nodesOf left ++ nodesOf right := by
  induction left with
  | nil => rfl
  | cons statement rest ih => simp [nodesOf, ih]

end Statement

theorem Translatable.append {left right : List Statement} (first : Translatable left)
    (second : Translatable right) : Translatable (left ++ right) := by
  induction first with
  | nil => exact second
  | plain node _ ih => exact .plain node ih
  | loop body _ _ ih => exact .loop body ih

namespace Nesting

/-- The translation in progress that belongs to a reading in progress. -/
def scopes (nesting : Nesting) : Scopes where
  innermost := (Statement.nodesOf nesting.innermost).toArray
  outer := nesting.outer.map fun scope => (Statement.nodesOf scope.1).toArray

structure Translatable (nesting : Nesting) : Prop where
  innermost : WordTape.Translatable nesting.innermost
  outer : ∀ scope ∈ nesting.outer, WordTape.Translatable scope.1

private theorem scopes_push {token : Token} {instruction : Instruction} {node : Node}
    (translated : nodeOf? instruction = some node) (nesting : Nesting) :
    (nesting.push (.plain token instruction)).scopes = nesting.scopes.push node := by
  simp [scopes, push, Scopes.push, Statement.nodesOf, Statement.nodes, translated]

private theorem scopes_openLoop (position : Nat) (nesting : Nesting) :
    (nesting.openLoop position).scopes = nesting.scopes.openLoop := by
  simp [scopes, openLoop, Scopes.openLoop, Statement.nodesOf]

private theorem scopes_closeLoop? (closing : Token) (nesting : Nesting) :
    nesting.scopes.closeLoop? = (nesting.closeLoop? closing).map scopes := by
  obtain ⟨innermost, outer⟩ := nesting
  cases outer with
  | nil => rfl
  | cons scope outer =>
      simp [scopes, closeLoop?, Scopes.closeLoop?, Statement.nodesOf, Statement.nodes]

def statements (nesting : Nesting) : List Statement :=
  nesting.items.filterMap Item.statement?

private theorem filterMap_statement? (statements : List Statement) :
    (statements.map Item.statement).filterMap Item.statement? = statements := by
  induction statements with
  | nil => rfl
  | cons statement rest ih => simp only [List.map_cons, List.filterMap_cons, Item.statement?, ih]

private theorem statements_outermost (innermost : List Statement) :
    statements { innermost, outer := [] } = innermost := by
  simp only [statements, items, outerItems, List.nil_append, filterMap_statement?]

private theorem statements_inside (scope : List Statement × Nat) (innermost : List Statement)
    (outer : List (List Statement × Nat)) :
    statements { innermost, outer := scope :: outer } =
      statements { innermost := scope.1 ++ innermost, outer } := by
  simp only [statements, items, outerItems, List.map_append, List.filterMap_append,
    filterMap_statement?, List.filterMap_cons, Item.statement?, List.filterMap_nil,
    List.nil_append, List.append_assoc]

private theorem nodes_scopes (nesting : Nesting) :
    nesting.scopes.nodes = Statement.nodesOf nesting.statements := by
  obtain ⟨innermost, outer⟩ := nesting
  induction outer generalizing innermost with
  | nil =>
      rw [statements_outermost]
      simp [scopes, Scopes.nodes]
  | cons scope outer ih =>
      rw [statements_inside, ← ih]
      simp [scopes, Scopes.nodes]

theorem Translatable.statements {nesting : Nesting} (translatable : nesting.Translatable) :
    WordTape.Translatable nesting.statements := by
  obtain ⟨innermost, outer⟩ := nesting
  induction outer generalizing innermost with
  | nil =>
      rw [statements_outermost]
      exact translatable.innermost
  | cons scope outer ih =>
      obtain ⟨body, around⟩ := translatable
      simp only [List.mem_cons, forall_eq_or_imp] at around
      rw [statements_inside]
      exact ih _ ⟨around.1.append body, around.2⟩

theorem Translatable.push {nesting : Nesting} {token : Token} {instruction : Instruction}
    {node : Node} (translatable : nesting.Translatable)
    (translated : nodeOf? instruction = some node) :
    (nesting.push (.plain token instruction)).Translatable :=
  ⟨translatable.innermost.append (.plain translated .nil), translatable.outer⟩

theorem Translatable.openLoop {nesting : Nesting} (translatable : nesting.Translatable)
    (position : Nat) : (nesting.openLoop position).Translatable := by
  refine ⟨.nil, ?_⟩
  intro scope member
  rcases List.mem_cons.mp member with rfl | member
  · exact translatable.innermost
  · exact translatable.outer scope member

theorem Translatable.closeLoop {nesting closed : Nesting} {closing : Token}
    (translatable : nesting.Translatable)
    (result : nesting.closeLoop? closing = some closed) : closed.Translatable := by
  obtain ⟨innermost, outer⟩ := nesting
  cases outer with
  | nil => cases result
  | cons scope outer =>
      cases result
      obtain ⟨body, around⟩ := translatable
      simp only [List.mem_cons, forall_eq_or_imp] at around
      exact ⟨around.1.append (.loop body .nil), around.2⟩

end Nesting

/-- Why a translation refuses the token at a position. -/
inductive Refuses (tokens : Array Token) (nesting : Nesting) (position : Nat) :
    TranslationError → Prop where
  | notSupported {token : Token} :
      tokens[position]? = some token → Refuses tokens nesting position (.notSupported token)
  | malformedOperand {token : Token} {error : OperandError} :
      tokens[position]? = some token →
      Instruction.fetch tokens position token = .error (.malformedOperand error) →
      Refuses tokens nesting position (.malformedOperand error)
  | noOpenLoop {token : Token} :
      Stands tokens position token .loopClose → nesting.outer = [] →
      Refuses tokens nesting position (.noOpenLoop token)

/-- A translation goes on with what the reading goes on with, or refuses a token. -/
def Agrees (tokens : Array Token) (nesting : Nesting) (position : Nat) :
    Except TranslationError (Nat × Scopes) → Prop
  | .ok (next, scopes) =>
      ∃ later : Nesting, later.Laid tokens next ∧ later.Translatable ∧ scopes = later.scopes
  | .error error => Refuses tokens nesting position error

private theorem agrees_plain {tokens : Array Token} {nesting : Nesting} {position : Nat}
    {token : Token} {instruction : Instruction} {node : Node}
    (laid : nesting.Laid tokens position) (translatable : nesting.Translatable)
    (stands : Stands tokens position token instruction)
    (translated : nodeOf? instruction = some node) :
    Agrees tokens nesting position
      (.ok (position + instruction.length, nesting.scopes.push node)) := by
  have notOpen : instruction ≠ .loopOpen := by
    intro same
    subst same
    cases translated
  have notClose : instruction ≠ .loopClose := by
    intro same
    subst same
    cases translated
  exact ⟨_, laid.push stands notOpen notClose, translatable.push translated,
    (Nesting.scopes_push translated nesting).symm⟩

private theorem agrees_closeLoop {tokens : Array Token} {nesting : Nesting} {position : Nat}
    {token : Token} (laid : nesting.Laid tokens position)
    (translatable : nesting.Translatable) (closes : Stands tokens position token .loopClose) :
    Agrees tokens nesting position
      (match nesting.scopes.closeLoop? with
      | some scopes => .ok (position + 1, scopes)
      | none => .error (.noOpenLoop token)) := by
  rw [Nesting.scopes_closeLoop? token]
  cases result : nesting.closeLoop? token with
  | none => exact Refuses.noOpenLoop closes (Nesting.closeLoop?_eq_none_iff.mp result)
  | some closed =>
      exact ⟨closed, laid.closeLoop closes result, translatable.closeLoop result, rfl⟩

theorem advance_agrees {tokens : Array Token} {nesting : Nesting} {position : Nat}
    {token : Token} (laid : nesting.Laid tokens position)
    (translatable : nesting.Translatable) (found : tokens[position]? = some token) :
    Agrees tokens nesting position (advance tokens position token nesting.scopes) := by
  cases kind : token.kind with
  | number =>
      simp only [advance, kind]
      exact Refuses.notSupported found
  | unknown =>
      simp only [advance, kind]
      exact Refuses.notSupported found
  | instruction mnemonic =>
      by_cases supported : isSupported mnemonic = true
      · cases read : Instruction.ofMnemonic tokens position token mnemonic with
        | error error =>
            simp only [advance, kind, supported, read]
            exact Refuses.malformedOperand found (by simp only [Instruction.fetch, kind, read])
        | ok instruction =>
            have stands : Stands tokens position token instruction :=
              ⟨found, by simp only [Instruction.fetch, kind, read]⟩
            simp only [advance, kind, supported, read, Bool.not_true, Bool.false_eq_true,
              ↓reduceIte]
            split
            · contradiction
            · rename_i same
              cases same
              exact ⟨_, laid.openLoop stands, translatable.openLoop position,
                (Nesting.scopes_openLoop position nesting).symm⟩
            · rename_i same
              cases same
              exact agrees_closeLoop laid translatable stands
            · rename_i same
              cases same
              split
              · rename_i translated
                exact agrees_plain laid translatable stands translated
              · exact Refuses.notSupported found
      · simp only [advance, kind, supported]
        exact Refuses.notSupported found

/-- A translation has come to the end of the program, or to a token that it refuses. -/
def EndsTranslation (tokens : Array Token) (nesting : Nesting) (position : Nat) :
    Except TranslationError (List Node) → Prop
  | .ok nodes => tokens[position]? = none ∧ nodes = Statement.nodesOf nesting.statements
  | .error error => Refuses tokens nesting position error

private theorem translateFrom_reads {tokens : Array Token} {position : Nat} {nesting : Nesting}
    (laid : nesting.Laid tokens position) (translatable : nesting.Translatable) :
    ∃ final last, Nesting.Laid tokens final last ∧ final.Translatable ∧
      EndsTranslation tokens final last (translateFrom tokens position nesting.scopes) := by
  generalize translated : nesting.scopes = scopes
  fun_induction translateFrom tokens position scopes generalizing nesting with
  | case1 position scopes inside error advanced =>
      have agrees := advance_agrees laid translatable (Array.getElem?_eq_getElem inside)
      rw [translated, advanced] at agrees
      exact ⟨nesting, position, laid, translatable, agrees⟩
  | case2 position scopes inside next scopesNext advanced ih =>
      have agrees := advance_agrees laid translatable (Array.getElem?_eq_getElem inside)
      rw [translated, advanced] at agrees
      obtain ⟨later, laterLaid, laterTranslatable, same⟩ := agrees
      exact ih laterLaid laterTranslatable same.symm
  | case3 position scopes outside =>
      refine ⟨nesting, position, laid, translatable, Array.getElem?_eq_none (by omega), ?_⟩
      rw [← translated, Nesting.nodes_scopes]

theorem ofTokens_reads (tokens : Array Token) :
    ∃ nesting last, Nesting.Laid tokens nesting last ∧ nesting.Translatable ∧
      EndsTranslation tokens nesting last (ofTokens tokens) :=
  translateFrom_reads .start ⟨.nil, by simp⟩

end WordTape
