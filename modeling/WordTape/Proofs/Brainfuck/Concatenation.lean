import WordTape.Proofs.Brainfuck.Rendering
import WordTape.Proofs.Placement

/-!
# Translations of programs behind others

Behind a program that leaves no loop open a program is translated as it is on its own,
to nodes behind those of the first one, and is refused for what it is refused for on its
own.
-/

set_option autoImplicit false

namespace WordTape

namespace Brainfuck

/-! ## The stack behind other nodes -/

namespace Scopes

/-- The stack of an innermost scope and the ones around it, with nodes in front of the
outermost one. -/
def stackBehind (front : Array Node) (innermost : Array Node) : List (Array Node) → Scopes
  | [] => { innermost := front ++ innermost }
  | scope :: outer =>
      { innermost
        outer := (stackBehind front scope outer).innermost ::
          (stackBehind front scope outer).outer }

/-- The translation in progress with nodes in front of all that it has collected. -/
def behind (front : Array Node) (scopes : Scopes) : Scopes :=
  stackBehind front scopes.innermost scopes.outer

variable (front : Array Node)

private theorem stackBehind_append (innermost more : Array Node) (outer : List (Array Node)) :
    stackBehind front (innermost ++ more) outer =
      { innermost := (stackBehind front innermost outer).innermost ++ more
        outer := (stackBehind front innermost outer).outer } := by
  cases outer with
  | nil => simp only [stackBehind, Array.append_assoc]
  | cons scope outer => simp only [stackBehind]

private theorem push_behind (node : Node) (scopes : Scopes) :
    (scopes.behind front).push node = (scopes.push node).behind front := by
  simp only [behind, push, Array.push_eq_append, stackBehind_append]

theorem openLoop_behind (scopes : Scopes) :
    (scopes.behind front).openLoop = scopes.openLoop.behind front := rfl

private theorem closeLoop?_behind (scopes : Scopes) :
    (scopes.behind front).closeLoop? = scopes.closeLoop?.map (behind front) := by
  obtain ⟨innermost, outer⟩ := scopes
  cases outer with
  | nil => rfl
  | cons scope outer =>
      simp only [behind, stackBehind, closeLoop?, Array.push_eq_append, stackBehind_append,
        Option.map_some]

private theorem nodes_behind (scopes : Scopes) :
    (scopes.behind front).nodes = front.toList ++ scopes.nodes := by
  obtain ⟨innermost, outer⟩ := scopes
  simp only [behind]
  induction outer generalizing innermost with
  | nil => simp only [stackBehind, nodes, List.foldl_nil, Array.toList_append]
  | cons scope outer ih =>
      have joined := ih (scope ++ innermost)
      rw [stackBehind_append] at joined
      simpa only [nodes, stackBehind, List.foldl_cons] using joined

end Scopes

/-! ## Tokens behind others -/

variable {tokens whole : Array Token} {offset position : Nat} {token : Token}

/-- What is read from a mnemonic depends on the token behind it alone. -/
private theorem ofMnemonic_behind (next : whole[offset + position + 1]? = tokens[position + 1]?)
    (mnemonic : Mnemonic) :
    Instruction.ofMnemonic whole (offset + position) token mnemonic =
      Instruction.ofMnemonic tokens position token mnemonic := by
  cases mnemonic with
  | loopOpen | loopClose | readByte | readLine | writeCell | writeAs _ | writeRun | clearRun => rfl
  | moveForward | moveBackward | increment | decrement | setAs _ =>
      simp only [Instruction.ofMnemonic, Instruction.numberOperand, next]
  | setString => simp only [Instruction.ofMnemonic, Instruction.wordOperand, next]

private theorem advance_behind (next : whole[offset + position + 1]? = tokens[position + 1]?)
    (front : Array Node) (scopes : Scopes) :
    advance whole (offset + position) token (scopes.behind front) =
      (advance tokens position token scopes).map fun later =>
        (offset + later.1, later.2.behind front) := by
  unfold advance
  cases token.kind with
  | number | unknown => rfl
  | instruction mnemonic =>
      simp only [ofMnemonic_behind next, Scopes.openLoop_behind, Scopes.closeLoop?_behind,
        Scopes.push_behind, Nat.add_assoc]
      split
      · rfl
      · cases Instruction.ofMnemonic tokens position token mnemonic with
        | error error => rfl
        | ok instruction =>
            cases instruction with
            | loopClose => cases scopes.closeLoop? <;> rfl
            | _ => rfl

/-- A program that a longer one ends with is translated as it is on its own. -/
private theorem translateFrom_behind
    (placed : ∀ position, whole[offset + position]? = tokens[position]?)
    (front : Array Node) (position : Nat) (scopes : Scopes) :
    translateFrom whole (offset + position) (scopes.behind front) =
      (translateFrom tokens position scopes).map (front.toList ++ ·) := by
  fun_induction translateFrom tokens position scopes with
  | case1 position scopes within error refused =>
      have found := (placed position).trans (Array.getElem?_eq_getElem within)
      rw [translateFrom_eq found, advance_behind (placed (position + 1)), refused]
      rfl
  | case2 position scopes within next later advanced ih =>
      have found := (placed position).trans (Array.getElem?_eq_getElem within)
      rw [translateFrom_eq found, advance_behind (placed (position + 1)), advanced]
      exact ih
  | case3 position scopes past =>
      have ended : tokens[position]? = none :=
        Array.getElem?_eq_none_iff.mpr (Nat.le_of_not_lt past)
      rw [translateFrom_end ((placed position).trans ended), Scopes.nodes_behind]
      rfl

end Brainfuck

/-! ## Programs in front of others -/

open Brainfuck

variable {tokens : Array Token} {position next : Nat} (more : Array Token)

theorem Stands.extend {token : Token} {instruction : Instruction}
    (stands : Stands tokens position token instruction) :
    Stands (tokens ++ more) position token instruction := by
  have there := stands.placed (Placed.append_left tokens more)
  rw [Nat.zero_add] at there
  exact there

theorem Spans.extend {statements : List Statement}
    (spans : Spans tokens position statements next) :
    Spans (tokens ++ more) position statements next := by
  induction spans with
  | nil => exact .nil
  | plain stands notOpen notClose _ ih => exact .plain (stands.extend more) notOpen notClose ih
  | loop opens _ closes _ bodyIH restIH =>
      exact .loop (opens.extend more) bodyIH (closes.extend more) restIH

/-- Without loops that stay open the stack is left as it was found. -/
theorem ItemsSpan.translateFrom_closed {items : List Item} {nodes : List Node}
    (spans : ItemsSpan tokens position items next) (renders : Item.Renders items nodes)
    (closed : openPositions items = []) (scopes : Scopes) :
    Brainfuck.translateFrom (tokens ++ more) position scopes =
      Brainfuck.translateFrom (tokens ++ more) next (scopes.append nodes) := by
  induction spans generalizing scopes nodes with
  | nil =>
      cases renders
      rw [Scopes.append_nil]
  | statement spans _ ih =>
      cases renders with
      | statement statement rest =>
          rw [(spans.extend more).translateFrom statement, ih rest closed, Scopes.append_append]
  | openLoop opens _ ih => exact absurd closed (List.append_ne_nil_of_right_ne_nil _ nofun)

/-- Behind a program without open loops another one is translated to the nodes, or
refused for the reason, to or for which it is on its own. -/
theorem Nests.translate_append {items : List Item} {nodes : List Node}
    (nests : Nests tokens items) (renders : Item.Renders items nodes)
    (closed : openPositions items = []) :
    ofTokens (tokens ++ more) = (ofTokens more).map (nodes ++ ·) := by
  have second (position : Nat) : (tokens ++ more)[tokens.size + position]? = more[position]? := by
    rw [Array.getElem?_append_right (Nat.le_add_right _ _), Nat.add_sub_cancel_left]
  have front : Scopes.append {} nodes = Scopes.behind nodes.toArray {} := by
    simp [Scopes.append, Scopes.behind, Scopes.stackBehind]
  calc ofTokens (tokens ++ more)
    _ = translateFrom (tokens ++ more) tokens.size (Scopes.append {} nodes) :=
        nests.spans.translateFrom_closed more renders closed {}
    _ = (ofTokens more).map (nodes ++ ·) := by
        rw [front]
        exact translateFrom_behind second nodes.toArray 0 {}

end WordTape
