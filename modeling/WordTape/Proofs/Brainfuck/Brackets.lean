import WordTape.Proofs.Brainfuck.Commands
import WordTape.Proofs.Brainfuck.Nodes

/-!
# Matching brackets

In the text of a translation every bracket is matched, so that the search for the
bracket that matches another one passes over all of the text between them.
-/

set_option autoImplicit false

namespace WordTape.Brainfuck

def Plain (byte : UInt8) : Prop :=
  Command.ofByte? byte ≠ some .openBracket ∧ Command.ofByte? byte ≠ some .closeBracket

instance (byte : UInt8) : Decidable (Plain byte) :=
  inferInstanceAs (Decidable (_ ∧ _))

inductive Balanced : Bytes → Prop where
  | nil : Balanced []
  | plain {byte : UInt8} {rest : Bytes} :
      Plain byte → Balanced rest → Balanced (byte :: rest)
  | loop {inside rest : Bytes} :
      Balanced inside → Balanced rest → Balanced (91 :: (inside ++ 93 :: rest))

theorem Balanced.append {left right : Bytes} (first : Balanced left) (second : Balanced right) :
    Balanced (left ++ right) := by
  induction first with
  | nil => exact second
  | plain plain _ ih => exact .plain plain ih
  | @loop inside rest balanced _ _ restIH =>
      have joined := Balanced.loop balanced restIH
      simpa only [List.cons_append, List.append_assoc] using joined

theorem Balanced.replicate {byte : UInt8} (plain : Plain byte) (count : Nat) :
    Balanced (List.replicate count byte) := by
  induction count with
  | zero => exact .nil
  | succ count ih => exact .plain plain ih

theorem Balanced.units {positive negative : UInt8} (first : Plain positive)
    (second : Plain negative) (amount : Int) : Balanced (units positive negative amount) := by
  cases amount with
  | ofNat count => exact .replicate first count
  | negSucc predecessor => exact .replicate second (predecessor + 1)

theorem Plain.ne_brackets {byte : UInt8} (plain : Plain byte) : byte ≠ 91 ∧ byte ≠ 93 := by
  obtain ⟨notOpen, notClose⟩ := plain
  constructor
  · rintro rfl
    exact notOpen rfl
  · rintro rfl
    exact notClose rfl

private theorem count_opening (text : Bytes) :
    (91 :: text).count 91 = text.count 91 + 1 ∧ (91 :: text).count 93 = text.count 93 :=
  ⟨List.count_cons_self, List.count_cons_of_ne (by decide)⟩

private theorem count_closing (text : Bytes) :
    (93 :: text).count 91 = text.count 91 ∧ (93 :: text).count 93 = text.count 93 + 1 :=
  ⟨List.count_cons_of_ne (by decide), List.count_cons_self⟩

/-- As many brackets close as open. -/
theorem Balanced.count_eq {text : Bytes} (balanced : Balanced text) :
    text.count 93 = text.count 91 := by
  induction balanced with
  | nil => rfl
  | plain plain _ ih =>
      obtain ⟨notOpen, notClose⟩ := plain.ne_brackets
      rw [List.count_cons_of_ne notOpen, List.count_cons_of_ne notClose, ih]
  | @loop inside rest _ _ insideIH restIH =>
      rw [(count_opening _).1, (count_opening _).2, List.count_append, List.count_append,
        (count_closing rest).1, (count_closing rest).2, insideIH, restIH, Nat.add_assoc]

/-- At no place more brackets have closed than opened. -/
theorem Balanced.count_take_le {text : Bytes} (balanced : Balanced text) (place : Nat) :
    (text.take place).count 93 ≤ (text.take place).count 91 := by
  induction balanced generalizing place with
  | nil =>
      rw [List.take_nil]
      exact Nat.le_refl 0
  | plain plain _ ih =>
      obtain ⟨notOpen, notClose⟩ := plain.ne_brackets
      cases place with
      | zero => exact Nat.le_refl 0
      | succ place =>
          rw [List.take_succ_cons, List.count_cons_of_ne notOpen, List.count_cons_of_ne notClose]
          exact ih place
  | @loop inside rest balanced _ insideIH restIH =>
      cases place with
      | zero => exact Nat.le_refl 0
      | succ place =>
          have inner := insideIH place
          rw [List.take_succ_cons, List.take_append, (count_opening _).1, (count_opening _).2,
            List.count_append, List.count_append]
          cases behind : place - inside.length with
          | zero => exact Nat.le_succ_of_le inner
          | succ more =>
              -- The bracket that closes the loop is passed, and so is all of its inside.
              have outer := restIH more
              have whole : inside.take place = inside := List.take_of_length_le (by omega)
              rw [List.take_succ_cons, (count_closing _).1, (count_closing _).2, whole,
                balanced.count_eq]
              omega

namespace Cursor

private theorem closing?_plain {byte : UInt8} (plain : Plain byte) (depth : Nat)
    (passed ahead : Bytes) :
    closing? depth passed (byte :: ahead) = closing? depth (byte :: passed) ahead := by
  obtain ⟨notOpen, notClose⟩ := plain
  simp only [closing?]

private theorem opening?_plain {byte : UInt8} (plain : Plain byte) (depth : Nat)
    (passed ahead : Bytes) :
    opening? depth (byte :: passed) ahead = opening? depth passed (byte :: ahead) := by
  obtain ⟨notOpen, notClose⟩ := plain
  simp only [opening?]

/-- The search for the closing bracket passes over balanced text. -/
private theorem closing?_balanced {text : Bytes} (balanced : Balanced text) (depth : Nat)
    (passed ahead : Bytes) :
    closing? depth passed (text ++ ahead) = closing? depth (text.reverse ++ passed) ahead := by
  induction balanced generalizing depth passed ahead with
  | nil => rfl
  | plain plain _ ih =>
      rw [List.cons_append, closing?_plain plain, ih]
      simp only [List.reverse_cons, List.append_assoc, List.cons_append, List.nil_append]
  | @loop inside rest _ _ insideIH restIH =>
      have opened : closing? depth passed (91 :: (inside ++ 93 :: rest) ++ ahead) =
          closing? (depth + 1) (91 :: passed) (inside ++ (93 :: (rest ++ ahead))) := by
        simp only [List.cons_append, List.append_assoc]
        rfl
      have closed (around : Bytes) : closing? (depth + 1) around (93 :: (rest ++ ahead)) =
          closing? depth (93 :: around) (rest ++ ahead) := rfl
      rw [opened, insideIH, closed, restIH]
      simp only [List.reverse_cons, List.reverse_append, List.append_assoc, List.cons_append,
        List.nil_append]

private theorem opening?_balanced {text : Bytes} (balanced : Balanced text) (depth : Nat)
    (passed ahead : Bytes) :
    opening? depth (text.reverse ++ passed) ahead = opening? depth passed (text ++ ahead) := by
  induction balanced generalizing depth passed ahead with
  | nil => rfl
  | plain plain _ ih =>
      rw [List.reverse_cons, List.append_assoc, List.singleton_append, ih, opening?_plain plain,
        List.cons_append]
  | @loop inside rest _ _ insideIH restIH =>
      have reversed : (91 :: (inside ++ 93 :: rest)).reverse ++ passed =
          rest.reverse ++ (93 :: (inside.reverse ++ 91 :: passed)) := by
        simp only [List.reverse_cons, List.reverse_append, List.append_assoc, List.cons_append,
          List.nil_append]
      have closed : opening? depth (93 :: (inside.reverse ++ 91 :: passed)) (rest ++ ahead) =
          opening? (depth + 1) (inside.reverse ++ 91 :: passed) (93 :: (rest ++ ahead)) := rfl
      have opened (around : Bytes) : opening? (depth + 1) (91 :: passed) around =
          opening? depth passed (91 :: around) := rfl
      rw [reversed, restIH, closed, insideIH, opened]
      simp only [List.append_assoc, List.cons_append]

end Cursor

namespace State

variable {size : Nat} {state : State size} {inside : Bytes}

theorem step_openBracket_zero (balanced : Balanced inside) (zero : state.current = 0)
    (passed ahead : Bytes) :
    step 91 passed (inside ++ 93 :: ahead) state =
      .ok ({ passed := 93 :: (inside.reverse ++ 91 :: passed), ahead }, state) := by
  have found : Cursor.closing? 0 (91 :: passed) (inside ++ 93 :: ahead) =
      some { passed := 93 :: (inside.reverse ++ 91 :: passed), ahead } := by
    rw [Cursor.closing?_balanced balanced]
    rfl
  have next : Cursor.next? (Command.ofByte? 91) state.current 91 passed (inside ++ 93 :: ahead) =
      Cursor.closing? 0 (91 :: passed) (inside ++ 93 :: ahead) := if_pos zero
  simp only [step, next, found]
  rfl

theorem step_openBracket_nonzero (nonzero : state.current ≠ 0) (passed ahead : Bytes) :
    step 91 passed ahead state = .ok ({ passed := 91 :: passed, ahead }, state) := by
  have next : Cursor.next? (Command.ofByte? 91) state.current 91 passed ahead =
      some { passed := 91 :: passed, ahead } := if_neg nonzero
  simp only [step, next]
  rfl

theorem step_closeBracket_zero (zero : state.current = 0) (passed ahead : Bytes) :
    step 93 passed ahead state = .ok ({ passed := 93 :: passed, ahead }, state) := by
  have next : Cursor.next? (Command.ofByte? 93) state.current 93 passed ahead =
      some { passed := 93 :: passed, ahead } := if_pos zero
  simp only [step, next]
  rfl

theorem step_closeBracket_nonzero (balanced : Balanced inside) (nonzero : state.current ≠ 0)
    (passed ahead : Bytes) :
    step 93 (inside.reverse ++ 91 :: passed) ahead state =
      .ok ({ passed := 91 :: passed, ahead := inside ++ 93 :: ahead }, state) := by
  have found : Cursor.opening? 0 (inside.reverse ++ 91 :: passed) (93 :: ahead) =
      some { passed := 91 :: passed, ahead := inside ++ 93 :: ahead } := by
    rw [Cursor.opening?_balanced balanced]
    rfl
  have next : Cursor.next? (Command.ofByte? 93) state.current 93
      (inside.reverse ++ 91 :: passed) ahead =
      Cursor.opening? 0 (inside.reverse ++ 91 :: passed) (93 :: ahead) := if_neg nonzero
  simp only [step, next, found]
  rfl

end State

@[simp] theorem text_append (left right : List Node) :
    text (left ++ right) = text left ++ text right := by
  induction left with
  | nil => rfl
  | cons node rest ih => simp only [List.cons_append, text, ih, List.append_assoc]

/-- The only commands among the nodes are those of input and output. -/
inductive Proper : List Node → Prop where
  | nil : Proper []
  | add {amount : Int} {rest : List Node} : Proper rest → Proper (.add amount :: rest)
  | move {distance : Int} {rest : List Node} : Proper rest → Proper (.move distance :: rest)
  | input {rest : List Node} : Proper rest → Proper (.command inputCommand :: rest)
  | output {rest : List Node} : Proper rest → Proper (.command outputCommand :: rest)
  | loop {body rest : List Node} : Proper body → Proper rest → Proper (.loop body :: rest)

theorem Proper.append {left right : List Node} (first : Proper left) (second : Proper right) :
    Proper (left ++ right) := by
  induction first with
  | nil => exact second
  | add _ ih => exact .add ih
  | move _ ih => exact .move ih
  | input _ ih => exact .input ih
  | output _ ih => exact .output ih
  | loop body _ _ ih => exact .loop body ih

private theorem proper_node {instruction : Instruction} {node : Node}
    (translated : nodeOf? instruction = some node) : Proper [node] := by
  cases instruction with
  | moveForward steps | moveBackward steps =>
      cases translated
      exact .move .nil
  | increment amount | decrement amount =>
      cases translated
      exact .add .nil
  | readByte =>
      cases translated
      exact .input .nil
  | writeCell =>
      cases translated
      exact .output .nil
  | loopOpen | loopClose | readLine | writeAs _ | setString _ | setAs _ _ | writeRun
  | clearRun => cases translated

theorem Proper.balanced {nodes : List Node} (proper : Proper nodes) : Balanced (text nodes) := by
  induction proper with
  | nil => exact .nil
  | add _ ih =>
      rw [text, Node.text]
      exact (Balanced.units (by decide) (by decide) _).append ih
  | move _ ih =>
      rw [text, Node.text]
      exact (Balanced.units (by decide) (by decide) _).append ih
  | input _ ih | output _ ih => exact .plain (by decide) ih
  | loop _ _ bodyIH restIH =>
      rw [text, Node.text, List.cons_append, List.append_assoc, List.singleton_append]
      exact .loop bodyIH restIH

/-- A closed loop is its body, followed by a bracketed copy of the body. -/
theorem text_loop (body : List Statement) (closing : Token) (rest : List Statement) :
    text (Statement.nodesOf (.loop body closing :: rest)) =
      text (Statement.nodesOf body) ++
        91 :: (text (Statement.nodesOf body) ++ 93 :: text (Statement.nodesOf rest)) := by
  simp only [Statement.nodesOf, Statement.nodes, text_append, text, Node.text,
    List.append_assoc, List.cons_append, List.nil_append]

theorem text_plain {token : Token} {instruction : Instruction} {node : Node}
    (translated : nodeOf? instruction = some node) (rest : List Statement) :
    text (Statement.nodesOf (.plain token instruction :: rest)) =
      node.text ++ text (Statement.nodesOf rest) := by
  simp only [Statement.nodesOf, Statement.nodes, translated, Option.toList_some,
    List.singleton_append, text]

end WordTape.Brainfuck

namespace WordTape

open Brainfuck

theorem Translatable.proper {statements : List Statement}
    (translatable : Translatable statements) : Proper (Statement.nodesOf statements) := by
  induction translatable with
  | nil => exact .nil
  | plain translated _ ih =>
      rw [Statement.nodesOf, Statement.nodes, translated]
      exact (proper_node translated).append ih
  | loop _ _ bodyIH restIH =>
      rw [Statement.nodesOf, Statement.nodes]
      exact (bodyIH.append (.loop bodyIH .nil)).append restIH

theorem Translatable.balanced {statements : List Statement}
    (translatable : Translatable statements) :
    Balanced (text (Statement.nodesOf statements)) :=
  translatable.proper.balanced

end WordTape
