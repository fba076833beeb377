import WordTape.Proofs.Brainfuck.Brackets
import WordTape.Proofs.Brainfuck.Units

/-!
# Texts as trees

The grammar of Brainfuck reads a text as a list of trees: a bracket, the text inside and the
bracket that matches it are a loop, any other command stands for itself, and comments for
nothing. A text has one reading at most. That of an emitted text is the program that was
emitted, with each amount laid out in its units.
-/

set_option autoImplicit false

namespace WordTape.Brainfuck

inductive Tree where
  | command (command : Command)
  | loop (body : List Tree)

/-- The grammar: a text is read as a list of trees. -/
inductive Derives : Bytes → List Tree → Prop where
  | nil : Derives [] []
  | comment {byte : UInt8} {rest : Bytes} {trees : List Tree} :
      Command.ofByte? byte = none → Derives rest trees → Derives (byte :: rest) trees
  | command {command : Command} {rest : Bytes} {trees : List Tree} :
      command ≠ .openBracket → command ≠ .closeBracket → Derives rest trees →
      Derives (command.byte :: rest) (.command command :: trees)
  | loop {inside rest : Bytes} {body trees : List Tree} :
      Derives inside body → Derives rest trees →
      Derives (Command.openBracket.byte :: (inside ++ Command.closeBracket.byte :: rest))
        (.loop body :: trees)

/-- Reads the rest of a text, with the trees that were read inside the innermost open bracket
and those in front of each open bracket, from inside out. -/
def parseFrom : Bytes → (innermost : List Tree) → (outer : List (List Tree)) →
    Option (List Tree)
  | [], innermost, [] => some innermost
  | [], _, _ :: _ => none
  | byte :: rest, innermost, outer =>
      match Command.ofByte? byte with
      | none => parseFrom rest innermost outer
      | some .openBracket => parseFrom rest [] (innermost :: outer)
      | some .closeBracket =>
          match outer with
          | [] => none
          | scope :: outer => parseFrom rest (scope ++ [.loop innermost]) outer
      | some command => parseFrom rest (innermost ++ [.command command]) outer

def parse (text : Bytes) : Option (List Tree) :=
  parseFrom text [] []

section

variable {byte : UInt8} {rest : Bytes} {innermost scope : List Tree} {outer : List (List Tree)}

private theorem parseFrom_comment (comment : Command.ofByte? byte = none) :
    parseFrom (byte :: rest) innermost outer = parseFrom rest innermost outer := by
  simp only [parseFrom, comment]

private theorem parseFrom_command {command : Command} (reads : Command.ofByte? byte = some command)
    (notOpen : command ≠ .openBracket) (notClose : command ≠ .closeBracket) :
    parseFrom (byte :: rest) innermost outer =
      parseFrom rest (innermost ++ [.command command]) outer := by
  cases command with
  | openBracket | closeBracket => contradiction
  | _ => simp only [parseFrom, reads]

private theorem parseFrom_openBracket (reads : Command.ofByte? byte = some .openBracket) :
    parseFrom (byte :: rest) innermost outer = parseFrom rest [] (innermost :: outer) := by
  simp only [parseFrom, reads]

private theorem parseFrom_closeBracket (reads : Command.ofByte? byte = some .closeBracket) :
    parseFrom (byte :: rest) innermost (scope :: outer) =
      parseFrom rest (scope ++ [.loop innermost]) outer := by
  simp only [parseFrom, reads]

end

theorem Command.byte_of_ofByte? {byte : UInt8} {command : Command}
    (reads : Command.ofByte? byte = some command) : byte = command.byte := by
  have found := List.find?_some reads
  exact (beq_iff_eq.mp found).symm

/-! ## The parser reads what the grammar derives -/

theorem Derives.parseFrom {text : Bytes} {trees : List Tree} (derives : Derives text trees)
    (rest : Bytes) (innermost : List Tree) (outer : List (List Tree)) :
    parseFrom (text ++ rest) innermost outer = parseFrom rest (innermost ++ trees) outer := by
  induction derives generalizing rest innermost outer with
  | nil => rw [List.nil_append, List.append_nil]
  | comment comment _ ih => rw [List.cons_append, parseFrom_comment comment, ih]
  | command notOpen notClose _ ih =>
      rw [List.cons_append, parseFrom_command (Command.ofByte?_byte _) notOpen notClose, ih,
        List.append_assoc, List.singleton_append]
  | loop _ _ insideIH restIH =>
      rw [List.cons_append, List.append_assoc, List.cons_append,
        parseFrom_openBracket (Command.ofByte?_byte _), insideIH, List.nil_append,
        parseFrom_closeBracket (Command.ofByte?_byte _), restIH, List.append_assoc,
        List.singleton_append]

/-- What is left of a text completes a reading: it closes all open brackets, and behind each it
goes on with more trees. -/
inductive Completes : Bytes → List Tree → List (List Tree) → List Tree → Prop where
  | done {text : Bytes} {innermost more : List Tree} :
      Derives text more → Completes text innermost [] (innermost ++ more)
  | close {inside rest : Bytes} {innermost more scope trees : List Tree}
      {outer : List (List Tree)} :
      Derives inside more → Completes rest (scope ++ [.loop (innermost ++ more)]) outer trees →
      Completes (inside ++ Command.closeBracket.byte :: rest) innermost (scope :: outer) trees

namespace Completes

variable {byte : UInt8} {rest : Bytes} {innermost trees : List Tree} {outer : List (List Tree)}

private theorem comment (comment : Command.ofByte? byte = none)
    (later : Completes rest innermost outer trees) :
    Completes (byte :: rest) innermost outer trees := by
  cases later with
  | done derives => exact .done (.comment comment derives)
  | close derives completes => exact .close (.comment comment derives) completes

private theorem command {command : Command} (notOpen : command ≠ .openBracket)
    (notClose : command ≠ .closeBracket)
    (later : Completes rest (innermost ++ [.command command]) outer trees) :
    Completes (command.byte :: rest) innermost outer trees := by
  cases later with
  | done derives =>
      rw [List.append_assoc]
      exact .done (.command notOpen notClose derives)
  | close derives completes =>
      rw [List.append_assoc] at completes
      exact .close (.command notOpen notClose derives) completes

private theorem openBracket (later : Completes rest [] (innermost :: outer) trees) :
    Completes (Command.openBracket.byte :: rest) innermost outer trees := by
  cases later with
  | @close inside _ _ body _ _ _ derives completes =>
      cases completes with
      | done more =>
          rw [List.append_assoc]
          exact .done (.loop derives more)
      | @close between further _ _ _ _ _ more completes =>
          rw [List.append_assoc] at completes
          have whole := Completes.close (.loop derives more) completes
          rwa [List.cons_append, List.append_assoc, List.cons_append] at whole

end Completes

private theorem completes_of_parseFrom {text : Bytes} {innermost trees : List Tree}
    {outer : List (List Tree)} (parsed : parseFrom text innermost outer = some trees) :
    Completes text innermost outer trees := by
  induction text generalizing innermost outer with
  | nil =>
      cases outer with
      | nil =>
          cases parsed
          have done := @Completes.done [] trees [] .nil
          rwa [List.append_nil] at done
      | cons scope outer => cases parsed
  | cons byte rest ih =>
      cases reads : Command.ofByte? byte with
      | none =>
          rw [parseFrom_comment reads] at parsed
          exact .comment reads (ih parsed)
      | some command =>
          obtain rfl := Command.byte_of_ofByte? reads
          by_cases opens : command = .openBracket
          · subst opens
            rw [parseFrom_openBracket reads] at parsed
            exact .openBracket (ih parsed)
          by_cases closes : command = .closeBracket
          · subst closes
            cases outer with
            | nil => cases parsed
            | cons scope outer =>
                rw [parseFrom_closeBracket reads] at parsed
                have completes := ih parsed
                rw [← List.append_nil innermost] at completes
                exact .close .nil completes
          · rw [parseFrom_command reads opens closes] at parsed
            exact .command opens closes (ih parsed)

/-- The parser finds the reading of a text, and it finds none if there is none. -/
theorem parse_eq_some_iff {text : Bytes} {trees : List Tree} :
    parse text = some trees ↔ Derives text trees := by
  constructor
  · intro parsed
    cases completes_of_parseFrom parsed with
    | done derives => exact derives
  · intro derives
    have parsed := derives.parseFrom [] [] []
    rwa [List.append_nil, List.nil_append] at parsed

/-! ## Units -/

/-- As many trees as an amount has units, of the command for its sign. -/
def unitTrees (positive negative : Command) (amount : Int) : List Tree :=
  List.replicate amount.natAbs (.command (if 0 < amount then positive else negative))

mutual

def Node.unitTrees : Node → List Tree
  | .add amount => Brainfuck.unitTrees .increment .decrement amount
  | .move distance => Brainfuck.unitTrees .right .left distance
  | .command text => text.filterMap fun byte => (Command.ofByte? byte).map .command
  | .loop body => [.loop (unitTreesOf body)]

/-- The trees of a program in which every amount is laid out in its units. -/
def unitTreesOf : List Node → List Tree
  | [] => []
  | node :: rest => node.unitTrees ++ unitTreesOf rest

end

theorem units_eq (positive negative : Command) (amount : Int) :
    units positive.byte negative.byte amount =
      List.replicate amount.natAbs (if 0 < amount then positive else negative).byte := by
  cases amount with
  | ofNat count =>
      cases count with
      | zero => rfl
      | succ count =>
          have sign : 0 < Int.ofNat (count + 1) := Int.natCast_pos.mpr (Nat.succ_pos count)
          rw [if_pos sign]
          rfl
  | negSucc predecessor =>
      have sign : ¬0 < Int.negSucc predecessor := Int.not_lt.mpr (Int.negSucc_le_zero _)
      rw [if_neg sign]
      rfl

theorem Derives.append {left right : Bytes} {first second : List Tree}
    (here : Derives left first) (there : Derives right second) :
    Derives (left ++ right) (first ++ second) := by
  induction here with
  | nil => exact there
  | comment comment _ ih => exact .comment comment ih
  | command notOpen notClose _ ih => exact .command notOpen notClose ih
  | loop inside _ _ ih =>
      rw [List.cons_append, List.append_assoc]
      exact .loop inside ih

theorem Derives.replicate {command : Command} (notOpen : command ≠ .openBracket)
    (notClose : command ≠ .closeBracket) (count : Nat) :
    Derives (List.replicate count command.byte) (List.replicate count (.command command)) := by
  induction count with
  | zero => exact .nil
  | succ count ih => exact .command notOpen notClose ih

theorem Derives.units {positive negative : Command} (first : positive.isUnit = true)
    (second : negative.isUnit = true) (amount : Int) :
    Derives (units positive.byte negative.byte amount) (unitTrees positive negative amount) := by
  have unit : (if 0 < amount then positive else negative).isUnit = true := by
    split
    · exact first
    · exact second
  rw [units_eq, unitTrees]
  refine .replicate ?_ ?_ _
  · intro opens
    rw [opens] at unit
    cases unit
  · intro closes
    rw [closes] at unit
    cases unit

/-- The text of a program is read as the program laid out in units. -/
theorem Proper.derives {nodes : List Node} (proper : Proper nodes) :
    Derives (text nodes) (unitTreesOf nodes) := by
  induction proper with
  | nil => exact .nil
  | @add amount _ _ ih =>
      exact (@Derives.units .increment .decrement rfl rfl amount).append ih
  | @move distance _ _ ih => exact (@Derives.units .right .left rfl rfl distance).append ih
  | input _ ih => exact @Derives.command .input _ _ nofun nofun ih
  | output _ ih => exact @Derives.command .output _ _ nofun nofun ih
  | loop _ _ bodyIH restIH =>
      rw [text, Node.text, List.cons_append, List.append_assoc]
      exact .loop bodyIH restIH

theorem Proper.parse_text {nodes : List Node} (proper : Proper nodes) :
    parse (text nodes) = some (unitTreesOf nodes) :=
  parse_eq_some_iff.mpr proper.derives

/-! ## Texts of trees -/

mutual

def Tree.text : Tree → Bytes
  | .command command => [command.byte]
  | .loop body => Command.openBracket.byte :: (textOf body ++ [Command.closeBracket.byte])

def textOf : List Tree → Bytes
  | [] => []
  | tree :: rest => tree.text ++ textOf rest

end

@[simp] theorem textOf_append (left right : List Tree) :
    textOf (left ++ right) = textOf left ++ textOf right := by
  induction left with
  | nil => rfl
  | cons tree rest ih => simp only [List.cons_append, textOf, ih, List.append_assoc]

private theorem textOf_replicate (command : Command) (count : Nat) :
    textOf (List.replicate count (.command command)) = List.replicate count command.byte := by
  induction count with
  | zero => rfl
  | succ count ih =>
      rw [List.replicate_succ, List.replicate_succ, textOf, ih, Tree.text, List.singleton_append]

private theorem textOf_unitTrees (positive negative : Command) (amount : Int) :
    textOf (unitTrees positive negative amount) = units positive.byte negative.byte amount := by
  rw [unitTrees, textOf_replicate, units_eq]

/-- The text of a program depends on nothing but its units. -/
theorem Proper.textOf_unitTreesOf {nodes : List Node} (proper : Proper nodes) :
    textOf (unitTreesOf nodes) = text nodes := by
  induction proper with
  | nil => rfl
  | add _ ih =>
      rw [unitTreesOf, Node.unitTrees, textOf_append, textOf_unitTrees, ih]
      rfl
  | move _ ih =>
      rw [unitTreesOf, Node.unitTrees, textOf_append, textOf_unitTrees, ih]
      rfl
  | input _ ih | output _ ih =>
      rw [unitTreesOf, textOf_append, ih]
      rfl
  | @loop body rest _ _ bodyIH restIH =>
      have inside : textOf [Tree.loop (unitTreesOf body)] = (Node.loop body).text := by
        rw [textOf, textOf, Tree.text, bodyIH, List.append_nil]
        rfl
      rw [unitTreesOf, Node.unitTrees, textOf_append, inside, restIH]
      rfl

/-! ## Emitted texts -/

private theorem exists_command_of_mem_units {positive negative : Command} {amount : Int}
    {byte : UInt8}
    (member : byte ∈ units positive.byte negative.byte amount) :
    ∃ command : Command, command.byte = byte := by
  rw [units_eq, List.mem_replicate] at member
  exact ⟨_, member.2.symm⟩

private theorem Proper.exists_command {nodes : List Node} (proper : Proper nodes) {byte : UInt8}
    (member : byte ∈ text nodes) : ∃ command : Command, command.byte = byte := by
  induction proper with
  | nil => cases member
  | @add amount _ _ ih =>
      rcases List.mem_append.mp member with inside | later
      · exact @exists_command_of_mem_units .increment .decrement amount byte inside
      · exact ih later
  | @move distance _ _ ih =>
      rcases List.mem_append.mp member with inside | later
      · exact @exists_command_of_mem_units .right .left distance byte inside
      · exact ih later
  | input _ ih =>
      rcases List.mem_cons.mp member with rfl | later
      · exact ⟨.input, rfl⟩
      · exact ih later
  | output _ ih =>
      rcases List.mem_cons.mp member with rfl | later
      · exact ⟨.output, rfl⟩
      · exact ih later
  | loop _ _ bodyIH restIH =>
      rw [text, Node.text, List.cons_append, List.append_assoc, List.mem_cons,
        List.mem_append, List.singleton_append, List.mem_cons] at member
      rcases member with rfl | inside | rfl | later
      · exact ⟨.openBracket, rfl⟩
      · exact bodyIH inside
      · exact ⟨.closeBracket, rfl⟩
      · exact restIH later

/-- The text of a program consists of the eight commands. As many brackets close in it as open,
and up to no place more of them. The grammar has one reading of it, which the parser finds: the
program with every amount laid out in its units. So two programs have the same text exactly if
they are the same in units. -/
theorem text_is_read_as_units {nodes : List Node} (proper : Proper nodes) :
    (∀ byte ∈ text nodes, ∃ command : Command, command.byte = byte) ∧
      (text nodes).count Command.closeBracket.byte =
        (text nodes).count Command.openBracket.byte ∧
      (∀ front, front <+: text nodes →
        front.count Command.closeBracket.byte ≤ front.count Command.openBracket.byte) ∧
      parse (text nodes) = some (unitTreesOf nodes) ∧
      (∀ trees, Derives (text nodes) trees ↔ trees = unitTreesOf nodes) ∧
      ∀ others, Proper others →
        (text nodes = text others ↔ unitTreesOf nodes = unitTreesOf others) := by
  refine ⟨fun byte => proper.exists_command, proper.balanced.count_eq, ?_, proper.parse_text,
    ?_, ?_⟩
  · intro front inFront
    have whole := proper.balanced.count_take_le front.length
    rwa [← List.prefix_iff_eq_take.mp inFront] at whole
  · intro trees
    rw [← parse_eq_some_iff, proper.parse_text, Option.some.injEq]
    exact eq_comm
  · intro others otherProper
    constructor
    · intro same
      have parsed := proper.parse_text
      rw [same, otherProper.parse_text] at parsed
      exact (Option.some.inj parsed).symm
    · intro same
      rw [← proper.textOf_unitTreesOf, same, otherProper.textOf_unitTreesOf]

/-- Amounts that come to the same units are not told apart, and an amount of nothing is not seen,
but an empty loop is. -/
theorem split_amounts_have_one_text :
    let nodes : List Node := [.add 2, .loop [.move (-1), .add 0], .loop []]
    let others : List Node := [.add 1, .add 1, .loop [.move (-1)], .loop []]
    Proper nodes ∧ Proper others ∧ unitTreesOf nodes = unitTreesOf others ∧
      text nodes = Bytes.ofString "++[<][]" ∧ text nodes = text others ∧
      Derives (Bytes.ofString "++[<][]")
        [.command .increment, .command .increment, .loop [.command .left], .loop []] := by
  intro nodes others
  have proper : Proper nodes := .add (.loop (.move (.add .nil)) (.loop .nil .nil))
  have otherProper : Proper others := .add (.add (.loop (.move .nil) (.loop .nil .nil)))
  have shown : text nodes = Bytes.ofString "++[<][]" := by decide +kernel
  obtain ⟨_, _, _, _, reading, telling⟩ := text_is_read_as_units proper
  refine ⟨proper, otherProper, rfl, shown, (telling others otherProper).mpr rfl, ?_⟩
  rw [← shown]
  exact (reading _).mpr rfl

end WordTape.Brainfuck
