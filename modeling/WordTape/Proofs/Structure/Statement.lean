import WordTape.Machine

/-!
# Programs as statements

The tokens of a program are read from left to right into instructions, each with
the operand that it takes, up to the end or to the first token that begins no
instruction. A `pol` closes the nearest loop before it that is still open; if there
is none, reading ends there, too. What was read is a list of statements and of loops
that stay open, and what ended the reading stands for its fault.
-/

set_option autoImplicit false

namespace WordTape

/-- An instruction other than the loop instructions, or a closed loop with the token
that closes it. -/
inductive Statement where
  | plain (token : Token) (instruction : Instruction)
  | loop (body : List Statement) (closing : Token)

inductive Item where
  | statement (statement : Statement)
  /-- An opened loop that is never closed, by the position at which it opens. -/
  | openLoop (position : Nat)

def Item.statement? : Item → Option Statement
  | statement inner => some inner
  | openLoop _ => none

structure Outline where
  items : List Item
  /-- The fault of the token that ended the reading, none at the end of the program. -/
  fault? : Option RunFault

structure Site where
  position : Nat
  token : Token
  instruction : Instruction

theorem Instruction.length_pos (instruction : Instruction) : 0 < instruction.length := by
  simp only [Instruction.length, Mnemonic.length]
  split <;> omega

/-- The instructions from a position on, and the error of the first token that begins
none, if there is one. -/
def sitesFrom (tokens : Array Token) (position : Nat) : List Site × Option InstructionError :=
  if _ : position < tokens.size then
    match Instruction.fetch tokens position tokens[position] with
    | .error error => ([], some error)
    | .ok instruction =>
        let (sites, error?) := sitesFrom tokens (position + instruction.length)
        ({ position, token := tokens[position], instruction } :: sites, error?)
  else ([], none)
termination_by tokens.size - position
decreasing_by
  have := instruction.length_pos
  omega

/-- A reading in progress: the statements of the innermost open loop, and around it
those that stand before each open loop, with the position at which the loop opens,
from inside out. -/
structure Nesting where
  innermost : List Statement := []
  outer : List (List Statement × Nat) := []

namespace Nesting

def push (statement : Statement) (nesting : Nesting) : Nesting :=
  { nesting with innermost := nesting.innermost ++ [statement] }

def openLoop (position : Nat) (nesting : Nesting) : Nesting where
  outer := (nesting.innermost, position) :: nesting.outer

def closeLoop? (closing : Token) : Nesting → Option Nesting
  | { innermost := _, outer := [] } => none
  | { innermost, outer := (scope, _) :: outer } =>
      some { innermost := scope ++ [.loop innermost closing], outer }

def outerItems : List (List Statement × Nat) → List Item
  | [] => []
  | (scope, position) :: outer =>
      outerItems outer ++ scope.map .statement ++ [.openLoop position]

/-- The program as it stands when no loop is closed any more. -/
def items (nesting : Nesting) : List Item :=
  outerItems nesting.outer ++ nesting.innermost.map .statement

/-- Takes the rest of the instructions, up to the first `pol` without an open loop. -/
def outline (error? : Option InstructionError) : Nesting → List Site → Outline
  | nesting, [] => { items := nesting.items, fault? := error?.map .notInstruction }
  | nesting, { position, token, instruction } :: sites =>
      match instruction with
      | .loopOpen => outline error? (nesting.openLoop position) sites
      | .loopClose =>
          match nesting.closeLoop? token with
          | some nesting => outline error? nesting sites
          | none => { items := nesting.items, fault? := some (.noOpenLoop token) }
      | instruction => outline error? (nesting.push (.plain token instruction)) sites

end Nesting

def Outline.ofTokens (tokens : Array Token) : Outline :=
  let (sites, error?) := sitesFrom tokens 0
  Nesting.outline error? {} sites

end WordTape
