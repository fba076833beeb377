import WordTape.Brainfuck.Node
import WordTape.Instruction
import WordTape.Report
import WordTape.Source
import WordTape.Token.Lexer

/-!
# From words to Brainfuck

The instructions that Brainfuck can express are translated one by one. The body of
a loop runs before its test, so a closed loop becomes its body followed by a loop
over the body, and a loop that is left open becomes its body alone.
-/

set_option autoImplicit false

namespace WordTape.Brainfuck

inductive ErrorKind where
  | notSupported
  | malformedOperand
  | loopStackUnderflow
  | io
deriving DecidableEq, Repr

def ErrorKind.label : ErrorKind → String
  | notSupported => "Not supported"
  | malformedOperand => "Malformed operand"
  | loopStackUnderflow => "Loop stack underflow"
  | io => "IO error"

structure ErrorReport where
  kind : ErrorKind
  description : Bytes
  line : Option Int := none
  column : Option Int := none
deriving DecidableEq, Repr

def ErrorReport.message (report : ErrorReport) : Bytes :=
  Bytes.ofString "Translator Error [" ++ Bytes.ofString report.kind.label ++
    Bytes.ofString "]: " ++ report.description ++ placeText report.line report.column

inductive TranslationError where
  | notSupported (token : Token)
  | malformedOperand (error : OperandError)
  | noOpenLoop (token : Token)
deriving DecidableEq, Repr

namespace TranslationError

def kind : TranslationError → ErrorKind
  | notSupported _ => .notSupported
  | malformedOperand _ => .malformedOperand
  | noOpenLoop _ => .loopStackUnderflow

def token : TranslationError → Token
  | notSupported token => token
  | malformedOperand error => error.token
  | noOpenLoop token => token

def description : TranslationError → Bytes
  | notSupported token =>
      Bytes.ofString "The token " ++ Bytes.inQuotes token.value ++
        Bytes.ofString " is not supported in translation."
  | malformedOperand error => error.description
  | noOpenLoop _ => Bytes.ofString "Found 'pol' without a matching 'lop'."

def report (error : TranslationError) : ErrorReport where
  kind := error.kind
  description := error.description
  line := some error.token.position.line
  column := some error.token.position.column

end TranslationError

def isSupported : Mnemonic → Bool
  | .moveForward | .moveBackward | .increment | .decrement | .loopOpen | .loopClose
  | .readByte | .writeCell => true
  | .readLine | .writeAs _ | .setString | .setAs _ | .writeRun | .clearRun => false

def nodeOf? : Instruction → Option Node
  | .moveForward steps => some (.move steps)
  | .moveBackward steps => some (.move (-steps))
  | .increment amount => some (.add amount)
  | .decrement amount => some (.add (-amount))
  | .readByte => some (.command inputCommand)
  | .writeCell => some (.command outputCommand)
  | .loopOpen | .loopClose | .readLine | .writeAs _ | .setString _ | .setAs _ _
  | .writeRun | .clearRun => none

/-- A translation in progress: the nodes of the innermost open loop, and those of
the loops around it, from inside out. Without an open loop there is only the program. -/
structure Scopes where
  innermost : Array Node := #[]
  outer : List (Array Node) := []

namespace Scopes

def push (node : Node) : Scopes → Scopes
  | { innermost, outer } => { innermost := innermost.push node, outer }

def openLoop (scopes : Scopes) : Scopes where
  outer := scopes.innermost :: scopes.outer

/-- Closes the innermost loop, if there is one: its body once, and then the loop. -/
def closeLoop? : Scopes → Option Scopes
  | { innermost := _, outer := [] } => none
  | { innermost, outer := scope :: outer } =>
      some { innermost := (scope ++ innermost).push (.loop innermost.toList), outer }

/-- The nodes of the program when it ends here: each open loop is its body alone. -/
def nodes (scopes : Scopes) : List Node :=
  (scopes.outer.foldl (fun inner scope => scope ++ inner) scopes.innermost).toList

end Scopes

/-- Takes the instruction at a position, where the given token stands, into a
translation. The position of the next instruction comes with it. -/
def advance (tokens : Array Token) (position : Nat) (token : Token) (scopes : Scopes) :
    Except TranslationError (Nat × Scopes) :=
  match token.kind with
  | .number | .unknown => .error (.notSupported token)
  | .instruction mnemonic =>
      if !isSupported mnemonic then .error (.notSupported token)
      else
        match Instruction.ofMnemonic tokens position token mnemonic with
        | .error error => .error (.malformedOperand error)
        | .ok .loopOpen => .ok (position + 1, scopes.openLoop)
        | .ok .loopClose =>
            match scopes.closeLoop? with
            | some scopes => .ok (position + 1, scopes)
            | none => .error (.noOpenLoop token)
        | .ok instruction =>
            match nodeOf? instruction with
            | some node => .ok (position + instruction.length, scopes.push node)
            | none => .error (.notSupported token)

theorem lt_of_advance {tokens : Array Token} {position next : Nat} {token : Token}
    {scopes scopesNext : Scopes}
    (advanced : advance tokens position token scopes = .ok (next, scopesNext)) :
    position < next := by
  have positive : ∀ instruction : Instruction, 0 < instruction.length := by
    intro instruction
    simp only [Instruction.length, Mnemonic.length]
    split <;> omega
  simp only [advance] at advanced
  split at advanced
  · cases advanced
  · cases advanced
  · split at advanced
    · cases advanced
    · split at advanced
      · cases advanced
      · cases advanced; omega
      · split at advanced
        · cases advanced; omega
        · cases advanced
      · rename_i instruction _ _ _
        split at advanced
        · cases advanced
          have := positive instruction
          omega
        · cases advanced

def translateFrom (tokens : Array Token) (position : Nat) (scopes : Scopes) :
    Except TranslationError (List Node) :=
  if h : position < tokens.size then
    match _ : advance tokens position tokens[position] scopes with
    | .error error => .error error
    | .ok (next, scopes) => translateFrom tokens next scopes
  else .ok scopes.nodes
termination_by tokens.size - position
decreasing_by
  have := lt_of_advance ‹_›
  omega

def ofTokens (tokens : Array Token) : Except TranslationError (List Node) :=
  translateFrom tokens 0 {}

inductive SourceTranslationError where
  | reported (report : ErrorReport)
  | foreignSource (typeName : String)
deriving DecidableEq, Repr

def translate (source : Source) : Except SourceTranslationError Bytes :=
  match source.read with
  | .error (.io reason) => .error (.reported { kind := .io, description := reason })
  | .error (.foreign typeName) => .error (.foreignSource typeName)
  | .ok program =>
      match ofTokens (Lexer.tokenize program) with
      | .ok nodes => .ok (text nodes)
      | .error error => .error (.reported error.report)

end WordTape.Brainfuck
