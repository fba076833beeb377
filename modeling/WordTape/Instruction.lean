import WordTape.Numeric.Codec
import WordTape.Token

/-!
# Instructions

An instruction is read from a token and, for some mnemonics, the token after it.
Reading looks at no state of a machine, so that a malformed instruction is known
before it runs.
-/

set_option autoImplicit false

namespace WordTape

inductive Instruction where
  | moveForward (steps : Nat)
  | moveBackward (steps : Nat)
  | increment (amount : Nat)
  | decrement (amount : Nat)
  /-- Opens a loop, whose body runs at least once. -/
  | loopOpen
  /-- Repeats the innermost open loop while the current cell is not zero. -/
  | loopClose
  | readByte
  | readLine
  | writeCell
  | writeAs (type : NumericType)
  | setString (text : Bytes)
  | setAs (type : NumericType) (value : type.Value)
  | writeRun
  | clearRun

inductive OperandError where
  | missingNumber (instruction : Token)
  | missingWord (instruction : Token)
  | notNumber (operand : Token)
  | invalidNumber (type : NumericType) (operand : Token) (reason : LiteralError)
deriving DecidableEq, Repr

namespace OperandError

def token : OperandError → Token
  | missingNumber instruction => instruction
  | missingWord instruction => instruction
  | notNumber operand => operand
  | invalidNumber _ operand _ => operand

def description : OperandError → Bytes
  | missingNumber instruction =>
      Bytes.ofString "Expected 'num' after " ++ Bytes.inQuotes instruction.value ++
        Bytes.ofString ". Found nothing instead."
  | missingWord _ => Bytes.ofString "Expected a value after 'set'. Found nothing."
  | notNumber operand =>
      Bytes.ofString "Expected 'num'. Found " ++ Bytes.inQuotes operand.value ++
        Bytes.ofString "."
  | invalidNumber type operand reason =>
      Bytes.ofString "Invalid " ++ Bytes.ofString type.name ++ Bytes.ofString " operand " ++
        Bytes.inQuotes operand.value ++ Bytes.ofString ": " ++ reason.message

end OperandError

inductive InstructionError where
  | unknownWord (token : Token)
  /-- The token is a numeric literal that no instruction precedes. -/
  | strayNumber (token : Token)
  | malformedOperand (error : OperandError)
deriving DecidableEq, Repr

namespace InstructionError

def token : InstructionError → Token
  | unknownWord token => token
  | strayNumber token => token
  | malformedOperand error => error.token

def description : InstructionError → Bytes
  | unknownWord token =>
      Bytes.ofString "Found unknown token " ++ Bytes.inQuotes token.value ++
        Bytes.ofString "."
  | strayNumber token =>
      Bytes.ofString "Found numeric literal " ++ Bytes.inQuotes token.value ++
        Bytes.ofString " without an instruction."
  | malformedOperand error => error.description

end InstructionError

def Mnemonic.length (mnemonic : Mnemonic) : Nat :=
  match mnemonic.operand with
  | .none => 1
  | .number _ | .word => 2

namespace Instruction

def mnemonic : Instruction → Mnemonic
  | moveForward _ => .moveForward
  | moveBackward _ => .moveBackward
  | increment _ => .increment
  | decrement _ => .decrement
  | loopOpen => .loopOpen
  | loopClose => .loopClose
  | readByte => .readByte
  | readLine => .readLine
  | writeCell => .writeCell
  | writeAs type => .writeAs type
  | setString _ => .setString
  | setAs type _ => .setAs type
  | writeRun => .writeRun
  | clearRun => .clearRun

def length (instruction : Instruction) : Nat :=
  instruction.mnemonic.length

def numberOperand (tokens : Array Token) (position : Nat) (instruction : Token)
    (type : NumericType) : Except OperandError type.Value :=
  match tokens[position + 1]? with
  | none => .error (.missingNumber instruction)
  | some operand =>
      if operand.kind = .number then
        match type.parse operand.value with
        | .ok value => .ok value
        | .error reason => .error (.invalidNumber type operand reason)
      else .error (.notNumber operand)

def wordOperand (tokens : Array Token) (position : Nat) (instruction : Token) :
    Except OperandError Bytes :=
  match tokens[position + 1]? with
  | none => .error (.missingWord instruction)
  | some operand => .ok operand.value

def ofMnemonic (tokens : Array Token) (position : Nat) (token : Token) :
    Mnemonic → Except OperandError Instruction
  | .moveForward =>
      (numberOperand tokens position token (.integer .u64)).map
        fun (steps : Int) => moveForward steps.toNat
  | .moveBackward =>
      (numberOperand tokens position token (.integer .u64)).map
        fun (steps : Int) => moveBackward steps.toNat
  | .increment =>
      (numberOperand tokens position token (.integer .u8)).map
        fun (amount : Int) => increment amount.toNat
  | .decrement =>
      (numberOperand tokens position token (.integer .u8)).map
        fun (amount : Int) => decrement amount.toNat
  | .loopOpen => .ok loopOpen
  | .loopClose => .ok loopClose
  | .readByte => .ok readByte
  | .readLine => .ok readLine
  | .writeCell => .ok writeCell
  | .writeAs type => .ok (writeAs type)
  | .setString => (wordOperand tokens position token).map setString
  | .setAs type => (numberOperand tokens position token type).map (setAs type)
  | .writeRun => .ok writeRun
  | .clearRun => .ok clearRun

def fetch (tokens : Array Token) (position : Nat) (token : Token) :
    Except InstructionError Instruction :=
  match token.kind with
  | .unknown => .error (.unknownWord token)
  | .number => .error (.strayNumber token)
  | .instruction mnemonic =>
      match ofMnemonic tokens position token mnemonic with
      | .ok instruction => .ok instruction
      | .error error => .error (.malformedOperand error)

end Instruction

end WordTape
