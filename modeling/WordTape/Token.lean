import WordTape.Numeric.Basic

/-!
# Tokens

A program is a sequence of words. Some words are the mnemonics of instructions, a
word that starts like a number is a numeric literal, and any other word is unknown.
-/

set_option autoImplicit false

namespace WordTape

inductive Mnemonic where
  | moveForward | moveBackward
  | increment | decrement
  | loopOpen | loopClose
  | readByte | readLine
  | writeCell | writeAs (type : NumericType)
  | setString | setAs (type : NumericType)
  | writeRun | clearRun
deriving DecidableEq, Repr

namespace Mnemonic

def spelling : Mnemonic → String
  | moveForward => "pfw"
  | moveBackward => "pbw"
  | increment => "inc"
  | decrement => "dec"
  | loopOpen => "lop"
  | loopClose => "pol"
  | readByte => "rdi"
  | readLine => "rda"
  | writeCell => "wrt"
  | writeAs type => "wrt" ++ type.name
  | setString => "set"
  | setAs type => "set" ++ type.name
  | writeRun => "wra"
  | clearRun => "clr"

def all : List Mnemonic :=
  [moveForward, moveBackward, increment, decrement, loopOpen, loopClose, readByte, readLine,
    writeCell] ++ NumericType.all.map writeAs ++
    [setString] ++ NumericType.all.map setAs ++ [writeRun, clearRun]

def table : List (Bytes × Mnemonic) :=
  all.map fun mnemonic => (Bytes.ofString mnemonic.spelling, mnemonic)

def ofWord? (word : Bytes) : Option Mnemonic :=
  table.lookup word

/-- What a mnemonic expects in the next token. -/
inductive Operand where
  | none
  | number (type : NumericType)
  | word
deriving DecidableEq, Repr

/-- The operand of each mnemonic. Distances are unsigned numbers of eight bytes and
amounts unsigned numbers of one byte. -/
def operand : Mnemonic → Operand
  | moveForward | moveBackward => .number (.integer .u64)
  | increment | decrement => .number (.integer .u8)
  | setString => .word
  | setAs type => .number type
  | loopOpen | loopClose | readByte | readLine | writeCell | writeAs _ | writeRun | clearRun =>
      .none

theorem mem_all (mnemonic : Mnemonic) : mnemonic ∈ all := by
  cases mnemonic with
  | writeAs type =>
      exact List.mem_append_left _ (List.mem_append_left _ (List.mem_append_left _
        (List.mem_append_right _ (List.mem_map_of_mem (NumericType.mem_all type)))))
  | setAs type =>
      exact List.mem_append_left _
        (List.mem_append_right _ (List.mem_map_of_mem (NumericType.mem_all type)))
  | _ => decide

end Mnemonic

inductive TokenKind where
  | instruction (mnemonic : Mnemonic)
  /-- A word that starts like a number. -/
  | number
  | unknown
deriving DecidableEq, Repr

/-- A place in a source: line and column, both counted from one, columns in bytes. -/
structure Position where
  line : Nat
  column : Nat
deriving DecidableEq, Repr

namespace Position

def start : Position := { line := 1, column := 1 }

def next (position : Position) (byte : UInt8) : Position :=
  if byte = Bytes.lineFeed then { line := position.line + 1, column := 1 }
  else { position with column := position.column + 1 }

def advance (position : Position) (bytes : Bytes) : Position :=
  bytes.foldl next position

end Position

/-- A word of a source, with the place of its first byte. -/
structure Token where
  value : Bytes
  position : Position
  kind : TokenKind
deriving DecidableEq, Repr

end WordTape
