import WordTape.Numeric.Codec

/-!
# Faults of tape operations

What can stop an operation on the tape and its streams. Each cause has a kind and
a description.
-/

set_option autoImplicit false

namespace WordTape

inductive FaultKind where
  | index
  | overflow
  | io
deriving DecidableEq, Repr

namespace FaultKind

def label : FaultKind → String
  | index => "Index error"
  | overflow => "Overflow error"
  | io => "IO error"

def message (kind : FaultKind) (description : Bytes) : Bytes :=
  Bytes.ofString "Tape Error [" ++ Bytes.ofString kind.label ++ Bytes.ofString "]: " ++
    description

end FaultKind

inductive Fault where
  | noCellToRead (pointer : Int)
  | noCellToStore (pointer : Int)
  | stepPastEnd
  | moveForward (steps : Int)
  | moveBackward (steps : Int)
  | noRoom (width : Nat) (pointer : Int) (size : Nat)
  | addition (amount : Int)
  | subtraction (amount : Int)
  | stream (reason : Bytes)
deriving DecidableEq, Repr

namespace Fault

def kind : Fault → FaultKind
  | noCellToRead _ | noCellToStore _ | stepPastEnd | moveForward _ | moveBackward _
  | noRoom _ _ _ => .index
  | addition _ | subtraction _ => .overflow
  | stream _ => .io

def description : Fault → Bytes
  | noCellToRead pointer =>
      Bytes.ofString "Getting the current value at pointer index " ++ Decimal.ofInt pointer ++
        Bytes.ofString " is invalid."
  | noCellToStore pointer =>
      Bytes.ofString "Storing a value at pointer index " ++ Decimal.ofInt pointer ++
        Bytes.ofString " is invalid."
  | stepPastEnd =>
      Bytes.ofString
        "Moving the pointer 1 step forward would result in overshooting the tape."
  | moveForward steps =>
      Bytes.ofString "Moving the pointer " ++ Decimal.ofInt steps ++
        Bytes.ofString " step(s) forward would result in overshooting the tape."
  | moveBackward steps =>
      Bytes.ofString "Moving the pointer " ++ Decimal.ofInt steps ++
        Bytes.ofString " step(s) backward would result in overshooting the tape."
  | noRoom width pointer size =>
      Bytes.ofString "Accessing " ++ Decimal.ofNat width ++
        Bytes.ofString " cell(s) from pointer index " ++ Decimal.ofInt pointer ++
        Bytes.ofString " would overshoot the tape (" ++ Decimal.ofNat size ++
        Bytes.ofString " cells)."
  | addition amount =>
      Bytes.ofString "Adding " ++ Decimal.ofInt amount ++
        Bytes.ofString " to the current cell value would result in an overflow."
  | subtraction amount =>
      Bytes.ofString "Subtracting " ++ Decimal.ofInt amount ++
        Bytes.ofString " from the current cell value would result in an overflow."
  | stream reason => reason

def message (fault : Fault) : Bytes :=
  fault.kind.message fault.description

end Fault

/-- What stops an operation before its end: a fault, or a number that does not go
together with the cells it is to be laid out on. -/
inductive Interruption where
  | fault (cause : Fault)
  | codec (cause : CodecError)
deriving DecidableEq, Repr

/-- The state that an operation leaves, and the cause if it was stopped. -/
inductive Outcome (State : Type) where
  | done (state : State)
  | stopped (state : State) (cause : Interruption)

namespace Outcome

variable {State : Type}

def state : Outcome State → State
  | done state => state
  | stopped state _ => state

def cause? : Outcome State → Option Interruption
  | done _ => none
  | stopped _ cause => some cause

/-- Goes on from the state of an operation, unless it was stopped. -/
@[inline] def andThen (outcome : Outcome State) (next : State → Outcome State) :
    Outcome State :=
  match outcome with
  | done state => next state
  | stopped state cause => stopped state cause

end Outcome

end WordTape
