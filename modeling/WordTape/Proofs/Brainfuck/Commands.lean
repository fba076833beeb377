import WordTape.Bytes
import WordTape.Proofs.BoundedRun

/-!
# The Brainfuck machine

A machine for texts of commands, on a fixed number of cells that hold a byte each. A
bracket jumps to the bracket that matches it, which is found by counting. Moving off
the tape and counting beyond the range of a cell are faults. At the end of the input
a cell that is read into keeps its value.
-/

set_option autoImplicit false

namespace WordTape.Brainfuck

inductive Command where
  | right
  | left
  | increment
  | decrement
  | output
  | input
  | openBracket
  | closeBracket
deriving DecidableEq, Repr

namespace Command

def byte : Command → UInt8
  | right => 62
  | left => 60
  | increment => 43
  | decrement => 45
  | output => 46
  | input => 44
  | openBracket => 91
  | closeBracket => 93

def all : List Command :=
  [right, left, increment, decrement, output, input, openBracket, closeBracket]

/-- The command of a byte. Other bytes are comments. -/
def ofByte? (byte : UInt8) : Option Command :=
  all.find? fun command => command.byte == byte

@[simp] theorem ofByte?_byte (command : Command) : ofByte? command.byte = some command := by
  cases command <;> rfl

end Command

/-- A place in a text. The bytes before it are held in reverse. -/
structure Cursor where
  passed : Bytes
  ahead : Bytes
deriving DecidableEq, Repr

/-- The place behind the next bracket that closes more than was opened on the way,
where `depth` brackets count as open already. -/
def Cursor.closing? : (depth : Nat) → (passed ahead : Bytes) → Option Cursor
  | _, _, [] => none
  | depth, passed, byte :: ahead =>
      match Command.ofByte? byte with
      | some .openBracket => closing? (depth + 1) (byte :: passed) ahead
      | some .closeBracket =>
          match depth with
          | 0 => some { passed := byte :: passed, ahead }
          | depth + 1 => closing? depth (byte :: passed) ahead
      | _ => closing? depth (byte :: passed) ahead

/-- The place behind the last bracket that opens more than was closed on the way back
to it. -/
def Cursor.opening? : (depth : Nat) → (passed ahead : Bytes) → Option Cursor
  | _, [], _ => none
  | depth, byte :: passed, ahead =>
      match Command.ofByte? byte with
      | some .closeBracket => opening? (depth + 1) passed (byte :: ahead)
      | some .openBracket =>
          match depth with
          | 0 => some { passed := byte :: passed, ahead }
          | depth + 1 => opening? depth passed (byte :: ahead)
      | _ => opening? depth passed (byte :: ahead)

inductive CommandFault where
  | offTape
  | cellRange
  | unmatchedBracket
deriving DecidableEq, Repr

structure State (size : Nat) where
  cells : Vector UInt8 size
  pointer : Fin size
  unread : Bytes
  consumed : Nat := 0
  written : Bytes := []

namespace State

variable {size : Nat}

def blank (positive : 0 < size) (input : Bytes) : State size where
  cells := Vector.replicate size 0
  pointer := ⟨0, positive⟩
  unread := input

def current (state : State size) : UInt8 :=
  state.cells[state.pointer]

def put (value : UInt8) (state : State size) : State size :=
  { state with cells := state.cells.set state.pointer value }

theorem pointer_sub_lt (state : State size) (count : Nat) : state.pointer - count < size :=
  Nat.lt_of_le_of_lt (Nat.sub_le _ _) state.pointer.isLt

/-- What a command does, apart from the jumps of brackets. -/
def perform (state : State size) : Command → Except CommandFault (State size)
  | .right =>
      if inside : state.pointer + 1 < size then
        .ok { state with pointer := ⟨state.pointer + 1, inside⟩ }
      else .error .offTape
  | .left =>
      if 1 ≤ state.pointer.val then
        .ok { state with pointer := ⟨state.pointer - 1, state.pointer_sub_lt 1⟩ }
      else .error .offTape
  | .increment =>
      if state.current.toNat + 1 ≤ 255 then
        .ok (state.put (UInt8.ofNat (state.current.toNat + 1)))
      else .error .cellRange
  | .decrement =>
      if 1 ≤ state.current.toNat then
        .ok (state.put (UInt8.ofNat (state.current.toNat - 1)))
      else .error .cellRange
  | .output => .ok { state with written := state.written ++ [state.current] }
  | .input =>
      match state.unread with
      | [] => .ok state
      | byte :: unread =>
          .ok { state.put byte with unread, consumed := state.consumed + 1 }
  | .openBracket | .closeBracket => .ok state

end State

/-- The place where the machine goes on behind a command, if there is one: a bracket
jumps if the cell is zero or if it is not, depending on the bracket. -/
def Cursor.next? (command : Option Command) (cell byte : UInt8) (passed ahead : Bytes) :
    Option Cursor :=
  match command with
  | some .openBracket =>
      if cell = 0 then closing? 0 (byte :: passed) ahead
      else some { passed := byte :: passed, ahead }
  | some .closeBracket =>
      if cell = 0 then some { passed := byte :: passed, ahead }
      else opening? 0 passed (byte :: ahead)
  | _ => some { passed := byte :: passed, ahead }

inductive CommandRun (size : Nat) where
  | halted (state : State size)
  | faulted (state : State size) (fault : CommandFault)
  | suspended (cursor : Cursor) (state : State size)

namespace State

variable {size : Nat}

def step (byte : UInt8) (passed ahead : Bytes) (state : State size) :
    Except CommandFault (Cursor × State size) :=
  match Cursor.next? (Command.ofByte? byte) state.current byte passed ahead with
  | none => .error .unmatchedBracket
  | some cursor =>
      match Command.ofByte? byte with
      | none => .ok (cursor, state)
      | some command => (state.perform command).map fun state => (cursor, state)

/-- Runs from a place to the end of the text or the first fault, for at most as many
bytes as the bound says. -/
def execute : (bound : Nat) → Cursor → State size → CommandRun size
  | _, { passed := _, ahead := [] }, state => .halted state
  | 0, { passed, ahead := byte :: ahead }, state =>
      .suspended { passed, ahead := byte :: ahead } state
  | bound + 1, { passed, ahead := byte :: ahead }, state =>
      match step byte passed ahead state with
      | .ok (cursor, state) => execute bound cursor state
      | .error fault => .faulted state fault

end State

/-- What can be observed when a program has ended: the tape and the streams, or the
fault, if it is one of this machine, and the streams. -/
inductive Observation where
  | completed (cells : Array UInt8) (pointer : Int) (output : Bytes) (consumed : Nat)
  | faulted (fault? : Option CommandFault) (output : Bytes) (consumed : Nat)
deriving DecidableEq, Repr

namespace CommandRun

variable {size : Nat}

def observation? : CommandRun size → Option Observation
  | halted state =>
      some (.completed state.cells.toArray state.pointer.val state.written state.consumed)
  | faulted state fault => some (.faulted (some fault) state.written state.consumed)
  | suspended _ _ => none

end CommandRun

namespace State

variable {size : Nat} {passed ahead : Bytes} {byte : UInt8} {state next : State size}
  {command : Command}

theorem execute_persists (bound more : Nat) (cursor : Cursor) (state : State size)
    (outcome : Observation)
    (ended : (execute bound cursor state).observation? = some outcome) :
    execute (bound + more) cursor state = execute bound cursor state := by
  induction bound generalizing cursor state with
  | zero =>
      obtain ⟨passed, ahead⟩ := cursor
      cases ahead with
      | nil => simp only [execute]
      | cons byte ahead => simp [execute, CommandRun.observation?] at ended
  | succ bound ih =>
      obtain ⟨passed, ahead⟩ := cursor
      cases ahead with
      | nil => simp only [execute]
      | cons byte ahead =>
          rw [Nat.succ_add]
          simp only [execute] at ended ⊢
          cases stepped : step byte passed ahead state with
          | error fault => rfl
          | ok result =>
              rw [stepped] at ended
              exact ih result.1 result.2 ended

def runs (size : Nat) : BoundedRun (Cursor × State size) (CommandRun size) Observation where
  run bound start := execute bound start.1 start.2
  outcome? := CommandRun.observation?
  persists bound more start outcome := execute_persists bound more start.1 start.2 outcome

theorem runs_outlasts_zero (unended : ahead ≠ []) :
    (runs size).Outlasts 0 ({ passed, ahead }, state) := by
  cases ahead with
  | nil => contradiction
  | cons byte ahead => simp only [BoundedRun.Outlasts, runs, execute, CommandRun.observation?]

theorem runs_ends_halted :
    (runs size).Ends ({ passed, ahead := [] }, state)
      (.completed state.cells.toArray state.pointer.val state.written state.consumed) :=
  ⟨0, by simp only [runs, execute, CommandRun.observation?]⟩

theorem runs_step {cursor : Cursor} (stepped : step byte passed ahead state = .ok (cursor, next))
    (bound : Nat) :
    (runs size).run (bound + 1) ({ passed, ahead := byte :: ahead }, state) =
      (runs size).run bound (cursor, next) := by
  simp only [runs, execute, stepped]

theorem runs_ends_faulted {fault : CommandFault}
    (stepped : step byte passed ahead state = .error fault) :
    (runs size).Ends ({ passed, ahead := byte :: ahead }, state)
      (.faulted (some fault) state.written state.consumed) :=
  ⟨1, by simp only [runs, execute, stepped, CommandRun.observation?]⟩

end State

end WordTape.Brainfuck
