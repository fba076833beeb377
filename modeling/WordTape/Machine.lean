import WordTape.Device
import WordTape.Instruction
import WordTape.Report

/-!
# Execution

A machine walks over the tokens of a program. Opening a loop puts its position on
a stack, and closing one goes back behind the innermost open position while the
current cell is not zero, so that a loop body runs at least once. The first fault
stops a run and leaves the machine in the state that it has reached.
-/

set_option autoImplicit false

namespace WordTape

inductive Event where
  | runStarted (tokens cells : Nat)
  | loopOpened (position depth : Nat)
  | loopClosed (position depth : Nat)
  | runFinished (openLoops : Nat)
  | tapeReset (cells : Nat)
deriving DecidableEq, Repr

def Event.message : Event → Bytes
  | runStarted tokens cells =>
      Bytes.ofString "Running " ++ Decimal.ofNat tokens ++
        Bytes.ofString " token(s) on a tape of " ++ Decimal.ofNat cells ++
        Bytes.ofString " cells"
  | loopOpened position depth =>
      Bytes.ofString "Loop opened at token " ++ Decimal.ofNat position ++
        Bytes.ofString " (depth " ++ Decimal.ofNat depth ++ Bytes.ofString ")"
  | loopClosed position depth =>
      Bytes.ofString "Loop closed at token " ++ Decimal.ofNat position ++
        Bytes.ofString " (depth " ++ Decimal.ofNat depth ++ Bytes.ofString ")"
  | runFinished openLoops =>
      Bytes.ofString "Run finished; " ++ Decimal.ofNat openLoops ++
        Bytes.ofString " loop(s) left open"
  | tapeReset cells =>
      Bytes.ofString "Tape reset (" ++ Decimal.ofNat cells ++ Bytes.ofString " cells)"

structure Machine where
  device : Device
  /-- The positions of the open loops, the innermost first. -/
  loops : List Nat := []
  /-- The position of the instruction that was dispatched last. -/
  index : Nat := 0
  events : Array Event := #[]

inductive RunFault where
  | notInstruction (error : InstructionError)
  | noOpenLoop (token : Token)
  | interrupted (token : Token) (cause : Interruption)
deriving DecidableEq, Repr

inductive Progress where
  | next (position : Nat) (machine : Machine)
  | faulted (machine : Machine) (fault : RunFault)

inductive Run where
  | finished (machine : Machine)
  | faulted (machine : Machine) (fault : RunFault)
  /-- The bound was reached before the instruction at a position. -/
  | suspended (position : Nat) (machine : Machine)

/-- What an instruction does to the tape and the streams. The loop instructions do
nothing to them. -/
def Instruction.act : Instruction → Device → Outcome Device
  | moveForward steps, device => device.onTape (Tape.moveForward steps)
  | moveBackward steps, device => device.onTape (Tape.moveBackward steps)
  | increment amount, device => device.onTape (Tape.increment amount)
  | decrement amount, device => device.onTape (Tape.decrement amount)
  | loopOpen, device => .done device
  | loopClose, device => .done device
  | readByte, device => device.readByte
  | readLine, device => device.readLine
  | writeCell, device => device.writeCell
  | writeAs type, device => device.writeAs type
  | setString text, device => device.onTape (Tape.setString text)
  | setAs type value, device => device.onTape (Tape.setAs type value)
  | writeRun, device => device.writeRun
  | clearRun, device => device.onTape Tape.clearRun

namespace Machine

def openLoop (position : Nat) : Machine → Progress
  | { device, loops, index, events } =>
      .next (position + 1)
        { device, loops := position :: loops, index
          events := events.push (.loopOpened position (loops.length + 1)) }

/-- Closes the innermost open loop if the current cell is zero, and else repeats it. -/
def closeLoop (position : Nat) (token : Token) : Machine → Progress
  | { device, loops, index, events } =>
      match loops with
      | [] => .faulted { device, loops := [], index, events } (.noOpenLoop token)
      | innermost :: outer =>
          match device.tape.current with
          | .error fault =>
              .faulted { device, loops := innermost :: outer, index, events }
                (.interrupted token (.fault fault))
          | .ok value =>
              if value = 0 then
                .next (position + 1)
                  { device, loops := outer, index
                    events := events.push (.loopClosed position outer.length) }
              else
                .next (innermost + 1)
                  { device, loops := innermost :: outer, index, events }

def perform (instruction : Instruction) (position : Nat) (token : Token)
    (machine : Machine) : Progress :=
  match instruction with
  | .loopOpen => machine.openLoop position
  | .loopClose => machine.closeLoop position token
  | _ =>
      match machine with
      | { device, loops, index, events } =>
          match instruction.act device with
          | .done device =>
              .next (position + instruction.length) { device, loops, index, events }
          | .stopped device cause =>
              .faulted { device, loops, index, events } (.interrupted token cause)

def dispatch (tokens : Array Token) (position : Nat) (token : Token) :
    Machine → Progress
  | { device, loops, index := _, events } =>
      match Instruction.fetch tokens position token with
      | .error error =>
          .faulted { device, loops, index := position, events } (.notInstruction error)
      | .ok instruction =>
          perform instruction position token { device, loops, index := position, events }

/-- Runs from a position to the end of the program or the first fault, dispatching at
most as many instructions as the bound says. -/
def execute (tokens : Array Token) : (bound : Nat) → (position : Nat) → Machine → Run
  | 0, position, machine =>
      match tokens[position]? with
      | none => .finished machine
      | some _ => .suspended position machine
  | bound + 1, position, machine =>
      match tokens[position]? with
      | none => .finished machine
      | some token =>
          match machine.dispatch tokens position token with
          | .next position machine => execute tokens bound position machine
          | .faulted machine fault => .faulted machine fault

end Machine

namespace RunFault

def token : RunFault → Token
  | notInstruction error => error.token
  | noOpenLoop token => token
  | interrupted token _ => token

/-- The kind and description of a fault. A number that does not go together with its
cells has none. -/
def cause : RunFault → Except CodecError (ReportKind × Bytes)
  | notInstruction (.unknownWord token) =>
      .ok (.unknownToken, (InstructionError.unknownWord token).description)
  | notInstruction error => .ok (.malformedOperand, error.description)
  | noOpenLoop _ =>
      .ok (.loopStackUnderflow,
        Bytes.ofString "Expected an index on the loop stack. Found nothing.")
  | interrupted _ (.fault fault) => .ok (.ofFault fault.kind, fault.message)
  | interrupted _ (.codec error) => .error error

def report (source : Bytes) (fault : RunFault) : Except CodecError Report :=
  fault.cause.map fun (kind, description) =>
    .make kind description (some source) (some fault.token.position.line)
      (some fault.token.position.column)

end RunFault

end WordTape
