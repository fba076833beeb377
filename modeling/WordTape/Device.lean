import WordTape.Stream
import WordTape.Tape.Basic

/-!
# The tape with its streams

A device is a tape together with the streams that it reads from and writes to.
Its operations move bytes between them.
-/

set_option autoImplicit false

namespace WordTape

structure Device where
  tape : Tape
  input : Input
  output : Output

namespace Device

@[inline] def onTape (operation : Tape → Outcome Tape) : Device → Outcome Device
  | { tape, input, output } =>
      match operation tape with
      | .done tape => .done { tape, input, output }
      | .stopped tape cause => .stopped { tape, input, output } cause

def emit (chunk : Bytes) : Device → Outcome Device
  | { tape, input, output } =>
      match output.write chunk with
      | (none, output) => .done { tape, input, output }
      | (some reason, output) =>
          .stopped { tape, input, output } (.fault (.stream reason))

def flush : Device → Outcome Device
  | { tape, input, output } =>
      match output.flush with
      | (none, output) => .done { tape, input, output }
      | (some reason, output) =>
          .stopped { tape, input, output } (.fault (.stream reason))

def writeCell (device : Device) : Outcome Device :=
  match device.tape.current with
  | .error fault => .stopped device (.fault fault)
  | .ok value => device.emit [value]

/-- Writes the text of the number of a type at the pointer, which does not move. -/
def writeAs (type : NumericType) (device : Device) : Outcome Device :=
  match device.tape.numberText type with
  | .error cause => .stopped device cause
  | .ok text => device.emit text

theorem tape_state_emit (chunk : Bytes) (device : Device) :
    (device.emit chunk).state.tape = device.tape := by
  simp only [emit]
  split <;> rfl

theorem remaining_lt_of_step {device next : Device}
    (stepped : device.onTape Tape.stepForward = .done next) :
    next.tape.remaining < device.tape.remaining := by
  simp only [onTape, Tape.stepForward] at stepped
  by_cases before : device.tape.pointer < device.tape.size
  · simp only [before, ↓reduceIte] at stepped
    cases stepped
    simp only [Tape.remaining, Tape.size] at *
    omega
  · simp only [before, ↓reduceIte] at stepped
    cases stepped

/-- Writes the cells from the pointer on, byte by byte, up to the next zero cell, on
which the pointer comes to rest. -/
def writeRun (device : Device) : Outcome Device :=
  match device.tape.current with
  | .error fault => .stopped device (.fault fault)
  | .ok value =>
      if value = 0 then .done device
      else
        match _ : device.emit [value] with
        | .stopped device cause => .stopped device cause
        | .done written =>
            match _ : written.onTape Tape.stepForward with
            | .stopped device cause => .stopped device cause
            | .done next => writeRun next
termination_by device.tape.remaining
decreasing_by
  rename_i emitted stepped
  have unchanged := tape_state_emit [value] device
  rw [emitted] at unchanged
  exact unchanged ▸ remaining_lt_of_step stepped

/-- Reads a byte into the current cell. At the end of the input nothing changes. -/
def readByte : Device → Outcome Device
  | { tape, input, output } =>
      match input.read with
      | (.failure reason, input) =>
          .stopped { tape, input, output } (.fault (.stream reason))
      | (.endOfInput, input) => .done { tape, input, output }
      | (.byte byte, input) => Device.onTape (Tape.store byte) { tape, input, output }

/-- Reads a line into successive cells, leaving the pointer behind its last byte. The
line feed is read and not stored; the end of the input ends a line, too. -/
def readLine : Device → Outcome Device
  | { tape, input, output } =>
      match input.read with
      | (.failure reason, input) =>
          .stopped { tape, input, output } (.fault (.stream reason))
      | (.endOfInput, input) => .done { tape, input, output }
      | (.byte byte, input) =>
          if byte = Bytes.lineFeed then .done { tape, input, output }
          else
            match _ : tape.storeNext byte with
            | .stopped tape cause => .stopped { tape, input, output } cause
            | .done next => readLine { tape := next, input, output }
termination_by device => device.tape.remaining
decreasing_by exact Tape.remaining_lt_of_storeNext ‹_›

end Device

end WordTape
