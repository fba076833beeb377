import WordTape.Machine

/-!
# Dialogues with the streams

What an instruction asks of the streams depends on the tape and on the answers that it has
got, and on nothing else. Its dialogue tells the next request, the tape at that moment, and
how it goes on with each answer. To act is to hold the dialogue until a request is refused.
-/

set_option autoImplicit false

namespace WordTape

inductive Request where
  | read
  | write (chunk : Bytes)

namespace Device

/-- Why the streams of a device refuse a request, if they do. -/
def refusal? : Request → Device → Option Bytes
  | .read, device =>
      match device.input.reply device.input.requests with
      | .failure reason => some reason
      | .byte _ | .endOfInput => none
  | .write _, device => device.output.refusal device.output.writes

/-- The byte that a request is answered with, if any. -/
def answer? : Request → Device → Option UInt8
  | .read, device =>
      match device.input.reply device.input.requests with
      | .byte value => some value
      | .endOfInput | .failure _ => none
  | .write _, _ => none

/-- The device after a request, which the streams count also if they refuse it. -/
def ask : Request → Device → Device
  | .read, device => { device with input := device.input.read.2 }
  | .write chunk, device => { device with output := (device.output.write chunk).2 }

theorem refusal?_read_eq_some {device : Device} {reason : Bytes} :
    device.refusal? .read = some reason ↔
      device.input.reply device.input.requests = .failure reason := by
  simp only [refusal?]
  cases device.input.reply device.input.requests <;> simp

@[simp] theorem refusal?_withTape (request : Request) (tape : Tape) (device : Device) :
    refusal? request { device with tape } = device.refusal? request := by
  cases request <;> rfl

end Device

/-- What is left to do on a tape: nothing, or to make a request and to go on with the byte
that answers it, if any. -/
inductive Dialogue where
  | finish (outcome : Outcome Tape)
  | ask (tape : Tape) (request : Request) (next : Option UInt8 → Dialogue)

namespace Dialogue

/-- Holds a dialogue on a device, up to its end or to the first request that is refused. -/
def hold : Dialogue → Device → Outcome Device
  | finish outcome, device => device.onTape fun _ => outcome
  | ask tape request next, device =>
      match device.refusal? request with
      | some reason => .stopped ({ device with tape }.ask request) (.fault (.stream reason))
      | none => (next (device.answer? request)).hold ({ device with tape }.ask request)

/-- In a dialogue on a device a request is made, with the device in a certain state. -/
inductive Makes : Dialogue → Device → Request → Device → Prop where
  | here {tape : Tape} {request : Request} {next : Option UInt8 → Dialogue} {device : Device} :
      Makes (ask tape request next) device request { device with tape }
  | later {tape : Tape} {first request : Request} {next : Option UInt8 → Dialogue}
      {device moment : Device} :
      device.refusal? first = none →
      Makes (next (device.answer? first)) ({ device with tape }.ask first) request moment →
      Makes (ask tape first next) device request moment

/-! ## The dialogues of the instructions -/

def readByte (tape : Tape) : Dialogue :=
  ask tape .read fun
    | none => finish (.done tape)
    | some byte => finish (tape.store byte)

def readLine (tape : Tape) : Dialogue :=
  ask tape .read fun
    | none => finish (.done tape)
    | some byte =>
        if byte = Bytes.lineFeed then finish (.done tape)
        else
          match _ : tape.storeNext byte with
          | .stopped last cause => finish (.stopped last cause)
          | .done next => readLine next
termination_by tape.remaining
decreasing_by exact Tape.remaining_lt_of_storeNext ‹_›

def writeCell (tape : Tape) : Dialogue :=
  match tape.current with
  | .error fault => finish (.stopped tape (.fault fault))
  | .ok value => ask tape (.write [value]) fun _ => finish (.done tape)

def writeAs (type : NumericType) (tape : Tape) : Dialogue :=
  match tape.numberText type with
  | .error cause => finish (.stopped tape cause)
  | .ok text => ask tape (.write text) fun _ => finish (.done tape)

theorem remaining_lt_of_stepForward {tape next : Tape} (stepped : tape.stepForward = .done next) :
    next.remaining < tape.remaining := by
  unfold Tape.stepForward at stepped
  split at stepped
  · rename_i before
    cases stepped
    simp only [Tape.remaining, Tape.size] at *
    omega
  · cases stepped

def writeRun (tape : Tape) : Dialogue :=
  match tape.current with
  | .error fault => finish (.stopped tape (.fault fault))
  | .ok value =>
      if value = 0 then finish (.done tape)
      else
        ask tape (.write [value]) fun _ =>
          match _ : tape.stepForward with
          | .stopped last cause => finish (.stopped last cause)
          | .done next => writeRun next
termination_by tape.remaining
decreasing_by exact remaining_lt_of_stepForward ‹_›

/-- What is done with a byte of a line that is not its end. -/
def afterStore (byte : UInt8) (tape : Tape) : Dialogue :=
  match tape.storeNext byte with
  | .stopped last cause => finish (.stopped last cause)
  | .done next => readLine next

private theorem readLine_eq (tape : Tape) :
    readLine tape =
      ask tape .read fun
        | none => finish (.done tape)
        | some byte =>
            if byte = Bytes.lineFeed then finish (.done tape) else afterStore byte tape := by
  rw [readLine]
  congr 1
  funext answer
  cases answer with
  | none => rfl
  | some byte =>
      simp only [afterStore]
      split
      · rfl
      · split <;> simp only [*]

/-- What is done after a cell was written that does not end the run. -/
def afterWrite (tape : Tape) : Dialogue :=
  match tape.stepForward with
  | .stopped last cause => finish (.stopped last cause)
  | .done next => writeRun next

private theorem writeRun_eq (tape : Tape) :
    writeRun tape =
      match tape.current with
      | .error fault => finish (.stopped tape (.fault fault))
      | .ok value =>
          if value = 0 then finish (.done tape)
          else ask tape (.write [value]) fun _ => afterWrite tape := by
  rw [writeRun]
  cases tape.current with
  | error fault => rfl
  | ok value =>
      simp only [afterWrite]
      split
      · rfl
      · congr 1
        funext answer
        split <;> simp only [*]

end Dialogue

/-- The dialogue of an instruction that finds a tape. -/
def Instruction.dialogue : Instruction → Tape → Dialogue
  | moveForward steps, tape => .finish (tape.moveForward steps)
  | moveBackward steps, tape => .finish (tape.moveBackward steps)
  | increment amount, tape => .finish (tape.increment amount)
  | decrement amount, tape => .finish (tape.decrement amount)
  | loopOpen, tape => .finish (.done tape)
  | loopClose, tape => .finish (.done tape)
  | readByte, tape => .readByte tape
  | readLine, tape => .readLine tape
  | writeCell, tape => .writeCell tape
  | writeAs type, tape => .writeAs type tape
  | setString text, tape => .finish (tape.setString text)
  | setAs type value, tape => .finish (tape.setAs type value)
  | writeRun, tape => .writeRun tape
  | clearRun, tape => .finish tape.clearRun

namespace Device

/-- What a dialogue comes to does not depend on the tape of the device. -/
theorem hold_withTape (dialogue : Dialogue) (tape : Tape) (device : Device) :
    dialogue.hold { device with tape } = dialogue.hold device := by
  cases dialogue with
  | finish outcome => rfl
  | ask moment request next => cases request <;> rfl

private theorem hold_write (chunk : Bytes) (next : Option UInt8 → Dialogue) (device : Device) :
    (Dialogue.ask device.tape (.write chunk) next).hold device =
      (device.emit chunk).andThen (next none).hold := by
  obtain ⟨tape, input, output⟩ := device
  simp only [emit, Dialogue.hold, refusal?, ask, Output.write]
  cases output.refusal output.writes with
  | none => rfl
  | some reason => rfl

private theorem emit_eq_hold (chunk : Bytes) (device : Device) :
    device.emit chunk =
      (Dialogue.ask device.tape (.write chunk) fun _ => .finish (.done device.tape)).hold
        device := by
  have unchanged := tape_state_emit chunk device
  rw [hold_write]
  cases emitted : device.emit chunk with
  | stopped last cause => rfl
  | done written =>
      rw [emitted] at unchanged
      exact congrArg Outcome.done (congrArg (Device.mk · written.input written.output) unchanged)

private theorem readByte_eq_hold (device : Device) :
    device.readByte = (Dialogue.readByte device.tape).hold device := by
  obtain ⟨tape, input, output⟩ := device
  simp only [readByte, Dialogue.readByte, Dialogue.hold, refusal?, answer?, ask, Input.read]
  cases input.reply input.requests with
  | failure reason => rfl
  | endOfInput => rfl
  | byte value => rfl

private theorem writeCell_eq_hold (device : Device) :
    device.writeCell = (Dialogue.writeCell device.tape).hold device := by
  simp only [writeCell, Dialogue.writeCell]
  cases device.tape.current with
  | error fault => rfl
  | ok value => exact emit_eq_hold [value] device

private theorem writeAs_eq_hold (type : NumericType) (device : Device) :
    device.writeAs type = (Dialogue.writeAs type device.tape).hold device := by
  simp only [writeAs, Dialogue.writeAs]
  cases device.tape.numberText type with
  | error cause => rfl
  | ok text => exact emit_eq_hold text device

private theorem hold_readLine_byte {device : Device} {input : Input} {byte : UInt8}
    (answered : device.input.read = (.byte byte, input)) (notLineFeed : byte ≠ Bytes.lineFeed) :
    (Dialogue.readLine device.tape).hold device =
      (Dialogue.afterStore byte device.tape).hold { device with input } := by
  have reply : device.input.reply device.input.requests = .byte byte :=
    congrArg Prod.fst answered
  have rest : device.input.read.2 = input := congrArg Prod.snd answered
  rw [Dialogue.readLine_eq]
  simp only [Dialogue.hold, refusal?, answer?, reply, ask, rest, notLineFeed, ↓reduceIte]

private theorem readLine_eq_hold (device : Device) :
    device.readLine = (Dialogue.readLine device.tape).hold device := by
  fun_induction readLine device with
  | case1 tape input output reason later answered =>
      have reply : input.reply input.requests = .failure reason := congrArg Prod.fst answered
      have rest : input.read.2 = later := congrArg Prod.snd answered
      rw [Dialogue.readLine_eq]
      simp only [Dialogue.hold, refusal?, reply, ask, rest]
  | case2 tape input output later answered =>
      have reply : input.reply input.requests = .endOfInput := congrArg Prod.fst answered
      have rest : input.read.2 = later := congrArg Prod.snd answered
      rw [Dialogue.readLine_eq]
      simp only [Dialogue.hold, refusal?, answer?, reply, ask, rest, onTape]
  | case3 tape input output later answered =>
      have reply : input.reply input.requests = .byte Bytes.lineFeed :=
        congrArg Prod.fst answered
      have rest : input.read.2 = later := congrArg Prod.snd answered
      rw [Dialogue.readLine_eq]
      simp only [Dialogue.hold, refusal?, answer?, reply, ask, rest, onTape, ↓reduceIte]
  | case4 tape input output byte later answered notLineFeed last cause stored =>
      rw [hold_readLine_byte answered notLineFeed, Dialogue.afterStore]
      simp only [stored, Dialogue.hold, onTape]
  | case5 tape input output byte later answered notLineFeed next stored ih =>
      rw [hold_readLine_byte answered notLineFeed, Dialogue.afterStore]
      simp only [stored]
      exact ih.trans (hold_withTape (.readLine next) next { tape, input := later, output })

private theorem hold_writeRun_nonzero {device : Device} {value : UInt8}
    (current : device.tape.current = .ok value) (nonzero : value ≠ 0) :
    (Dialogue.writeRun device.tape).hold device =
      (device.emit [value]).andThen (Dialogue.afterWrite device.tape).hold := by
  rw [Dialogue.writeRun_eq, current]
  simp only [nonzero, ↓reduceIte]
  exact hold_write [value] _ device

private theorem hold_afterWrite (written : Device) :
    (Dialogue.afterWrite written.tape).hold written =
      (written.onTape Tape.stepForward).andThen fun next =>
        (Dialogue.writeRun next.tape).hold next := by
  simp only [Dialogue.afterWrite, onTape]
  cases written.tape.stepForward with
  | stopped last cause => rfl
  | done next => exact (hold_withTape (.writeRun next) next written).symm

private theorem writeRun_eq_hold (device : Device) :
    device.writeRun = (Dialogue.writeRun device.tape).hold device := by
  fun_induction writeRun device with
  | case1 device fault current =>
      rw [Dialogue.writeRun_eq, current]
      rfl
  | case2 device current =>
      rw [Dialogue.writeRun_eq, current]
      rfl
  | case3 device value current nonzero last cause emitted =>
      rw [hold_writeRun_nonzero current nonzero, emitted]
      rfl
  | case4 device value current nonzero written emitted last cause stopped =>
      have unchanged := tape_state_emit [value] device
      rw [emitted] at unchanged
      rw [hold_writeRun_nonzero current nonzero, emitted, Outcome.andThen, ← unchanged]
      have held := hold_afterWrite written
      rw [stopped] at held
      exact held.symm
  | case5 device value current nonzero written emitted next moved ih =>
      have unchanged := tape_state_emit [value] device
      rw [emitted] at unchanged
      rw [hold_writeRun_nonzero current nonzero, emitted, Outcome.andThen, ← unchanged]
      have held := hold_afterWrite written
      rw [moved] at held
      exact ih.trans held.symm

end Device

/-- An instruction acts as its dialogue is held. -/
theorem Instruction.act_eq_hold (instruction : Instruction) (device : Device) :
    instruction.act device = (instruction.dialogue device.tape).hold device := by
  cases instruction with
  | moveForward _ | moveBackward _ | increment _ | decrement _ | setString _ | setAs _ _
  | clearRun => rfl
  | loopOpen | loopClose => rfl
  | readByte => exact device.readByte_eq_hold
  | readLine => exact device.readLine_eq_hold
  | writeCell => exact device.writeCell_eq_hold
  | writeAs type => exact device.writeAs_eq_hold type
  | writeRun => exact device.writeRun_eq_hold

end WordTape
