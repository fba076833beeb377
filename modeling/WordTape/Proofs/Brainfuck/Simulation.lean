import WordTape.Proofs.Brainfuck.Brackets
import WordTape.Proofs.Brainfuck.Units
import WordTape.Proofs.Device.Operations
import WordTape.Proofs.Structure.Evaluation

/-!
# Translated statements on the Brainfuck machine

The Brainfuck machine goes through the text of statements as their evaluation goes
through the statements: it comes to the end of the text with the same tape and streams,
or it faults where they do.
-/

set_option autoImplicit false

namespace WordTape

open Brainfuck

/-- The fault of the Brainfuck machine that corresponds to a fault on the tape. -/
def Fault.commandFault? (fault : Fault) : Option CommandFault :=
  match fault.kind with
  | .index => some .offTape
  | .overflow => some .cellRange
  | .io => none

def RunFault.commandFault? : RunFault → Option CommandFault
  | .interrupted _ (.fault cause) => cause.commandFault?
  | .interrupted _ (.codec _) | .notInstruction _ | .noOpenLoop _ => none

def Verdict.observation : Verdict → Observation
  | .completed device =>
      .completed device.tape.cells device.tape.pointer device.output.text device.input.consumed
  | .faulted device fault =>
      .faulted fault.commandFault? device.output.text device.input.consumed

namespace Brainfuck

/-- A device, with input that delivers the given bytes and output that accepts every
write, and a state of the machine hold the same. -/
structure Simulates (data : Array UInt8) {size : Nat} (device : Device) (state : State size) :
    Prop where
  cells : device.tape.cells = state.cells.toArray
  pointer : device.tape.pointer = state.pointer.val
  reply : device.input.reply = (Input.ofBytes data).reply
  unread : state.unread = data.toList.drop device.input.requests
  consumed : state.consumed = device.input.consumed
  accepts : ∀ write, device.output.refusal write = none
  written : state.written = device.output.text

/-- The machine is at a place of the text, in a state that holds what the device holds. -/
def At (data : Array UInt8) {size : Nat} (cursor : Cursor) (device : Device)
    (place : Cursor × State size) : Prop :=
  place.1 = cursor ∧ Simulates data device place.2

/-- A tape operation comes to what the machine comes to, with the same kind of fault. -/
def Corresponds (data : Array UInt8) {size : Nat} (device : Device) (outcome : Outcome Tape) :
    Except CommandFault (State size) → Prop
  | .ok next => ∃ tape, outcome = .done tape ∧ Simulates data { device with tape } next
  | .error fault =>
      ∃ cause, outcome = .stopped device.tape (.fault cause) ∧ cause.commandFault? = some fault

variable {data : Array UInt8} {size : Nat} {device : Device} {state : State size}

namespace Simulates

variable (simulates : Simulates data device state)

include simulates

private theorem size_eq : device.tape.size = size := by
  rw [Tape.size, simulates.cells, Vector.size_toArray]

private theorem onCell : device.tape.OnCell := by
  have below := state.pointer.isLt
  rw [Tape.OnCell, simulates.pointer, simulates.size_eq]
  omega

private theorem current : device.tape.current = .ok state.current := by
  simp [Tape.current, simulates.onCell, simulates.cells, simulates.pointer, State.current]

private theorem put (value : UInt8) :
    Simulates data { device with tape := device.tape.put value } (state.put value) := by
  have cells : (device.tape.put value).cells = (state.put value).cells.toArray := by
    simp [Tape.put, State.put, simulates.cells, simulates.pointer, Array.setIfInBounds]
  exact ⟨cells, simulates.pointer, simulates.reply, simulates.unread, simulates.consumed,
    simulates.accepts, simulates.written⟩

private theorem moveTo {target : Nat} (inside : target < size) :
    Simulates data { device with tape := { device.tape with pointer := target } }
      { state with pointer := ⟨target, inside⟩ } :=
  ⟨simulates.cells, rfl, simulates.reply, simulates.unread, simulates.consumed,
    simulates.accepts, simulates.written⟩

private theorem moveForward (steps : Nat) :
    Corresponds data device (device.tape.moveForward steps) (state.performAll .right steps) := by
  rw [State.performAll_right]
  simp only [Tape.moveForward, simulates.pointer, simulates.size_eq]
  by_cases inside : state.pointer + steps < size
  · have fits : (state.pointer : Int) + steps < size := by omega
    simp only [inside, fits, ↓reduceDIte, ↓reduceIte]
    exact ⟨_, rfl, simulates.moveTo inside⟩
  · have overshoots : ¬(state.pointer : Int) + steps < size := by omega
    simp only [inside, overshoots, ↓reduceDIte, ↓reduceIte]
    exact ⟨_, rfl, rfl⟩

private theorem moveBackward (steps : Nat) :
    Corresponds data device (device.tape.moveBackward steps) (state.performAll .left steps) := by
  rw [State.performAll_left]
  simp only [Tape.moveBackward, simulates.pointer]
  by_cases inside : steps ≤ state.pointer.val
  · have fits : (steps : Int) ≤ state.pointer := by omega
    simp only [inside, fits, ↓reduceIte, ← Int.ofNat_sub inside]
    exact ⟨_, rfl, simulates.moveTo _⟩
  · have overshoots : ¬(steps : Int) ≤ state.pointer := by omega
    simp only [inside, overshoots, ↓reduceIte]
    exact ⟨_, rfl, rfl⟩

private theorem increment (amount : Nat) :
    Corresponds data device (device.tape.increment amount)
      (state.performAll .increment amount) := by
  rw [State.performAll_increment]
  simp only [Tape.increment_natCast, simulates.current]
  split
  · exact ⟨_, rfl, simulates.put _⟩
  · exact ⟨_, rfl, rfl⟩

private theorem decrement (amount : Nat) :
    Corresponds data device (device.tape.decrement amount)
      (state.performAll .decrement amount) := by
  rw [State.performAll_decrement]
  simp only [Tape.decrement_natCast, simulates.current]
  split
  · exact ⟨_, rfl, simulates.put _⟩
  · exact ⟨_, rfl, rfl⟩

private theorem readByte : ∃ last next, device.readByte = .done last ∧
    state.perform .input = .ok next ∧ Simulates data last next := by
  have reply := congrFun simulates.reply device.input.requests
  have later (drop : Nat) : (state.unread).drop drop =
      data.toList.drop (device.input.requests + drop) := by
    rw [simulates.unread, List.drop_drop]
  have first : state.unread[0]? = data[device.input.requests]? := by
    simp [simulates.unread]
  have rest := later 1
  cases unread : state.unread with
  | nil =>
      have ended : device.input.reply device.input.requests = .endOfInput := by
        rw [unread] at first
        simp only [reply, Input.ofBytes, ← first, List.getElem?_nil]
      rw [unread] at rest
      refine ⟨_, state, Device.readByte_endOfInput ended, ?_, ?_⟩
      · simp only [State.perform, unread]
      · exact ⟨simulates.cells, simulates.pointer, simulates.reply, unread.trans rest,
          simulates.consumed, simulates.accepts, simulates.written⟩
  | cons byte unread' =>
      have delivered : device.input.reply device.input.requests = .byte byte := by
        rw [unread] at first
        simp only [reply, Input.ofBytes, ← first, List.getElem?_cons_zero]
      rw [unread] at rest
      have put := simulates.put byte
      refine ⟨_, { state.put byte with unread := unread', consumed := state.consumed + 1 },
        Device.readByte_byte simulates.onCell delivered, ?_, ?_⟩
      · simp only [State.perform, unread]
      · exact ⟨put.cells, put.pointer, simulates.reply, rest,
          congrArg (· + 1) simulates.consumed, simulates.accepts, simulates.written⟩

private theorem writeCell : ∃ last next, device.writeCell = .done last ∧
    state.perform .output = .ok next ∧ Simulates data last next := by
  have emitted := Device.emit_accepted (simulates.accepts device.output.writes) [state.current]
  refine ⟨{ device with output := device.output.accept [state.current] },
    { state with written := state.written ++ [state.current] }, ?_, rfl, ?_⟩
  · simp only [Device.writeCell, simulates.current, emitted]
  · have written : state.written ++ [state.current] =
        (device.output.accept [state.current]).text := by
      rw [Output.text_accept, simulates.written]
    exact ⟨simulates.cells, simulates.pointer, simulates.reply, simulates.unread,
      simulates.consumed, simulates.accepts, written⟩

end Simulates

theorem Simulates.arrives (simulates : Simulates data device state) (cursor : Cursor) :
    At data cursor device (cursor, state) :=
  ⟨rfl, simulates⟩

def shows (device : Device) (fault : RunFault) : Observation :=
  Verdict.observation (.faulted device fault)

section

variable {instruction : Instruction} {node : Node} {token : Token} {passed ahead : Bytes}

theorem Simulates.carries_units (simulates : Simulates data device state)
    {operation : Tape → Outcome Tape} {command : Command} {count : Nat}
    (acts : instruction.act device = device.onTape operation)
    (unit : command.isUnit = true)
    (corresponds : Corresponds data device (operation device.tape)
      (state.performAll command count)) (rounds : Nat) :
    (State.runs size).Carries rounds
      (At data { passed := (List.replicate count command.byte).reverse ++ passed, ahead }) shows
      ({ passed, ahead := List.replicate count command.byte ++ ahead }, state)
      (instruction.evaluate token device) := by
  have ran := State.runs_replicate unit count passed ahead state
  simp only [Instruction.evaluate, acts, Device.onTape]
  cases performed : state.performAll command count with
  | ok next =>
      rw [performed] at ran corresponds
      obtain ⟨tape, done, later⟩ := corresponds
      simp only [done]
      exact ⟨_, ⟨rfl, later⟩, ran⟩
  | error fault =>
      rw [performed] at ran corresponds
      obtain ⟨cause, stopped, same⟩ := corresponds
      simp only [stopped]
      have shown : .faulted (some fault) state.written state.consumed =
          shows device (.interrupted token (.fault cause)) := by
        rw [← same, simulates.written, simulates.consumed]
        rfl
      simp only [shown] at ran
      exact ran

theorem Simulates.carries_command {command : Command} {last : Device} {next : State size}
    (notOpen : command ≠ .openBracket) (notClose : command ≠ .closeBracket)
    (acted : instruction.act device = .done last) (performed : state.perform command = .ok next)
    (later : Simulates data last next) (rounds : Nat) :
    (State.runs size).Carries rounds (At data { passed := command.byte :: passed, ahead }) shows
      ({ passed, ahead := command.byte :: ahead }, state) (instruction.evaluate token device) := by
  have stepped := State.step_command notOpen notClose passed ahead state
  rw [performed] at stepped
  simp only [Instruction.evaluate, acted]
  exact ⟨_, ⟨rfl, later⟩, .of_step (State.runs_step stepped)⟩

private theorem units_neg (positive negative : UInt8) (count : Nat) :
    units positive negative (-(count : Int)) = List.replicate count negative := by
  cases count with
  | zero => rfl
  | succ count => rfl

theorem Simulates.carries_act (simulates : Simulates data device state)
    (translated : nodeOf? instruction = some node) (rounds : Nat) :
    (State.runs size).Carries rounds
      (At data { passed := node.text.reverse ++ passed, ahead }) shows
      ({ passed, ahead := node.text ++ ahead }, state) (instruction.evaluate token device) := by
  cases instruction with
  | moveForward steps =>
      cases translated
      exact simulates.carries_units rfl rfl (simulates.moveForward steps) rounds
  | moveBackward steps =>
      cases translated
      rw [Node.text, units_neg]
      exact simulates.carries_units rfl rfl (simulates.moveBackward steps) rounds
  | increment amount =>
      cases translated
      exact simulates.carries_units rfl rfl (simulates.increment amount) rounds
  | decrement amount =>
      cases translated
      rw [Node.text, units_neg]
      exact simulates.carries_units rfl rfl (simulates.decrement amount) rounds
  | readByte =>
      cases translated
      obtain ⟨last, next, acted, performed, later⟩ := simulates.readByte
      have acts : Instruction.readByte.act device = .done last := acted
      exact later.carries_command (by decide) (by decide) acts performed rounds
  | writeCell =>
      cases translated
      obtain ⟨last, next, acted, performed, later⟩ := simulates.writeCell
      have acts : Instruction.writeCell.act device = .done last := acted
      exact later.carries_command (by decide) (by decide) acts performed rounds
  | loopOpen | loopClose | readLine | writeAs _ | setString _ | setAs _ _ | writeRun
  | clearRun => cases translated

end

/-- A body and its bracketed copy repeat the body as the evaluation of a loop does. The
first copy is the round that is not tested before. -/
theorem Simulates.carries_loop {inside : Bytes} (balanced : Balanced inside)
    {body : Device → Option Verdict} {rounds : Nat}
    (bodyCarries : ∀ {device : Device} {state : State size} {passed ahead : Bytes},
      Simulates data device state →
      (State.runs size).Carries rounds (At data { passed := inside.reverse ++ passed, ahead })
        shows ({ passed, ahead := inside ++ ahead }, state) (body device))
    (simulates : Simulates data device state) (closing : Token) (passed ahead : Bytes) :
    (State.runs size).Carries rounds
      (At data
        { passed := 93 :: (inside.reverse ++ 91 :: (inside.reverse ++ passed)), ahead }) shows
      ({ passed, ahead := inside ++ 91 :: (inside ++ 93 :: ahead) }, state)
      (Verdict.repeated body closing rounds device) := by
  cases rounds with
  | zero => exact State.runs_outlasts_zero (by simp)
  | succ rounds =>
      refine (bodyCarries simulates).andThen ?_
      intro device place arrived
      obtain ⟨cursor, state⟩ := place
      obtain ⟨rfl, simulates⟩ := arrived
      by_cases zero : state.current = 0
      · simp only [Verdict.test, simulates.current, zero, ↓reduceIte]
        have leaves := State.step_openBracket_zero balanced zero (inside.reverse ++ passed) ahead
        exact ⟨_, simulates.arrives _, .of_step (State.runs_step leaves)⟩
      · simp only [Verdict.test, simulates.current, zero, ↓reduceIte]
        have enters := State.step_openBracket_nonzero zero (inside.reverse ++ passed)
          (inside ++ 93 :: ahead)
        refine BoundedRun.Carries.of_step (State.runs_step enters) ?_
        apply BoundedRun.Carries.repeated
          (At data
            { passed := 91 :: (inside.reverse ++ passed), ahead := inside ++ 93 :: ahead })
          (At data
            { passed := inside.reverse ++ 91 :: (inside.reverse ++ passed),
              ahead := 93 :: ahead })
        · intro device place arrived
          obtain ⟨cursor, state⟩ := place
          obtain ⟨rfl, simulates⟩ := arrived
          exact State.runs_outlasts_zero (by simp)
        · intro device place arrived
          obtain ⟨cursor, state⟩ := place
          obtain ⟨rfl, simulates⟩ := arrived
          exact bodyCarries simulates
        · intro device place fault arrived failed
          obtain ⟨cursor, state⟩ := place
          obtain ⟨rfl, simulates⟩ := arrived
          rw [simulates.current] at failed
          cases failed
        · intro device place arrived current
          obtain ⟨cursor, state⟩ := place
          obtain ⟨rfl, simulates⟩ := arrived
          rw [simulates.current] at current
          have leaves := State.step_closeBracket_zero (Except.ok.inj current)
            (inside.reverse ++ 91 :: (inside.reverse ++ passed)) ahead
          exact ⟨_, simulates.arrives _, .of_step (State.runs_step leaves)⟩
        · intro device place value arrived current nonzero
          obtain ⟨cursor, state⟩ := place
          obtain ⟨rfl, simulates⟩ := arrived
          rw [simulates.current] at current
          cases current
          have repeats := State.step_closeBracket_nonzero balanced nonzero
            (inside.reverse ++ passed) ahead
          exact ⟨_, simulates.arrives _, State.runs_step repeats⟩
        · exact Nat.le_succ rounds
        · exact simulates.arrives _

end Brainfuck

variable {data : Array UInt8} {size : Nat}

theorem Translatable.carries {statements : List Statement}
    (translatable : Translatable statements) {device : Device} {state : State size}
    (simulates : Simulates data device state) (rounds : Nat) (passed ahead : Bytes) :
    (State.runs size).Carries rounds
      (At data { passed := (text (Statement.nodesOf statements)).reverse ++ passed, ahead }) shows
      ({ passed, ahead := text (Statement.nodesOf statements) ++ ahead }, state)
      (Statement.evaluateAll rounds statements device) := by
  induction translatable generalizing device state passed ahead with
  | nil => exact ⟨_, ⟨rfl, simulates⟩, .refl⟩
  | plain translated _ ih =>
      rw [text_plain translated, List.append_assoc, List.reverse_append, List.append_assoc]
      refine (simulates.carries_act translated rounds).andThen ?_
      intro device place arrived
      obtain ⟨cursor, state⟩ := place
      obtain ⟨rfl, simulates⟩ := arrived
      exact ih simulates _ _
  | @loop closing body rest translatable _ bodyIH restIH =>
      have repeated := simulates.carries_loop translatable.balanced
        (fun simulates => bodyIH simulates _ _) closing passed
        (text (Statement.nodesOf rest) ++ ahead)
      rw [text_loop]
      simp only [List.append_assoc, List.cons_append, List.reverse_append, List.reverse_cons,
        List.nil_append]
      refine repeated.andThen ?_
      intro device place arrived
      obtain ⟨cursor, state⟩ := place
      obtain ⟨rfl, simulates⟩ := arrived
      exact restIH simulates _ _

end WordTape
