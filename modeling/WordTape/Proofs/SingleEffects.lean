import WordTape.Proofs.Structure.Reading
import WordTape.Proofs.Tape.Bounds
import WordTape.Proofs.Transition

/-!
# Instructions of a single effect

Most instructions take effect as a whole or not at all: what stops them is found before a
cell is changed, the pointer moves or a byte is written. Only a byte that was read for a
cell that is not there is lost.
-/

set_option autoImplicit false

namespace WordTape

/-- The instruction takes effect at once, and does not store, write or clear cell by cell. -/
def Mnemonic.hasSingleEffect : Mnemonic → Bool
  | moveForward | moveBackward | increment | decrement | loopOpen | loopClose | readByte
  | writeCell | writeAs _ | setAs _ => true
  | readLine | setString | writeRun | clearRun => false

namespace Outcome

variable {State : Type} {property : State → Prop}

/-- Whatever stops the operation leaves a state of which the property holds. -/
def StopsIn (property : State → Prop) (outcome : Outcome State) : Prop :=
  ∀ last cause, outcome = .stopped last cause → property last

theorem StopsIn.done (state : State) : StopsIn property (.done state) := by
  intro last cause result
  cases result

theorem StopsIn.stopped {state : State} (holds : property state) (cause : Interruption) :
    StopsIn property (.stopped state cause) := by
  intro last other result
  cases result
  exact holds

end Outcome

open Outcome

/-! ## Operations on the tape -/

namespace Tape

private theorem Adjusts.stopsIn {tape : Tape} {outcome : Outcome Tape}
    (adjusts : tape.Adjusts outcome) :
    outcome.StopsIn (Eq tape) := by
  cases adjusts with
  | done byte _ => exact .done _
  | stopped cause => exact .stopped rfl cause

private theorem moveForward_stopsIn (steps : Int) (tape : Tape) :
    (tape.moveForward steps).StopsIn (Eq tape) := by
  unfold moveForward
  split
  · exact .done _
  · exact .stopped rfl _

private theorem moveBackward_stopsIn (steps : Int) (tape : Tape) :
    (tape.moveBackward steps).StopsIn (Eq tape) := by
  unfold moveBackward
  split
  · exact .done _
  · exact .stopped rfl _

/-- The cells of a number are looked for before the first of them is stored. -/
private theorem setAs_stopsIn {type : NumericType} {value : type.Value} (holds : type.Holds value)
    (tape : Tape) : (tape.setAs type value).StopsIn (Eq tape) := by
  cases placed : tape.misplaced? type.width with
  | some fault =>
      simp only [setAs, placed]
      exact .stopped rfl _
  | none =>
      obtain ⟨last, laid⟩ := exists_setAs_of_placed holds placed
      rw [laid]
      exact .done _

end Tape

/-! ## Operations on the streams -/

namespace Device

/-- Of what an instruction acts on, the tape and what was written are as before. Only reading
a byte has consumed input, and one byte at most. -/
structure Spared (mnemonic : Mnemonic) (device last : Device) : Prop where
  tape : last.tape = device.tape
  chunks : last.output.chunks = device.output.chunks
  input : mnemonic ≠ .readByte → last.input = device.input
  consumed : mnemonic = .readByte →
    last.input.consumed = device.input.consumed ∨
      last.input.consumed = device.input.consumed + 1

variable {mnemonic : Mnemonic}

theorem Spared.refl (mnemonic : Mnemonic) (device : Device) : Spared mnemonic device device where
  tape := rfl
  chunks := rfl
  input := fun _ => rfl
  consumed := fun _ => .inl rfl

private theorem onTape_stopsIn {operation : Tape → Outcome Tape} {device : Device}
    (stops : (operation device.tape).StopsIn (Eq device.tape)) :
    (device.onTape operation).StopsIn (device.Spared mnemonic) := by
  obtain ⟨tape, input, output⟩ := device
  simp only [onTape]
  cases ran : operation tape with
  | done later => exact .done _
  | stopped last cause =>
      cases stops last cause ran
      exact .stopped (.refl mnemonic _) _

private theorem emit_stopsIn (chunk : Bytes) (device : Device) :
    (device.emit chunk).StopsIn (device.Spared mnemonic) := by
  obtain ⟨tape, input, output⟩ := device
  simp only [emit, Output.write]
  cases output.refusal output.writes with
  | none => exact .done _
  | some reason => exact .stopped ⟨rfl, rfl, fun _ => rfl, fun _ => .inl rfl⟩ _

private theorem writeCell_stopsIn (device : Device) :
    device.writeCell.StopsIn (device.Spared mnemonic) := by
  unfold writeCell
  split
  · exact .stopped (.refl mnemonic device) _
  · exact emit_stopsIn _ device

private theorem writeAs_stopsIn (type : NumericType) (device : Device) :
    (device.writeAs type).StopsIn (device.Spared mnemonic) := by
  unfold writeAs
  split
  · exact .stopped (.refl mnemonic device) _
  · exact emit_stopsIn _ device

private theorem readByte_stopsIn (device : Device) :
    device.readByte.StopsIn (device.Spared .readByte) := by
  obtain ⟨tape, input, output⟩ := device
  simp only [readByte, Input.read]
  cases input.reply input.requests with
  | failure reason => exact .stopped ⟨rfl, rfl, fun other => absurd rfl other, fun _ => .inl rfl⟩ _
  | endOfInput => exact .done _
  | byte value =>
      simp only [onTape]
      cases stored : tape.store value with
      | done later => exact .done _
      | stopped last cause =>
          cases (Tape.store_adjusts value tape).stopsIn last cause stored
          exact .stopped ⟨rfl, rfl, fun other => absurd rfl other, fun _ => .inr rfl⟩ _

end Device

/-! ## Instructions -/

theorem Instruction.act_stopsIn {instruction : Instruction} (encodable : instruction.Encodable)
    (single : instruction.mnemonic.hasSingleEffect = true) (device : Device) :
    (instruction.act device).StopsIn (device.Spared instruction.mnemonic) := by
  cases instruction with
  | moveForward steps => exact Device.onTape_stopsIn (Tape.moveForward_stopsIn _ _)
  | moveBackward steps => exact Device.onTape_stopsIn (Tape.moveBackward_stopsIn _ _)
  | increment amount => exact Device.onTape_stopsIn (Tape.increment_adjusts _ _).stopsIn
  | decrement amount => exact Device.onTape_stopsIn (Tape.decrement_adjusts _ _).stopsIn
  | loopOpen | loopClose => exact .done device
  | readByte => exact device.readByte_stopsIn
  | writeCell => exact device.writeCell_stopsIn
  | writeAs type => exact device.writeAs_stopsIn type
  | setAs type value => exact Device.onTape_stopsIn (Tape.setAs_stopsIn encodable _)
  | readLine | setString | writeRun | clearRun => cases single

open Machine

/-- A dispatch of an instruction of a single effect that faults, for whatever reason, leaves the
cells, the pointer, the open loops and what was written as they were. It has consumed nothing,
but for one byte at most if it was to read a byte. -/
theorem single_effects_are_atomic {tokens : Array Token} {position : Nat} {token : Token}
    {mnemonic : Mnemonic} {machine last : Machine} {fault : RunFault}
    (found : tokens[position]? = some token) (kind : token.kind = .instruction mnemonic)
    (single : mnemonic.hasSingleEffect = true)
    (faulted : machine.dispatch tokens position token = .faulted last fault) :
    machine.device.Spared mnemonic last.device ∧ last.loops = machine.loops := by
  have described := describes_dispatch found machine
  rw [faulted] at described
  cases described with
  | notInstruction | noOpenLoop | test => exact ⟨.refl mnemonic machine.device, rfl⟩
  | act stands notOpen notClose acted =>
      cases found.symm.trans stands.found
      cases stands.eq_mnemonic kind
      exact ⟨Instruction.act_stopsIn stands.encodable single machine.device _ _ acted, rfl⟩

/-- A number of two cells is not begun on the last cell of the tape. -/
theorem half_number_is_not_stored :
    let tokens := Lexer.tokenize (Bytes.ofString "lop setu16 258")
    let machine : Machine :=
      { device := { tape := { cells := #[7, 8, 9], pointer := 2 }
                    input := .ofBytes #[], output := {} }
        loops := [0] }
    ∃ token last, tokens[1]? = some token ∧
      machine.dispatch tokens 1 token =
        .faulted last (.interrupted token (.fault (.noRoom 2 2 3))) ∧
      last.device.tape = { cells := #[7, 8, 9], pointer := 2 } ∧ last.loops = [0] := by
  intro tokens machine
  let token : Token :=
    { value := Bytes.ofString "setu16", position := ⟨1, 5⟩
      kind := .instruction (.setAs (.integer .u16)) }
  have found : tokens[1]? = some token := by decide +kernel
  have operand : tokens[2]? = some
      { value := Bytes.ofString "258", position := ⟨1, 12⟩, kind := .number } := by
    decide +kernel
  have parsed : IntegerType.u16.parse (Bytes.ofString "258") = .ok 258 := by decide +kernel
  have stands : Stands tokens 1 token (.setAs (.integer .u16) (258 : Int)) := by
    refine ⟨found, ?_⟩
    simp only [token, Instruction.fetch, Instruction.ofMnemonic, Instruction.numberOperand,
      operand, NumericType.parse, parsed, ↓reduceIte]
    rfl
  have faulted : machine.dispatch tokens 1 token = _ :=
    (dispatch_eq_perform stands machine).trans rfl
  obtain ⟨spared, loops⟩ := single_effects_are_atomic found rfl rfl faulted
  exact ⟨_, _, found, faulted, spared.tape, loops⟩

end WordTape
