import WordTape.Proofs.Device.Extension
import WordTape.Proofs.Device.Lines

/-!
# Operations off the cells

The pointer can be set to any number, and moves by negative numbers of steps are not refused,
so that it may stand before the first cell or anywhere behind the last. From there no operation
touches a cell: those that need one fault at once, and those that read fault with the byte that
they would have stored.
-/

set_option autoImplicit false

namespace WordTape

/-- The operations on a tape and its streams, apart from a reset. -/
inductive Operation where
  | readCell
  | moveForward (steps : Int)
  | moveBackward (steps : Int)
  | stepForward
  | increment (amount : Int)
  | decrement (amount : Int)
  | setString (text : Bytes)
  | setAs (type : NumericType) (value : type.Value)
  | clearRun
  | writeCell
  | writeAs (type : NumericType)
  | writeRun
  | readByte
  | readLine
  | flush

namespace Operation

def perform : Operation → Device → Outcome Device
  | readCell, device =>
      match device.tape.current with
      | .error fault => .stopped device (.fault fault)
      | .ok _ => .done device
  | moveForward steps, device => device.onTape (Tape.moveForward steps)
  | moveBackward steps, device => device.onTape (Tape.moveBackward steps)
  | stepForward, device => device.onTape Tape.stepForward
  | increment amount, device => device.onTape (Tape.increment amount)
  | decrement amount, device => device.onTape (Tape.decrement amount)
  | setString text, device => device.onTape (Tape.setString text)
  | setAs type value, device => device.onTape (Tape.setAs type value)
  | clearRun, device => device.onTape Tape.clearRun
  | writeCell, device => device.writeCell
  | writeAs type, device => device.writeAs type
  | writeRun, device => device.writeRun
  | readByte, device => device.readByte
  | readLine, device => device.readLine
  | flush, device => device.flush

/-- The operation cannot do without a cell, whatever the streams answer. -/
def needsCell : Operation → Bool
  | readCell | increment _ | decrement _ | setAs _ _ | clearRun | writeCell | writeAs _
  | writeRun => true
  | setString text => !text.isEmpty
  | moveForward _ | moveBackward _ | stepForward | readByte | readLine | flush => false

def readsInput : Operation → Bool
  | readByte | readLine => true
  | _ => false

/-- The operation has to store the byte if it reads it. -/
def stores : Operation → UInt8 → Bool
  | readByte, _ => true
  | readLine, byte => byte ≠ Bytes.lineFeed
  | _, _ => false

end Operation

/-- A fault of the kind stops the operation. -/
def Outcome.FaultsAs {State : Type} (kind : FaultKind) (outcome : Outcome State) : Prop :=
  ∃ fault, outcome.cause? = some (.fault fault) ∧ fault.kind = kind

/-! ## Operations on the tape -/

namespace Tape

variable {tape : Tape}

section

variable (offCell : ¬tape.OnCell)

include offCell

private theorem increment_of_not_onCell (amount : Int) :
    tape.increment amount = .stopped tape (.fault (.noCellToRead tape.pointer)) := by
  rw [increment, current_of_not_onCell offCell]

private theorem decrement_of_not_onCell (amount : Int) :
    tape.decrement amount = .stopped tape (.fault (.noCellToRead tape.pointer)) := by
  rw [decrement, current_of_not_onCell offCell]

private theorem setString_of_not_onCell (byte : UInt8) (rest : Bytes) :
    tape.setString (byte :: rest) = .stopped tape (.fault (.noCellToStore tape.pointer)) := by
  rw [setString, storeNext_of_not_onCell offCell, Outcome.andThen]

private theorem misplaced?_of_not_onCell (width : Nat) :
    tape.misplaced? width = some (.noCellToRead tape.pointer) := by
  rw [misplaced?, current_of_not_onCell offCell]

/-- Where there is no cell it does not matter whether the number fits its type. -/
private theorem setAs_of_not_onCell (type : NumericType) (value : type.Value) :
    tape.setAs type value = .stopped tape (.fault (.noCellToRead tape.pointer)) := by
  rw [setAs, misplaced?_of_not_onCell offCell]

theorem clearRun_of_not_onCell :
    tape.clearRun = .stopped tape (.fault (.noCellToStore tape.pointer)) := by
  rw [clearRun_eq, storeNext_of_not_onCell offCell, Outcome.andThen]

end

end Tape

/-! ## Operations on the streams -/

namespace Device

variable {device : Device}

private theorem onTape_stopped {operation : Tape → Outcome Tape} {cause : Interruption}
    (stopped : operation device.tape = .stopped device.tape cause) :
    device.onTape operation = .stopped device cause := by
  simp only [onTape, stopped]

section

variable (offCell : ¬device.tape.OnCell)

include offCell

private theorem writeCell_of_not_onCell :
    device.writeCell = .stopped device (.fault (.noCellToRead device.tape.pointer)) := by
  rw [writeCell, Tape.current_of_not_onCell offCell]

private theorem writeAs_of_not_onCell (type : NumericType) :
    device.writeAs type = .stopped device (.fault (.noCellToRead device.tape.pointer)) := by
  simp only [writeAs, Tape.numberText, Tape.misplaced?_of_not_onCell offCell]

private theorem writeRun_of_not_onCell :
    device.writeRun = .stopped device (.fault (.noCellToRead device.tape.pointer)) := by
  rw [writeRun_eq, Tape.current_of_not_onCell offCell]

end

/-- What reading comes to where no cell can be stored into: of all it does, only the request
is left. -/
def readInVain (stores : UInt8 → Bool) (device : Device) : Outcome Device :=
  match device.input.read with
  | (.failure reason, input) => .stopped { device with input } (.fault (.stream reason))
  | (.endOfInput, input) => .done { device with input }
  | (.byte byte, input) =>
      if stores byte then
        .stopped { device with input } (.fault (.noCellToStore device.tape.pointer))
      else .done { device with input }

private theorem readByte_of_not_onCell (offCell : ¬device.tape.OnCell) :
    device.readByte = device.readInVain (Operation.stores .readByte) := by
  obtain ⟨tape, input, output⟩ := device
  simp only [readByte, readInVain]
  cases input.read with
  | mk answer later =>
      cases answer with
      | failure reason => rfl
      | endOfInput => rfl
      | byte value =>
          have unstored : tape.store value = .stopped tape _ := if_neg offCell
          exact onTape_stopped unstored

private theorem readLine_of_not_onCell (offCell : ¬device.tape.OnCell) :
    device.readLine = device.readInVain (Operation.stores .readLine) := by
  rw [readLine_eq, readInVain]
  cases device.input.read with
  | mk answer later =>
      cases answer with
      | failure reason => rfl
      | endOfInput => rfl
      | byte value =>
          have unstored : onTape (Tape.storeNext value) { device with input := later } = _ :=
            onTape_stopped (Tape.storeNext_of_not_onCell offCell value)
          by_cases ends : value = Bytes.lineFeed
          · simp [ends, Operation.stores]
          · simp [ends, Operation.stores, unstored, Outcome.andThen]

private theorem state_readInVain (stores : UInt8 → Bool) (device : Device) :
    (device.readInVain stores).state = { device with input := device.input.read.2 } := by
  rw [readInVain]
  cases device.input.read with
  | mk answer later =>
      cases answer with
      | failure reason => rfl
      | endOfInput => rfl
      | byte value =>
          dsimp only
          split <;> rfl

private theorem readInVain_faultsAs_iff (stores : UInt8 → Bool) (device : Device) :
    (device.readInVain stores).FaultsAs .index ↔
      ∃ byte, device.input.read.1 = .byte byte ∧ stores byte = true := by
  rw [readInVain]
  cases device.input.read with
  | mk answer later =>
      cases answer with
      | failure reason => simp [Outcome.FaultsAs, Outcome.cause?, Fault.kind]
      | endOfInput => simp [Outcome.FaultsAs, Outcome.cause?]
      | byte value =>
          cases stored : stores value with
          | true => simp [Outcome.FaultsAs, Outcome.cause?, stored, Fault.kind]
          | false => simp [Outcome.FaultsAs, Outcome.cause?, stored]

private theorem output_state_flush (device : Device) :
    device.flush.state.output = device.output.flush.2 := by
  obtain ⟨tape, input, output⟩ := device
  simp only [flush]
  split <;> simp [Outcome.state, *]

end Device

theorem Input.consumed_read_le (input : Input) : input.read.2.consumed ≤ input.consumed + 1 := by
  simp only [Input.read]
  split <;> omega

/-! ## All operations -/

namespace Operation

variable {operation : Operation} {device : Device}

/-- An operation that needs a cell finds out that there is none before it does anything. -/
private theorem perform_of_needsCell (offCell : ¬device.tape.OnCell)
    (needs : operation.needsCell = true) :
    ∃ fault, operation.perform device = .stopped device (.fault fault) ∧ fault.kind = .index := by
  cases operation with
  | moveForward steps | moveBackward steps | stepForward | readByte | readLine | flush =>
      cases needs
  | readCell =>
      refine ⟨.noCellToRead device.tape.pointer, ?_, rfl⟩
      simp only [perform, Tape.current_of_not_onCell offCell]
  | increment amount =>
      exact ⟨_, Device.onTape_stopped (Tape.increment_of_not_onCell offCell amount), rfl⟩
  | decrement amount =>
      exact ⟨_, Device.onTape_stopped (Tape.decrement_of_not_onCell offCell amount), rfl⟩
  | setString text =>
      cases text with
      | nil => cases needs
      | cons byte rest =>
          exact ⟨_, Device.onTape_stopped (Tape.setString_of_not_onCell offCell byte rest), rfl⟩
  | setAs type value =>
      exact ⟨_, Device.onTape_stopped (Tape.setAs_of_not_onCell offCell type value), rfl⟩
  | clearRun => exact ⟨_, Device.onTape_stopped (Tape.clearRun_of_not_onCell offCell), rfl⟩
  | writeCell => exact ⟨_, Device.writeCell_of_not_onCell offCell, rfl⟩
  | writeAs type => exact ⟨_, Device.writeAs_of_not_onCell offCell type, rfl⟩
  | writeRun => exact ⟨_, Device.writeRun_of_not_onCell offCell, rfl⟩

private theorem perform_of_readsInput (offCell : ¬device.tape.OnCell)
    (reads : operation.readsInput = true) :
    operation.perform device = device.readInVain operation.stores := by
  cases operation with
  | readByte => exact Device.readByte_of_not_onCell offCell
  | readLine => exact Device.readLine_of_not_onCell offCell
  | _ => cases reads

/-- What is left are moves, an empty string and a flush, which change no cell anywhere. -/
private theorem perform_of_other (needs : operation.needsCell = false)
    (reads : operation.readsInput = false) (device : Device) :
    (operation.perform device).state.tape.cells = device.tape.cells ∧
      (operation.perform device).state.output.chunks = device.output.chunks := by
  cases operation with
  | moveForward steps =>
      simp only [perform, Device.tape_state_onTape, Device.output_state_onTape,
        Tape.cells_moveForward, and_self]
  | moveBackward steps =>
      simp only [perform, Device.tape_state_onTape, Device.output_state_onTape,
        Tape.cells_moveBackward, and_self]
  | stepForward =>
      simp only [perform, Device.tape_state_onTape, Device.output_state_onTape,
        Tape.cells_stepForward, and_self]
  | setString text =>
      cases text with
      | nil => exact ⟨rfl, rfl⟩
      | cons byte rest => cases needs
  | flush =>
      rw [perform, Device.tape_state_flush, Device.output_state_flush]
      exact ⟨rfl, rfl⟩
  | readByte | readLine => cases reads
  | readCell | increment _ | decrement _ | setAs _ _ | clearRun | writeCell | writeAs _
  | writeRun => cases needs

end Operation

/-- With the pointer before the first cell or behind the last, no operation changes a cell or
writes anything. What needs a cell faults and leaves all as it was, also if the number to lay
out does not fit its type. What reads makes one request, and it faults for the index exactly
if this brings a byte that is to be stored. -/
theorem no_cell_is_touched_from_outside (device : Device)
    (outside : device.tape.pointer < 0 ∨ device.tape.size ≤ device.tape.pointer)
    (operation : Operation) :
    let outcome := operation.perform device
    outcome.state.tape.cells = device.tape.cells ∧
      outcome.state.output.chunks = device.output.chunks ∧
      (operation.needsCell = true → outcome.FaultsAs .index ∧ outcome.state = device) ∧
      (operation.readsInput = true →
        (outcome.FaultsAs .index ↔
          ∃ byte, device.input.read.1 = .byte byte ∧ operation.stores byte = true) ∧
        outcome.state = { device with input := device.input.read.2 } ∧
        outcome.state.input.consumed ≤ device.input.consumed + 1) := by
  intro outcome
  have offCell : ¬device.tape.OnCell := by
    rintro ⟨nonneg, before⟩
    omega
  have needing (needs : operation.needsCell = true) :
      outcome.FaultsAs .index ∧ outcome.state = device := by
    obtain ⟨fault, stopped, kind⟩ := Operation.perform_of_needsCell offCell needs
    simp only [outcome, stopped]
    exact ⟨⟨fault, rfl, kind⟩, rfl⟩
  have reading (reads : operation.readsInput = true) :
      (outcome.FaultsAs .index ↔
          ∃ byte, device.input.read.1 = .byte byte ∧ operation.stores byte = true) ∧
        outcome.state = { device with input := device.input.read.2 } := by
    simp only [outcome, Operation.perform_of_readsInput offCell reads]
    exact ⟨Device.readInVain_faultsAs_iff _ device, Device.state_readInVain _ device⟩
  have kept : outcome.state.tape.cells = device.tape.cells ∧
      outcome.state.output.chunks = device.output.chunks := by
    cases needs : operation.needsCell with
    | true =>
        rw [(needing needs).2]
        exact ⟨rfl, rfl⟩
    | false =>
        cases reads : operation.readsInput with
        | true =>
            rw [(reading reads).2]
            exact ⟨rfl, rfl⟩
        | false => exact Operation.perform_of_other needs reads device
  refine ⟨kept.1, kept.2, needing, fun reads => ?_⟩
  obtain ⟨faults, state⟩ := reading reads
  refine ⟨faults, state, ?_⟩
  rw [state]
  exact device.input.consumed_read_le

/-- Behind a step back too far, neither a number that does not fit nor a byte that was read
comes to the last cell, which the same index counted from the end would be. -/
theorem last_cell_is_not_touched_from_before_first :
    let device : Device :=
      { tape := { cells := #[7, 8, 9], pointer := -1 }
        input := .ofBytes #[65, 10], output := {} }
    (device.tape.pointer < 0 ∨ device.tape.size ≤ device.tape.pointer) ∧
    (Operation.setAs (.integer .u8) (256 : Int)).needsCell = true ∧
    ((Operation.setAs (.integer .u8) (256 : Int)).perform device).FaultsAs .index ∧
    Operation.readLine.readsInput = true ∧
    (Operation.readLine.perform device).FaultsAs .index ∧
    (Operation.readLine.perform device).state.tape.cells = #[7, 8, 9] := by
  intro device
  have outside : device.tape.pointer < 0 ∨ device.tape.size ≤ device.tape.pointer :=
    .inl (by decide)
  obtain ⟨_, _, setting, _⟩ :=
    no_cell_is_touched_from_outside device outside (.setAs (.integer .u8) (256 : Int))
  obtain ⟨cells, _, _, reading⟩ := no_cell_is_touched_from_outside device outside .readLine
  exact ⟨outside, rfl, (setting rfl).1, rfl, (reading rfl).1.mpr ⟨65, rfl, rfl⟩, cells⟩

end WordTape
