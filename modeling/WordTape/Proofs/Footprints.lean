import WordTape.Proofs.Device.Lines
import WordTape.Proofs.Structure.Reading
import WordTape.Proofs.Tape.Sweeps
import WordTape.Proofs.Transition

/-!
# Footprints of instructions

What an instruction can change is known from its mnemonic. The cells lie between the pointer
before and after it, each stream belongs to a few instructions, and so does the stack of open
loops. All this holds wherever the instruction is stopped.
-/

set_option autoImplicit false

namespace WordTape

namespace Mnemonic

def changesCells : Mnemonic → Bool
  | increment | decrement | readByte | readLine | setString | setAs _ | clearRun => true
  | moveForward | moveBackward | loopOpen | loopClose | writeCell | writeAs _ | writeRun => false

def readsInput : Mnemonic → Bool
  | readByte | readLine => true
  | _ => false

def writesOutput : Mnemonic → Bool
  | writeCell | writeAs _ | writeRun => true
  | _ => false

end Mnemonic

/-- What an instruction leaves of the tape and the streams. -/
structure Device.Footprint (mnemonic : Mnemonic) (device later : Device) : Prop where
  forward : mnemonic ≠ .moveBackward → device.tape.pointer ≤ later.tape.pointer
  window : ∀ index : Nat, later.tape.cells[index]? ≠ device.tape.cells[index]? →
    device.tape.pointer ≤ index ∧ index < max later.tape.pointer (device.tape.pointer + 1)
  cells : mnemonic.changesCells = false → later.tape.cells = device.tape.cells
  input : mnemonic.readsInput = false → later.input = device.input
  output : mnemonic.writesOutput = false → later.output = device.output

/-- What an instruction leaves of a machine. The innermost loop is on top of the stack. -/
structure Machine.Footprint (mnemonic : Mnemonic) (machine later : Machine) : Prop where
  device : Device.Footprint mnemonic machine.device later.device
  loops : mnemonic ≠ .loopOpen → mnemonic ≠ .loopClose → later.loops = machine.loops
  opens : mnemonic = .loopOpen →
    later.loops = machine.loops ∨ ∃ opened, later.loops = opened :: machine.loops
  closes : mnemonic = .loopClose →
    later.loops = machine.loops ∨ ∃ closed, machine.loops = closed :: later.loops

namespace Device

variable {mnemonic : Mnemonic} {device later : Device}

/-! ## Reading and writing -/

private theorem readByte_covers (device : Device) :
    device.tape.Covers device.readByte.state.tape ∧
      device.readByte.state.output = device.output := by
  obtain ⟨tape, input, output⟩ := device
  simp only [readByte]
  split
  · exact ⟨.refl tape, rfl⟩
  · exact ⟨.refl tape, rfl⟩
  · rw [tape_state_onTape, output_state_onTape]
    exact ⟨(Tape.store_adjusts _ tape).covers, rfl⟩

private theorem readLine_sweeps (device : Device) :
    device.tape.Sweeps device.readLine.state.tape ∧
      device.readLine.state.output = device.output := by
  fun_induction readLine device with
  | case1 tape | case2 tape | case3 tape => exact ⟨.refl tape, rfl⟩
  | case4 tape input output byte later answered _ last cause stored =>
      have first := tape.storeNext_sweeps byte
      rw [stored] at first
      exact ⟨first, rfl⟩
  | case5 tape input output byte later answered _ next stored ih =>
      have first := tape.storeNext_sweeps byte
      rw [stored] at first
      exact ⟨first.trans ih.1, ih.2⟩

private theorem input_state_emit (chunk : Bytes) (device : Device) :
    (device.emit chunk).state.input = device.input := by
  obtain ⟨tape, input, output⟩ := device
  simp only [emit]
  split <;> rfl

private theorem input_state_writeCell (device : Device) :
    device.writeCell.state.input = device.input := by
  unfold writeCell
  split
  · rfl
  · exact input_state_emit _ device

private theorem input_state_writeAs (type : NumericType) (device : Device) :
    (device.writeAs type).state.input = device.input := by
  unfold writeAs
  split
  · rfl
  · exact input_state_emit _ device

/-- A run is written without a change of its cells. -/
theorem writeRun_passes (device : Device) :
    device.writeRun.state.tape.cells = device.tape.cells ∧
      device.tape.pointer ≤ device.writeRun.state.tape.pointer ∧
      device.writeRun.state.input = device.input := by
  fun_induction writeRun device with
  | case1 device | case2 device => exact ⟨rfl, Int.le_refl _, rfl⟩
  | case3 device value current nonzero last cause emitted =>
      have tape := tape_state_emit [value] device
      have input := input_state_emit [value] device
      rw [emitted, Outcome.state] at tape input
      rw [Outcome.state, tape]
      exact ⟨rfl, Int.le_refl _, input⟩
  | case4 device value current nonzero written emitted last cause stopped =>
      rw [stepForward_after_emit current emitted] at stopped
      cases stopped
  | case5 device value current nonzero written emitted next moved ih =>
      have tape := tape_state_emit [value] device
      have input := input_state_emit [value] device
      rw [emitted, Outcome.state] at tape input
      rw [stepForward_after_emit current emitted, tape] at moved
      cases moved
      obtain ⟨cells, forward, unread⟩ := ih
      exact ⟨cells, Int.le_trans (Int.le_add_one (Int.le_refl _)) forward, unread.trans input⟩

/-! ## Instructions -/

theorem Footprint.refl (mnemonic : Mnemonic) (device : Device) :
    device.Footprint mnemonic device where
  forward := fun _ => Int.le_refl _
  window := fun _ changed => absurd rfl changed
  cells := fun _ => rfl
  input := fun _ => rfl
  output := fun _ => rfl

/-- What stores or clears changes cells that are covered. -/
theorem Footprint.of_covers (covers : device.tape.Covers later.tape)
    (changes : mnemonic.changesCells = true)
    (input : mnemonic.readsInput = true ∨ later.input = device.input)
    (output : later.output = device.output) : device.Footprint mnemonic later where
  forward := fun _ => covers.forward
  window := covers.window
  cells := fun keeps => absurd changes (Bool.eq_false_iff.mp keeps)
  input := fun unread => input.resolve_left (Bool.eq_false_iff.mp unread)
  output := fun _ => output

/-- What moves or writes leaves all cells as they are. -/
theorem Footprint.of_cells (cells : later.tape.cells = device.tape.cells)
    (forward : mnemonic ≠ .moveBackward → device.tape.pointer ≤ later.tape.pointer)
    (input : later.input = device.input)
    (output : mnemonic.writesOutput = true ∨ later.output = device.output) :
    device.Footprint mnemonic later where
  forward := forward
  window := fun index changed => absurd (congrArg (·[index]?) cells) changed
  cells := fun _ => cells
  input := fun _ => input
  output := fun unwritten => output.resolve_left (Bool.eq_false_iff.mp unwritten)

private theorem onTape_footprint {operation : Tape → Outcome Tape}
    (covers : device.tape.Covers (operation device.tape).state)
    (changes : mnemonic.changesCells = true) :
    device.Footprint mnemonic (device.onTape operation).state :=
  .of_covers (tape_state_onTape operation device ▸ covers) changes
    (.inr (input_state_onTape operation device)) (output_state_onTape operation device)

end Device

theorem Instruction.act_footprint (instruction : Instruction) (device : Device) :
    device.Footprint instruction.mnemonic (instruction.act device).state := by
  cases instruction with
  | moveForward steps =>
      refine .of_cells ?_ (fun _ => ?_) (Device.input_state_onTape _ device)
        (.inr (Device.output_state_onTape _ device))
      · rw [act, Device.tape_state_onTape, Tape.cells_moveForward]
      · rw [act, Device.tape_state_onTape]
        exact device.tape.le_moveForward steps
  | moveBackward steps =>
      refine .of_cells ?_ (fun other => absurd rfl other) (Device.input_state_onTape _ device)
        (.inr (Device.output_state_onTape _ device))
      rw [act, Device.tape_state_onTape, Tape.cells_moveBackward]
  | increment amount => exact Device.onTape_footprint (Tape.increment_adjusts amount _).covers rfl
  | decrement amount => exact Device.onTape_footprint (Tape.decrement_adjusts amount _).covers rfl
  | loopOpen | loopClose => exact .refl _ device
  | readByte =>
      obtain ⟨covers, output⟩ := device.readByte_covers
      exact .of_covers covers rfl (.inl rfl) output
  | readLine =>
      obtain ⟨sweeps, output⟩ := device.readLine_sweeps
      exact .of_covers sweeps.covers rfl (.inl rfl) output
  | writeCell =>
      have tape := device.tape_state_writeCell
      exact .of_cells (congrArg Tape.cells tape)
        (fun _ => Int.le_of_eq (congrArg Tape.pointer tape.symm))
        device.input_state_writeCell (.inl rfl)
  | writeAs type =>
      have tape := device.tape_state_writeAs type
      exact .of_cells (congrArg Tape.cells tape)
        (fun _ => Int.le_of_eq (congrArg Tape.pointer tape.symm))
        (device.input_state_writeAs type) (.inl rfl)
  | setString text => exact Device.onTape_footprint (Tape.setString_sweeps text _).covers rfl
  | setAs type value => exact Device.onTape_footprint (Tape.setAs_sweeps type value _).covers rfl
  | writeRun =>
      obtain ⟨cells, forward, input⟩ := device.writeRun_passes
      exact .of_cells cells (fun _ => forward) input (.inl rfl)
  | clearRun => exact Device.onTape_footprint (Tape.clearRun_sweeps _).covers rfl

namespace Machine

variable {mnemonic : Mnemonic} {instruction : Instruction} {machine later : Machine}

theorem Footprint.of_loops (device : machine.device.Footprint mnemonic later.device)
    (loops : later.loops = machine.loops) : machine.Footprint mnemonic later where
  device := device
  loops := fun _ _ => loops
  opens := fun _ => .inl loops
  closes := fun _ => .inl loops

theorem Footprint.of_act (acted : later.device = (instruction.act machine.device).state)
    (loops : later.loops = machine.loops) : machine.Footprint instruction.mnemonic later :=
  .of_loops (acted ▸ instruction.act_footprint machine.device) loops

/-- The dispatch of an instruction, with whatever operand and whether or not it faults, keeps
to the footprint of its mnemonic. -/
theorem instructions_keep_to_their_footprints {tokens : Array Token} {position : Nat}
    {token : Token} {mnemonic : Mnemonic} (found : tokens[position]? = some token)
    (kind : token.kind = .instruction mnemonic) (machine : Machine) :
    machine.Footprint mnemonic (machine.dispatch tokens position token).machine := by
  have described := describes_dispatch found machine
  cases dispatched : machine.dispatch tokens position token with
  | next next later =>
      rw [dispatched] at described
      cases described with
      | act stands notOpen notClose acted =>
          cases found.symm.trans stands.found
          cases stands.eq_mnemonic kind
          exact .of_act (acted ▸ rfl) rfl
      | openLoop stands =>
          cases found.symm.trans stands.found
          cases stands.eq_mnemonic kind
          exact {
            device := .refl _ _
            loops := fun other => absurd rfl other
            opens := fun _ => .inr ⟨position, rfl⟩
            closes := nofun }
      | closeLoop stands top current =>
          cases found.symm.trans stands.found
          cases stands.eq_mnemonic kind
          exact {
            device := .refl _ _
            loops := fun _ other => absurd rfl other
            opens := nofun
            closes := fun _ => .inr ⟨_, top⟩ }
      | repeatLoop stands => exact .of_loops (.refl _ _) rfl
  | faulted last fault =>
      rw [dispatched] at described
      cases described with
      | notInstruction | noOpenLoop | test => exact .of_loops (.refl _ _) rfl
      | act stands notOpen notClose acted =>
          cases found.symm.trans stands.found
          cases stands.eq_mnemonic kind
          exact .of_act (acted ▸ rfl) rfl

/-- A string that goes on behind the tape is stopped with two of its bytes stored. The cell in
front of them, the streams and the open loop are as before. -/
theorem stopped_string_keeps_to_its_footprint :
    let tokens := Lexer.tokenize (Bytes.ofString "lop set xyz")
    let machine : Machine :=
      { device := { tape := { cells := #[7, 8, 9], pointer := 1 }
                    input := .ofBytes #[65], output := {} }
        loops := [0] }
    ∃ token last, tokens[1]? = some token ∧ token.kind = .instruction .setString ∧
      machine.dispatch tokens 1 token =
        .faulted last (.interrupted token (.fault (.noCellToStore 3))) ∧
      last.device.tape = { cells := #[7, 120, 121], pointer := 3 } ∧
      machine.Footprint .setString last := by
  intro tokens machine
  let token : Token :=
    { value := Bytes.ofString "set", position := ⟨1, 5⟩, kind := .instruction .setString }
  have found : tokens[1]? = some token := by decide +kernel
  have operand : tokens[2]? = some
      { value := Bytes.ofString "xyz", position := ⟨1, 9⟩, kind := .unknown } := by
    decide +kernel
  have stands : Stands tokens 1 token (.setString (Bytes.ofString "xyz")) := by
    refine ⟨found, ?_⟩
    simp only [token, Instruction.fetch, Instruction.ofMnemonic, Instruction.wordOperand, operand]
    rfl
  have faulted : machine.dispatch tokens 1 token = _ :=
    (dispatch_eq_perform stands machine).trans rfl
  have footprint := instructions_keep_to_their_footprints found rfl machine
  rw [faulted] at footprint
  exact ⟨token, _, found, rfl, faulted, rfl, footprint⟩

end Machine

end WordTape
