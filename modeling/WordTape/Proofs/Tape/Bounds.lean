import WordTape.Machine
import WordTape.Proofs.Device.Faults

/-!
# The pointer on its tape

No operation changes the number of cells, and none leads the pointer off the tape by more
than one place: it is on a cell, or at rest behind the last. Only an operation that stores
a run of bytes, or that looks for a zero cell and finds none, brings it there.
-/

set_option autoImplicit false

namespace WordTape

theorem Outcome.state_andThen {State : Type} {property : State → Prop}
    {outcome : Outcome State} {next : State → Outcome State} (here : property outcome.state)
    (there : ∀ state, property state → property (next state).state) :
    property (outcome.andThen next).state := by
  cases outcome with
  | done state => exact there state here
  | stopped state cause => exact here

namespace Tape

/-- The tape has so many cells, and its pointer is on one of them or behind the last. -/
structure Within (size : Nat) (tape : Tape) : Prop where
  size_eq : tape.size = size
  nonneg : 0 ≤ tape.pointer
  le : tape.pointer ≤ size

/-- The second tape has the cells and the pointer at the places of the first. -/
structure SamePlace (tape later : Tape) : Prop where
  size_eq : later.size = tape.size
  pointer_eq : later.pointer = tape.pointer

theorem SamePlace.refl (tape : Tape) : SamePlace tape tape :=
  ⟨rfl, rfl⟩

variable {tape later last : Tape} {size : Nat}

theorem blank_within (size : Nat) : (blank size).Within size where
  size_eq := Array.size_replicate
  nonneg := Int.le_refl 0
  le := Int.natCast_nonneg size

theorem Within.of_samePlace (within : tape.Within size) (same : SamePlace tape later) :
    later.Within size where
  size_eq := same.size_eq.trans within.size_eq
  nonneg := same.pointer_eq ▸ within.nonneg
  le := same.pointer_eq ▸ within.le

/-! ## Operations that leave the pointer where it is -/

/-- An operation puts a byte into the cell that the pointer is on, or stops and leaves the tape
as it was. -/
inductive Adjusts (tape : Tape) : Outcome Tape → Prop where
  | done (byte : UInt8) : tape.OnCell → Adjusts tape (.done (tape.put byte))
  | stopped (cause : Interruption) : Adjusts tape (.stopped tape cause)

theorem store_adjusts (byte : UInt8) (tape : Tape) : tape.Adjusts (tape.store byte) := by
  unfold store
  split
  · rename_i onCell
    exact .done byte onCell
  · exact .stopped _

theorem putNumber_adjusts (onCell : tape.OnCell) (number : Int) :
    tape.Adjusts (tape.putNumber number) := by
  unfold putNumber
  split
  · exact .done _ onCell
  · exact .stopped _

theorem increment_adjusts (amount : Int) (tape : Tape) :
    tape.Adjusts (tape.increment amount) := by
  unfold increment
  split
  · exact .stopped _
  · rename_i current
    split
    · exact putNumber_adjusts (onCell_of_current current) _
    · exact .stopped _

theorem decrement_adjusts (amount : Int) (tape : Tape) :
    tape.Adjusts (tape.decrement amount) := by
  unfold decrement
  split
  · exact .stopped _
  · rename_i current
    split
    · exact putNumber_adjusts (onCell_of_current current) _
    · exact .stopped _

theorem Adjusts.samePlace {outcome : Outcome Tape} (adjusts : tape.Adjusts outcome) :
    SamePlace tape outcome.state := by
  cases adjusts with
  | done byte _ => exact ⟨size_put byte tape, pointer_put byte tape⟩
  | stopped cause => exact .refl tape

/-! ## Operations that move the pointer -/

theorem moveForward_of_lt {steps : Int} (before : tape.pointer + steps < tape.size) :
    tape.moveForward steps = .done { tape with pointer := tape.pointer + steps } := by
  simp only [moveForward, before, ↓reduceIte]

theorem moveForward_of_not_lt {steps : Int} (past : ¬tape.pointer + steps < tape.size) :
    tape.moveForward steps = .stopped tape (.fault (.moveForward steps)) := by
  simp only [moveForward, past, ↓reduceIte]

theorem cells_moveForward (steps : Int) (tape : Tape) :
    (tape.moveForward steps).state.cells = tape.cells := by
  unfold moveForward
  split <;> rfl

theorem le_moveForward (steps : Nat) (tape : Tape) :
    tape.pointer ≤ (tape.moveForward steps).state.pointer := by
  unfold moveForward
  split
  · exact Int.le_add_of_nonneg_right (Int.natCast_nonneg steps)
  · exact Int.le_refl _

theorem cells_moveBackward (steps : Int) (tape : Tape) :
    (tape.moveBackward steps).state.cells = tape.cells := by
  unfold moveBackward
  split <;> rfl

theorem cells_stepForward (tape : Tape) : tape.stepForward.state.cells = tape.cells := by
  unfold stepForward
  split <;> rfl

section

variable (within : tape.Within size)

include within

theorem Within.moveForward (steps : Nat) : (tape.moveForward steps).state.Within size := by
  obtain ⟨rfl, nonneg, le⟩ := within
  by_cases before : tape.pointer + steps < tape.size
  · rw [moveForward_of_lt before]
    exact ⟨rfl, Int.add_nonneg nonneg (Int.natCast_nonneg steps), Int.le_of_lt before⟩
  · rw [moveForward_of_not_lt before]
    exact ⟨rfl, nonneg, le⟩

/-- Moving forward adds the steps, if that is the place of a cell. -/
theorem Within.moveForward_eq (steps : Nat) :
    (tape.moveForward steps).state.pointer =
        (if tape.pointer + steps < size then tape.pointer + steps else tape.pointer) ∧
      (tape.moveForward steps).cause?.isSome = decide (size ≤ tape.pointer + steps) := by
  obtain ⟨rfl, nonneg, le⟩ := within
  by_cases before : tape.pointer + steps < tape.size
  · have notPast : ¬(tape.size : Int) ≤ tape.pointer + steps := Int.not_le.mpr before
    rw [moveForward_of_lt before, if_pos before, decide_eq_false notPast]
    exact ⟨rfl, rfl⟩
  · have past : (tape.size : Int) ≤ tape.pointer + steps := Int.not_lt.mp before
    rw [moveForward_of_not_lt before, if_neg before, decide_eq_true past]
    exact ⟨rfl, rfl⟩

theorem Within.onCell_of_moveForward {steps : Nat} (moved : tape.moveForward steps = .done last) :
    last.OnCell := by
  by_cases before : tape.pointer + steps < tape.size
  · rw [moveForward_of_lt before] at moved
    cases moved
    exact ⟨Int.add_nonneg within.nonneg (Int.natCast_nonneg steps), before⟩
  · rw [moveForward_of_not_lt before] at moved
    cases moved

theorem Within.moveBackward (steps : Nat) :
    (tape.moveBackward steps).state.Within size ∧
      (tape.moveBackward steps).state.pointer ≤ tape.pointer := by
  obtain ⟨rfl, nonneg, le⟩ := within
  unfold Tape.moveBackward
  split
  · rename_i enough
    have back : tape.pointer - steps ≤ tape.pointer := Int.sub_le_self _ (Int.natCast_nonneg steps)
    exact ⟨⟨rfl, Int.sub_nonneg.mpr enough, Int.le_trans back le⟩, back⟩
  · exact ⟨⟨rfl, nonneg, le⟩, Int.le_refl _⟩

theorem Within.step (onCell : tape.OnCell) :
    Within size { tape with pointer := tape.pointer + 1 } := by
  obtain ⟨rfl, nonneg, le⟩ := within
  exact ⟨rfl, Int.add_nonneg nonneg Int.one_nonneg, Int.add_one_le_of_lt onCell.2⟩

theorem Within.storeNext (byte : UInt8) : (tape.storeNext byte).state.Within size := by
  by_cases onCell : tape.OnCell
  · rw [storeNext_of_onCell onCell]
    exact (within.step onCell).of_samePlace ⟨size_put byte tape, rfl⟩
  · rwa [storeNext_of_not_onCell onCell]

theorem Within.setString (text : Bytes) : (tape.setString text).state.Within size := by
  induction text generalizing tape with
  | nil => exact within
  | cons byte rest ih =>
      exact Outcome.state_andThen (within.storeNext byte) fun _ within => ih within

theorem Within.setAs (type : NumericType) (value : type.Value) :
    (tape.setAs type value).state.Within size := by
  unfold Tape.setAs
  split
  · exact within
  · split
    · exact within
    · exact within.setString _

theorem Within.clearRun : tape.clearRun.state.Within size := by
  fun_induction Tape.clearRun tape with
  | case1 tape last cause stored =>
      have stays := within.storeNext 0
      rwa [stored] at stays
  | case2 tape next stored fault current =>
      have stays := within.storeNext 0
      rwa [stored] at stays
  | case3 tape next stored current =>
      have stays := within.storeNext 0
      rwa [stored] at stays
  | case4 tape next stored value current nonzero ih =>
      have stays := within.storeNext 0
      rw [stored] at stays
      exact ih stays

end

/-- The zero that ends a cleared run stands on a cell. -/
theorem onCell_of_clearRun (cleared : tape.clearRun = .done last) : last.OnCell := by
  fun_induction clearRun tape with
  | case1 | case2 => cases cleared
  | case3 tape next stored current =>
      cases cleared
      exact onCell_of_current current
  | case4 tape next stored value current nonzero ih => exact ih cleared

end Tape

/-! ## Operations on the streams -/

namespace Device

variable {device last : Device} {size : Nat}

theorem tape_state_onTape (operation : Tape → Outcome Tape) (device : Device) :
    (device.onTape operation).state.tape = (operation device.tape).state := by
  simp only [onTape]
  cases operation device.tape <;> rfl

theorem cause?_onTape (operation : Tape → Outcome Tape) (device : Device) :
    (device.onTape operation).cause? = (operation device.tape).cause? := by
  simp only [onTape]
  cases operation device.tape <;> rfl

private theorem eq_done_of_onTape {operation : Tape → Outcome Tape}
    (acted : device.onTape operation = .done last) : operation device.tape = .done last.tape := by
  simp only [onTape] at acted
  split at acted
  · cases acted
    assumption
  · cases acted

theorem tape_state_flush (device : Device) : device.flush.state.tape = device.tape := by
  obtain ⟨tape, input, output⟩ := device
  simp only [flush]
  split <;> rfl

theorem tape_state_writeCell (device : Device) : device.writeCell.state.tape = device.tape := by
  unfold writeCell
  split
  · rfl
  · exact tape_state_emit _ device

theorem tape_state_writeAs (type : NumericType) (device : Device) :
    (device.writeAs type).state.tape = device.tape := by
  unfold writeAs
  split
  · rfl
  · exact tape_state_emit _ device

theorem readByte_samePlace (device : Device) :
    Tape.SamePlace device.tape device.readByte.state.tape := by
  obtain ⟨tape, input, output⟩ := device
  simp only [readByte]
  split
  · exact .refl tape
  · exact .refl tape
  · rw [tape_state_onTape]
    exact (Tape.store_adjusts _ tape).samePlace

private theorem readLine_within (within : device.tape.Within size) :
    device.readLine.state.tape.Within size := by
  fun_induction readLine device with
  | case1 | case2 | case3 => exact within
  | case4 tape input output byte later answered _ last cause stored =>
      have stays := within.storeNext byte
      rwa [stored] at stays
  | case5 tape input output byte later answered _ next stored ih =>
      have stays := within.storeNext byte
      rw [stored] at stays
      exact ih stays

private theorem writeRun_within (within : device.tape.Within size) :
    device.writeRun.state.tape.Within size := by
  fun_induction writeRun device with
  | case1 | case2 => exact within
  | case3 device value current nonzero last cause emitted =>
      have unmoved := tape_state_emit [value] device
      rw [emitted] at unmoved
      exact unmoved ▸ within
  | case4 device value current nonzero written emitted last cause stopped =>
      rw [stepForward_after_emit current emitted] at stopped
      cases stopped
  | case5 device value current nonzero written emitted next moved ih =>
      have unmoved := tape_state_emit [value] device
      rw [emitted] at unmoved
      rw [stepForward_after_emit current emitted] at moved
      cases moved
      have stays : written.tape.Within size := unmoved ▸ within
      have onCell : written.tape.OnCell := unmoved ▸ Tape.onCell_of_current current
      exact ih (stays.step onCell)

/-- The zero that ends a written run stands on a cell. -/
theorem onCell_of_writeRun (wrote : device.writeRun = .done last) : last.tape.OnCell := by
  fun_induction writeRun device with
  | case1 | case3 | case4 => cases wrote
  | case2 device current =>
      cases wrote
      exact Tape.onCell_of_current current
  | case5 device value current nonzero written emitted next moved ih => exact ih wrote

end Device

/-! ## Instructions -/

namespace Mnemonic

/-- The instruction stores a run of bytes and leaves the pointer behind the last. -/
def storesRun : Mnemonic → Bool
  | setString | setAs _ | readLine => true
  | _ => false

/-- The instruction goes over cells up to the next zero. -/
def seeksZero : Mnemonic → Bool
  | writeRun | clearRun => true
  | _ => false

/-- The instruction moves forward to a cell, or faults. -/
def landsOnCell : Mnemonic → Bool
  | moveForward | writeRun | clearRun => true
  | _ => false

theorem landsOnCell_of_seeksZero {mnemonic : Mnemonic} (seeks : mnemonic.seeksZero = true) :
    mnemonic.landsOnCell = true := by
  cases mnemonic with
  | writeRun | clearRun => rfl
  | _ => cases seeks

end Mnemonic

namespace Instruction

variable {device last : Device} {size : Nat}

theorem act_within (instruction : Instruction) (within : device.tape.Within size) :
    (instruction.act device).state.tape.Within size := by
  cases instruction with
  | moveForward steps =>
      rw [act, Device.tape_state_onTape]
      exact within.moveForward steps
  | moveBackward steps =>
      rw [act, Device.tape_state_onTape]
      exact (within.moveBackward steps).1
  | increment amount =>
      rw [act, Device.tape_state_onTape]
      exact within.of_samePlace (Tape.increment_adjusts amount _).samePlace
  | decrement amount =>
      rw [act, Device.tape_state_onTape]
      exact within.of_samePlace (Tape.decrement_adjusts amount _).samePlace
  | loopOpen | loopClose => exact within
  | readByte => exact within.of_samePlace device.readByte_samePlace
  | readLine => exact Device.readLine_within within
  | writeCell =>
      rw [act, Device.tape_state_writeCell]
      exact within
  | writeAs type =>
      rw [act, Device.tape_state_writeAs]
      exact within
  | setString text =>
      rw [act, Device.tape_state_onTape]
      exact within.setString text
  | setAs type value =>
      rw [act, Device.tape_state_onTape]
      exact within.setAs type value
  | writeRun => exact Device.writeRun_within within
  | clearRun =>
      rw [act, Device.tape_state_onTape]
      exact within.clearRun

theorem act_landsOnCell {instruction : Instruction} (within : device.tape.Within size)
    (lands : instruction.mnemonic.landsOnCell = true)
    (acted : instruction.act device = .done last) : last.tape.OnCell := by
  cases instruction with
  | moveForward steps => exact within.onCell_of_moveForward (Device.eq_done_of_onTape acted)
  | writeRun => exact Device.onCell_of_writeRun acted
  | clearRun => exact Tape.onCell_of_clearRun (Device.eq_done_of_onTape acted)
  | _ => cases lands

/-- An instruction that brings the pointer behind the last cell stores a run of bytes, or
it looks for a zero. -/
theorem act_rests {instruction : Instruction} (within : device.tape.Within size)
    (rests : (instruction.act device).state.tape.pointer = size) :
    device.tape.pointer = size ∨ instruction.mnemonic.storesRun ∨
      instruction.mnemonic.seeksZero := by
  cases instruction with
  | moveForward steps =>
      left
      rw [act, Device.tape_state_onTape] at rests
      by_cases before : device.tape.pointer + steps < device.tape.size
      · rw [Tape.moveForward_of_lt before] at rests
        rw [within.size_eq] at before
        exact absurd rests (Int.ne_of_lt before)
      · rw [Tape.moveForward_of_not_lt before] at rests
        exact rests
  | moveBackward steps =>
      left
      have back := (within.moveBackward steps).2
      rw [act, Device.tape_state_onTape] at rests
      exact Int.le_antisymm within.le (rests ▸ back)
  | increment amount =>
      left
      rw [act, Device.tape_state_onTape] at rests
      exact (Tape.increment_adjusts amount _).samePlace.pointer_eq ▸ rests
  | decrement amount =>
      left
      rw [act, Device.tape_state_onTape] at rests
      exact (Tape.decrement_adjusts amount _).samePlace.pointer_eq ▸ rests
  | loopOpen | loopClose => exact .inl rests
  | readByte => exact .inl (device.readByte_samePlace.pointer_eq ▸ rests)
  | writeCell =>
      left
      rwa [act, Device.tape_state_writeCell] at rests
  | writeAs type =>
      left
      rwa [act, Device.tape_state_writeAs] at rests
  | readLine | setString text | setAs type value => exact .inr (.inl rfl)
  | writeRun | clearRun => exact .inr (.inr rfl)

end Instruction

end WordTape
