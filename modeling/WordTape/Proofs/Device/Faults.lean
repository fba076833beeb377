import WordTape.Machine
import WordTape.Proofs.Tape.Numbers

/-!
# Faults of operations

What stops an operation on the tape and its streams is a fault, of one of a few sorts
that depend on the operation alone. An instruction that lays out only numbers that their
type holds is stopped by nothing else: cells of the right number always stand for a
number, and a number that its type holds always has cells.
-/

set_option autoImplicit false

namespace WordTape

/-- A fault without the numbers and the text in it. -/
inductive FaultSort where
  | noCellToRead
  | noCellToStore
  | stepPastEnd
  | moveForward
  | moveBackward
  | noRoom
  | addition
  | subtraction
  | stream
deriving DecidableEq, Repr

def Fault.sort : Fault → FaultSort
  | noCellToRead _ => .noCellToRead
  | noCellToStore _ => .noCellToStore
  | stepPastEnd => .stepPastEnd
  | moveForward _ => .moveForward
  | moveBackward _ => .moveBackward
  | noRoom _ _ _ => .noRoom
  | addition _ => .addition
  | subtraction _ => .subtraction
  | stream _ => .stream

/-- The sorts of faults that stop an instruction. No instruction steps past the end, since
each run of cells is entered cell by cell: what finds no cell to read or to store stops
before it steps. -/
def Mnemonic.faults : Mnemonic → List FaultSort
  | moveForward => [.moveForward]
  | moveBackward => [.moveBackward]
  | increment => [.noCellToRead, .addition]
  | decrement => [.noCellToRead, .subtraction]
  | loopOpen => []
  | loopClose => [.noCellToRead]
  | readByte | readLine => [.stream, .noCellToStore]
  | writeCell | writeRun => [.noCellToRead, .stream]
  | writeAs _ => [.noCellToRead, .noRoom, .stream]
  | setString => [.noCellToStore]
  | setAs _ => [.noCellToRead, .noRoom]
  | clearRun => [.noCellToStore, .noCellToRead]

theorem Mnemonic.stepPastEnd_not_mem_faults (mnemonic : Mnemonic) :
    .stepPastEnd ∉ mnemonic.faults := by
  cases mnemonic <;> simp [faults]

/-- Whatever stops the operation is a fault of the tape or of a stream. -/
def Outcome.FaultsOnly {State : Type} (outcome : Outcome State) : Prop :=
  ∀ last cause, outcome = .stopped last cause → ∃ fault, cause = .fault fault

/-- Whatever stops the operation is a fault of one of the sorts. -/
def Outcome.StopsFor {State : Type} (sorts : List FaultSort) (outcome : Outcome State) : Prop :=
  ∀ last cause, outcome = .stopped last cause →
    ∃ fault, cause = .fault fault ∧ fault.sort ∈ sorts

/-- A fault of the kind stops the operation under the condition, and otherwise it is done. -/
structure Outcome.FaultsIff {State : Type} (kind : FaultKind) (condition : Prop)
    (outcome : Outcome State) : Prop where
  faults : condition → ∃ fault, outcome.cause? = some (.fault fault) ∧ fault.kind = kind
  done : ¬condition → outcome.cause? = none

theorem Outcome.FaultsIff.of_cause? {State : Type} {kind : FaultKind} {condition : Prop}
    [Decidable condition] {outcome : Outcome State} {fault : Fault} (same : fault.kind = kind)
    (cause : outcome.cause? = if condition then some (.fault fault) else none) :
    outcome.FaultsIff kind condition where
  faults := fun holds => ⟨fault, cause.trans (if_pos holds), same⟩
  done := fun never => cause.trans (if_neg never)

namespace Outcome.StopsFor

variable {State : Type} {sorts : List FaultSort}

theorem done (state : State) : StopsFor sorts (.done state) := by
  intro last cause result
  cases result

theorem stopped (state : State) {fault : Fault} (member : fault.sort ∈ sorts) :
    StopsFor sorts (.stopped state (.fault fault)) := by
  intro last cause result
  cases result
  exact ⟨fault, rfl, member⟩

theorem andThen {outcome : Outcome State} {next : State → Outcome State}
    (here : outcome.StopsFor sorts) (there : ∀ state, (next state).StopsFor sorts) :
    (outcome.andThen next).StopsFor sorts := by
  cases outcome with
  | done state => exact there state
  | stopped state cause =>
      obtain ⟨fault, rfl, member⟩ := here state cause rfl
      exact .stopped state member

theorem of_subset {outcome : Outcome State} {more : List FaultSort}
    (stops : outcome.StopsFor sorts) (within : sorts ⊆ more) : outcome.StopsFor more := by
  intro last cause result
  obtain ⟨fault, rfl, member⟩ := stops last cause result
  exact ⟨fault, rfl, within member⟩

end Outcome.StopsFor

open Outcome

namespace Tape

variable {tape : Tape}

private theorem sort_of_misplaced {width : Nat} {fault : Fault}
    (misplaced : tape.misplaced? width = some fault) :
    fault.sort ∈ [FaultSort.noCellToRead, .noRoom] := by
  unfold misplaced? at misplaced
  split at misplaced
  · rename_i current
    cases misplaced
    rw [eq_of_current_error current]
    exact List.mem_cons_self
  · split at misplaced
    · cases misplaced
    · cases misplaced
      exact List.mem_cons_of_mem _ List.mem_cons_self

/-- A number that has a place at the pointer has all its cells on the tape. -/
theorem length_span_of_placed {width : Nat} (placed : tape.misplaced? width = none) :
    (tape.span width).length = width := by
  obtain ⟨onCell, room⟩ := room_of_placed placed
  obtain ⟨start, starts⟩ := Int.eq_ofNat_of_zero_le onCell.1
  rw [starts, size] at room
  rw [span, starts, Int.toNat_natCast, Array.length_toList, Array.size_extract]
  omega

private theorem store_stopsFor (byte : UInt8) (tape : Tape) :
    (tape.store byte).StopsFor [.noCellToStore] := by
  unfold store
  split
  · exact .done _
  · exact .stopped _ List.mem_cons_self

private theorem storeNext_stopsFor (byte : UInt8) (tape : Tape) :
    (tape.storeNext byte).StopsFor [.noCellToStore] := by
  by_cases onCell : tape.OnCell
  · rw [storeNext_of_onCell onCell]
    exact .done _
  · rw [storeNext_of_not_onCell onCell]
    exact .stopped _ List.mem_cons_self

private theorem moveForward_stopsFor (steps : Int) (tape : Tape) :
    (tape.moveForward steps).StopsFor [.moveForward] := by
  unfold moveForward
  split
  · exact .done _
  · exact .stopped _ List.mem_cons_self

private theorem moveBackward_stopsFor (steps : Int) (tape : Tape) :
    (tape.moveBackward steps).StopsFor [.moveBackward] := by
  unfold moveBackward
  split
  · exact .done _
  · exact .stopped _ List.mem_cons_self

private theorem increment_stopsFor (amount : Nat) (tape : Tape) :
    (tape.increment amount).StopsFor [.noCellToRead, .addition] := by
  rw [increment_natCast]
  split
  · rename_i current
    rw [eq_of_current_error current]
    exact .stopped _ List.mem_cons_self
  · split
    · exact .done _
    · exact .stopped _ (List.mem_cons_of_mem _ List.mem_cons_self)

private theorem decrement_stopsFor (amount : Nat) (tape : Tape) :
    (tape.decrement amount).StopsFor [.noCellToRead, .subtraction] := by
  rw [decrement_natCast]
  split
  · rename_i current
    rw [eq_of_current_error current]
    exact .stopped _ List.mem_cons_self
  · split
    · exact .done _
    · exact .stopped _ (List.mem_cons_of_mem _ List.mem_cons_self)

private theorem setString_stopsFor (text : Bytes) (tape : Tape) :
    (tape.setString text).StopsFor [.noCellToStore] := by
  induction text generalizing tape with
  | nil => exact .done tape
  | cons byte rest ih => exact (storeNext_stopsFor byte tape).andThen ih

private theorem clearRun_stopsFor (tape : Tape) :
    tape.clearRun.StopsFor [.noCellToStore, .noCellToRead] := by
  fun_induction clearRun tape with
  | case1 tape last cause stored =>
      obtain ⟨fault, rfl, member⟩ := storeNext_stopsFor 0 tape last cause stored
      exact .stopped last (List.mem_append_left _ member)
  | case2 tape next stored fault current =>
      rw [eq_of_current_error current]
      exact .stopped next (List.mem_cons_of_mem _ List.mem_cons_self)
  | case3 tape next stored current => exact .done next
  | case4 tape next stored value current nonzero ih => exact ih

/-- A number that its type holds and that has a place at the pointer is laid out whole. -/
theorem exists_setAs_of_placed {type : NumericType} {value : type.Value}
    (holds : type.Holds value) (placed : tape.misplaced? type.width = none) :
    ∃ last, tape.setAs type value = .done last := by
  obtain ⟨bytes, encoded, decoded⟩ := NumericType.encode_of_holds holds
  obtain ⟨onCell, room⟩ := room_of_placed placed
  obtain ⟨start, starts⟩ := Int.eq_ofNat_of_zero_le onCell.1
  rw [starts] at room
  exact ⟨_, setAs_eq starts (by omega) encoded (NumericType.length_of_decode decoded)⟩

private theorem setAs_stopsFor {type : NumericType} {value : type.Value} (holds : type.Holds value)
    (tape : Tape) : (tape.setAs type value).StopsFor [.noCellToRead, .noRoom] := by
  cases placed : tape.misplaced? type.width with
  | some fault =>
      simp only [setAs, placed]
      exact .stopped _ (sort_of_misplaced placed)
  | none =>
      obtain ⟨last, laid⟩ := exists_setAs_of_placed holds placed
      rw [laid]
      exact .done _

end Tape

namespace Device

private theorem onTape_stopsFor {operation : Tape → Outcome Tape} {sorts : List FaultSort}
    {device : Device} (stops : (operation device.tape).StopsFor sorts) :
    (device.onTape operation).StopsFor sorts := by
  obtain ⟨tape, input, output⟩ := device
  simp only [onTape]
  cases ran : operation tape with
  | done tape => exact .done _
  | stopped last cause =>
      obtain ⟨fault, rfl, member⟩ := stops last cause ran
      exact .stopped _ member

private theorem emit_stopsFor (chunk : Bytes) (device : Device) :
    (device.emit chunk).StopsFor [.stream] := by
  obtain ⟨tape, input, output⟩ := device
  simp only [emit]
  split
  · exact .done _
  · exact .stopped _ List.mem_cons_self

private theorem writeCell_stopsFor (device : Device) :
    device.writeCell.StopsFor [.noCellToRead, .stream] := by
  unfold writeCell
  split
  · rename_i current
    rw [Tape.eq_of_current_error current]
    exact .stopped _ List.mem_cons_self
  · exact (emit_stopsFor _ device).of_subset (by simp)

private theorem readByte_stopsFor (device : Device) :
    device.readByte.StopsFor [.stream, .noCellToStore] := by
  obtain ⟨tape, input, output⟩ := device
  simp only [readByte]
  split
  · exact .stopped _ List.mem_cons_self
  · exact .done _
  · exact (onTape_stopsFor (Tape.store_stopsFor _ _)).of_subset (by simp)

private theorem writeAs_stopsFor (type : NumericType) (device : Device) :
    (device.writeAs type).StopsFor [.noCellToRead, .noRoom, .stream] := by
  simp only [writeAs, Tape.numberText]
  cases placed : device.tape.misplaced? type.width with
  | some fault => exact .stopped device (List.mem_append_left [_] (Tape.sort_of_misplaced placed))
  | none =>
      obtain ⟨value, decoded⟩ := NumericType.decode_of_length (Tape.length_span_of_placed placed)
      simp only [decoded]
      exact (emit_stopsFor _ device).of_subset (by simp)

private theorem readLine_stopsFor (device : Device) :
    device.readLine.StopsFor [.stream, .noCellToStore] := by
  fun_induction readLine device with
  | case1 tape input output reason later answered => exact .stopped _ List.mem_cons_self
  | case2 tape input output later answered => exact .done _
  | case3 tape input output later answered => exact .done _
  | case4 tape input output byte later answered _ last cause stored =>
      obtain ⟨fault, rfl, member⟩ := Tape.storeNext_stopsFor byte tape last cause stored
      exact .stopped _ (List.mem_cons_of_mem _ member)
  | case5 tape input output byte later answered _ next _ ih => exact ih

/-- Where a cell was read, a step forward has room, and writing has not moved the pointer. -/
theorem stepForward_after_emit {device written : Device} {chunk : Bytes} {value : UInt8}
    (current : device.tape.current = .ok value) (emitted : device.emit chunk = .done written) :
    written.onTape Tape.stepForward =
      .done { written with tape.pointer := written.tape.pointer + 1 } := by
  have unmoved := tape_state_emit chunk device
  rw [emitted] at unmoved
  have before : written.tape.pointer < written.tape.size := by
    rw [Outcome.state] at unmoved
    rw [unmoved]
    exact (Tape.onCell_of_current current).2
  obtain ⟨tape, input, output⟩ := written
  simp only at before
  simp only [onTape, Tape.stepForward, before, ↓reduceIte]

private theorem writeRun_stopsFor (device : Device) :
    device.writeRun.StopsFor [.noCellToRead, .stream] := by
  fun_induction writeRun device with
  | case1 device fault current =>
      rw [Tape.eq_of_current_error current]
      exact .stopped device List.mem_cons_self
  | case2 device current => exact .done device
  | case3 device value current nonzero last cause emitted =>
      obtain ⟨fault, rfl, member⟩ := emit_stopsFor [value] device last cause emitted
      exact .stopped last (List.mem_cons_of_mem _ member)
  | case4 device value current nonzero written emitted last cause stopped =>
      rw [stepForward_after_emit current emitted] at stopped
      cases stopped
  | case5 device value current nonzero written emitted next moved ih => exact ih

end Device

namespace Instruction

/-- What the instruction lays out on cells is a number that its type holds. -/
def Encodable : Instruction → Prop
  | setAs type value => type.Holds value
  | _ => True

variable {instruction : Instruction} (encodable : instruction.Encodable) (device : Device)

include encodable

theorem act_stopsFor : (instruction.act device).StopsFor instruction.mnemonic.faults := by
  cases instruction with
  | moveForward steps => exact Device.onTape_stopsFor (Tape.moveForward_stopsFor _ _)
  | moveBackward steps => exact Device.onTape_stopsFor (Tape.moveBackward_stopsFor _ _)
  | increment amount => exact Device.onTape_stopsFor (Tape.increment_stopsFor _ _)
  | decrement amount => exact Device.onTape_stopsFor (Tape.decrement_stopsFor _ _)
  | loopOpen | loopClose => exact .done device
  | readByte => exact device.readByte_stopsFor
  | readLine => exact device.readLine_stopsFor
  | writeCell => exact device.writeCell_stopsFor
  | writeAs type => exact device.writeAs_stopsFor type
  | setString text => exact Device.onTape_stopsFor (Tape.setString_stopsFor text _)
  | setAs type value => exact Device.onTape_stopsFor (Tape.setAs_stopsFor encodable _)
  | writeRun => exact device.writeRun_stopsFor
  | clearRun => exact Device.onTape_stopsFor (Tape.clearRun_stopsFor _)

theorem act_faultsOnly : (instruction.act device).FaultsOnly := by
  intro last cause stopped
  obtain ⟨fault, rfl, _⟩ := act_stopsFor encodable device last cause stopped
  exact ⟨fault, rfl⟩

end Instruction

end WordTape
