import WordTape.Machine

/-!
# Invariants of runs

A run changes its device by the acts of instructions only, so that a property of
devices that no act breaks holds throughout the run. Among these are the behaviors of
the streams: a program can only make requests, and not change how they are answered.
-/

set_option autoImplicit false

namespace WordTape

def Run.machine : Run → Machine
  | .finished machine => machine
  | .faulted machine _ => machine
  | .suspended _ machine => machine

def Progress.machine : Progress → Machine
  | .next _ machine => machine
  | .faulted machine _ => machine

/-- No act of an instruction leads out of the property. -/
def Device.Invariant (property : Device → Prop) : Prop :=
  ∀ (instruction : Instruction) device, property device → property (instruction.act device).state

namespace Device.Invariant

variable {property : Device → Prop} (invariant : Invariant property)

include invariant

theorem perform {instruction : Instruction} {position : Nat} {token : Token} {machine : Machine}
    (holds : property machine.device) :
    property (Machine.perform instruction position token machine).machine.device := by
  obtain ⟨device, loops, index, events⟩ := machine
  have acted := invariant instruction device holds
  cases instruction with
  | loopOpen => exact holds
  | loopClose =>
      simp only [Machine.perform, Machine.closeLoop]
      split
      · exact holds
      · split
        · exact holds
        · split
          · exact holds
          · exact holds
  | _ =>
      simp only [Machine.perform]
      revert acted
      cases Instruction.act _ device with
      | done next => exact id
      | stopped last cause => exact id

theorem dispatch (tokens : Array Token) (position : Nat) (token : Token) {machine : Machine}
    (holds : property machine.device) :
    property (machine.dispatch tokens position token).machine.device := by
  obtain ⟨device, loops, index, events⟩ := machine
  simp only [Machine.dispatch]
  cases Instruction.fetch tokens position token with
  | error error => exact holds
  | ok instruction => exact invariant.perform holds

theorem execute {tokens : Array Token} (bound position : Nat) {machine : Machine}
    (holds : property machine.device) :
    property (machine.execute tokens bound position).machine.device := by
  induction bound generalizing position machine with
  | zero =>
      cases found : tokens[position]? with
      | none =>
          simp only [Machine.execute, found]
          exact holds
      | some token =>
          simp only [Machine.execute, found]
          exact holds
  | succ bound ih =>
      cases found : tokens[position]? with
      | none =>
          simp only [Machine.execute, found]
          exact holds
      | some token =>
          simp only [Machine.execute, found]
          have progressed := invariant.dispatch tokens position token holds
          cases dispatched : machine.dispatch tokens position token with
          | faulted last fault =>
              rw [dispatched] at progressed
              exact progressed
          | next target next =>
              rw [dispatched] at progressed
              exact ih target progressed

end Device.Invariant

/-! ## The behaviors of the streams -/

/-- How the streams of two devices answer requests is the same. -/
structure Device.SameBehavior (first second : Device) : Prop where
  reply : second.input.reply = first.input.reply
  refusal : second.output.refusal = first.output.refusal
  flushRefusal : second.output.flushRefusal = first.output.flushRefusal

namespace Device.SameBehavior

variable {first second third : Device}

theorem refl (device : Device) : SameBehavior device device :=
  ⟨rfl, rfl, rfl⟩

theorem trans (left : SameBehavior first second) (right : SameBehavior second third) :
    SameBehavior first third :=
  ⟨right.reply.trans left.reply, right.refusal.trans left.refusal,
    right.flushRefusal.trans left.flushRefusal⟩

private theorem onTape (operation : Tape → Outcome Tape) (device : Device) :
    SameBehavior device (device.onTape operation).state := by
  obtain ⟨tape, input, output⟩ := device
  simp only [Device.onTape]
  cases operation tape with
  | done tape => exact ⟨rfl, rfl, rfl⟩
  | stopped tape cause => exact ⟨rfl, rfl, rfl⟩

private theorem emit (chunk : Bytes) (device : Device) :
    SameBehavior device (device.emit chunk).state := by
  obtain ⟨tape, input, output⟩ := device
  simp only [Device.emit, Output.write]
  cases output.refusal output.writes with
  | none => exact ⟨rfl, rfl, rfl⟩
  | some reason => exact ⟨rfl, rfl, rfl⟩

private theorem writeCell (device : Device) : SameBehavior device device.writeCell.state := by
  simp only [Device.writeCell]
  cases device.tape.current with
  | error fault => exact .refl device
  | ok value => exact emit [value] device

private theorem writeAs (type : NumericType) (device : Device) :
    SameBehavior device (device.writeAs type).state := by
  simp only [Device.writeAs]
  cases device.tape.numberText type with
  | error cause => exact .refl device
  | ok text => exact emit text device

private theorem read {tape : Tape} {input later : Input} {output : Output} {answer : Reply}
    (answered : input.read = (answer, later)) (after : Tape) :
    SameBehavior { tape, input, output } { tape := after, input := later, output } := by
  cases answered
  exact ⟨rfl, rfl, rfl⟩

private theorem readByte (device : Device) : SameBehavior device device.readByte.state := by
  obtain ⟨tape, input, output⟩ := device
  simp only [Device.readByte]
  cases answered : input.read with
  | mk answer later =>
      cases answer with
      | failure reason => exact read answered tape
      | endOfInput => exact read answered tape
      | byte value => exact (read answered tape).trans (onTape (Tape.store value) _)

private theorem readLine (device : Device) : SameBehavior device device.readLine.state := by
  fun_induction Device.readLine device with
  | case1 tape input output reason later answered => exact read answered tape
  | case2 tape input output later answered => exact read answered tape
  | case3 tape input output later answered => exact read answered tape
  | case4 tape input output byte later answered _ last cause _ => exact read answered last
  | case5 tape input output byte later answered _ next _ ih => exact (read answered next).trans ih

private theorem writeRun (device : Device) : SameBehavior device device.writeRun.state := by
  have wrote (value : UInt8) (device : Device) := emit [value] device
  have stepped := onTape Tape.stepForward
  fun_induction Device.writeRun device with
  | case1 device fault current => exact .refl device
  | case2 device current => exact .refl device
  | case3 device value current nonzero last cause emitted => exact emitted ▸ wrote value device
  | case4 device value current nonzero written emitted last cause stopped =>
      exact (emitted ▸ wrote value device).trans (stopped ▸ stepped written)
  | case5 device value current nonzero written emitted next moved ih =>
      exact ((emitted ▸ wrote value device).trans (moved ▸ stepped written)).trans ih

end Device.SameBehavior

/-- No instruction changes how the streams answer requests. -/
theorem Instruction.act_sameBehavior (instruction : Instruction) (device : Device) :
    device.SameBehavior (instruction.act device).state := by
  cases instruction with
  | moveForward _ | moveBackward _ | increment _ | decrement _ | setString _ | setAs _ _
  | clearRun => exact .onTape _ device
  | loopOpen | loopClose => exact .refl device
  | readByte => exact .readByte device
  | readLine => exact .readLine device
  | writeCell => exact .writeCell device
  | writeAs type => exact .writeAs type device
  | writeRun => exact .writeRun device

theorem Machine.execute_sameBehavior (tokens : Array Token) (bound position : Nat)
    (machine : Machine) :
    machine.device.SameBehavior (machine.execute tokens bound position).machine.device := by
  have invariant : Device.Invariant (machine.device.SameBehavior) := by
    intro instruction device same
    exact same.trans (instruction.act_sameBehavior device)
  exact invariant.execute bound position (.refl machine.device)

end WordTape
