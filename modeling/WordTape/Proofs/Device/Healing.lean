import WordTape.Proofs.Device.Dialogue
import WordTape.Proofs.Invariants

/-!
# Streams that never fail

A device is healed by streams that never fail and otherwise answer as before. A dialogue
with streams that may fail is the same as with healed ones, up to the first request that is
refused. What the requests that are granted do not break holds up to there, too.
-/

set_option autoImplicit false

namespace WordTape

def Outcome.map {State : Type} (change : State → State) : Outcome State → Outcome State
  | done state => done (change state)
  | stopped state cause => stopped (change state) cause

/-- The answer, or another in place of a failure. -/
def Reply.orElse (answer other : Reply) : Reply :=
  match answer with
  | failure _ => other
  | endOfInput => endOfInput
  | byte value => byte value

namespace Device

/-- The device with a stream of input that answers a request by the steady replies where it
failed before, and with a stream of output that accepts every write. -/
def healed (steady : Nat → Reply) (device : Device) : Device :=
  { device with
    input.reply := fun request => (device.input.reply request).orElse (steady request)
    output.refusal := fun _ => none }

/-- The device with streams that answer reads and writes in another way. -/
def withStreams (reply : Nat → Reply) (refusal : Nat → Option Bytes) (device : Device) :
    Device :=
  { device with
    input.reply := reply
    output.refusal := refusal }

/-- Neither another tape nor a request that is granted leads out of the property. -/
structure Kept (holds : Device → Prop) : Prop where
  tape : ∀ (device : Device) (tape : Tape), holds device → holds { device with tape }
  ask : ∀ (device : Device) (request : Request), device.refusal? request = none →
    holds device → holds (device.ask request)

theorem kept_true : Kept fun _ => True where
  tape := fun _ _ _ => trivial
  ask := fun _ _ _ _ => trivial

theorem Kept.and {first second : Device → Prop} (left : Kept first) (right : Kept second) :
    Kept fun device => first device ∧ second device where
  tape := fun device tape holds => ⟨left.tape device tape holds.1, right.tape device tape holds.2⟩
  ask := fun device request granted holds =>
    ⟨left.ask device request granted holds.1, right.ask device request granted holds.2⟩

/-- The streams of the device never fail, but for flushes of the output. -/
structure Healthy (device : Device) : Prop where
  accepts : ∀ write, device.output.refusal write = none
  delivers : ∀ request reason, device.input.reply request ≠ .failure reason

theorem Healthy.grants {device : Device} (healthy : device.Healthy) (request : Request) :
    device.refusal? request = none := by
  cases request with
  | write chunk => exact healthy.accepts _
  | read =>
      rw [Option.eq_none_iff_forall_ne_some]
      intro reason refused
      exact healthy.delivers _ reason (refusal?_read_eq_some.mp refused)

@[simp] theorem tape_ask (request : Request) (device : Device) :
    (device.ask request).tape = device.tape := by
  cases request <;> rfl

@[simp] theorem reply_ask (request : Request) (device : Device) :
    (device.ask request).input.reply = device.input.reply := by
  cases request <;> rfl

@[simp] theorem refusal_ask (request : Request) (device : Device) :
    (device.ask request).output.refusal = device.output.refusal := by
  cases request with
  | read => rfl
  | write chunk =>
      simp only [ask, Output.write]
      split <;> rfl

theorem healthy_kept : Kept Healthy where
  tape := fun _ _ healthy => ⟨healthy.accepts, healthy.delivers⟩
  ask := by
    intro device request _ healthy
    constructor
    · rw [refusal_ask]
      exact healthy.accepts
    · rw [reply_ask]
      exact healthy.delivers

variable {device : Device} {request : Request}

theorem Kept.step {holds : Device → Prop} (kept : Kept holds) (tape : Tape)
    (granted : device.refusal? request = none) (start : holds device) :
    holds ({ device with tape }.ask request) := by
  apply kept.ask _ _ _ (kept.tape device tape start)
  rw [refusal?_withTape, granted]

section

variable (steady : Nat → Reply)

theorem orElse_of_granted (granted : device.refusal? .read = none) (other : Reply) :
    (device.input.reply device.input.requests).orElse other =
      device.input.reply device.input.requests := by
  cases reply : device.input.reply device.input.requests with
  | byte value | endOfInput => rfl
  | failure reason =>
      rw [refusal?_read_eq_some.mpr reply] at granted
      cases granted

private theorem refusal?_healed (granted : device.refusal? request = none) :
    (device.healed steady).refusal? request = none := by
  cases request with
  | write chunk => rfl
  | read =>
      have same := orElse_of_granted granted (steady device.input.requests)
      simp only [refusal?, healed, same]
      exact granted

theorem answer?_healed (granted : device.refusal? request = none) :
    (device.healed steady).answer? request = device.answer? request := by
  cases request with
  | write chunk => rfl
  | read =>
      have same := orElse_of_granted granted (steady device.input.requests)
      simp only [answer?, healed, same]

private theorem ask_healed (granted : device.refusal? request = none) :
    (device.healed steady).ask request = (device.ask request).healed steady := by
  obtain ⟨tape, input, output⟩ := device
  cases request with
  | write chunk =>
      simp only [refusal?] at granted
      simp only [ask, healed, Output.write, granted]
  | read =>
      have same := orElse_of_granted granted (steady input.requests)
      simp only [ask, healed, Input.read, same]

end

section

variable {first : Device} {reply : Nat → Reply} {refusal : Nat → Option Bytes}

theorem withStreams_healed (steady : Nat → Reply)
    (same : (first.withStreams reply refusal).SameBehavior device) :
    (device.healed steady).withStreams reply refusal = device := by
  have replies : device.input.reply = reply := same.reply
  have refuses : device.output.refusal = refusal := same.refusal
  rw [← replies, ← refuses]
  rfl

/-- Streams that differ from healthy ones only where they fail are healed by these. -/
theorem Healthy.healed_withStreams (healthy : device.Healthy)
    (cuts : ∀ request, reply request = device.input.reply request ∨
      ∃ reason, reply request = .failure reason) :
    (device.withStreams reply refusal).healed device.input.reply = device := by
  obtain ⟨tape, input, output⟩ := device
  have accepts : (fun _ => none) = output.refusal := by
    funext write
    exact (healthy.accepts write).symm
  have replies : (fun request => (reply request).orElse (input.reply request)) = input.reply := by
    funext request
    rcases cuts request with same | ⟨reason, failed⟩
    · rw [same]
      cases input.reply request <;> rfl
    · rw [failed]
      rfl
  simp only [withStreams, healed, accepts, replies]

end

end Device

namespace Dialogue

open Device

variable {holds : Device → Prop} {dialogue : Dialogue} {device moment : Device}
  {request : Request}

theorem Makes.keeps (kept : Kept holds) (makes : dialogue.Makes device request moment)
    (start : holds device) : holds moment := by
  induction makes with
  | here => exact kept.tape _ _ start
  | later granted makes ih => exact ih (kept.step _ granted start)

theorem Makes.healed (steady : Nat → Reply) (makes : dialogue.Makes device request moment) :
    dialogue.Makes (device.healed steady) request (moment.healed steady) := by
  induction makes with
  | here => exact .here
  | @later tape first request next device moment granted makes ih =>
      have granting := (refusal?_withTape first tape device).trans granted
      rw [← ask_healed steady granting, ← answer?_healed steady granted] at ih
      exact .later (refusal?_healed steady granted) ih

/-- A dialogue comes to a request that is refused, or what holds of the device still holds
and the dialogue is the same with streams that never fail. -/
theorem hold_cases (steady : Nat → Reply) (kept : Kept holds) (dialogue : Dialogue)
    (start : holds device) :
    (∃ request moment reason, dialogue.Makes device request moment ∧
      moment.refusal? request = some reason ∧
      dialogue.hold device = .stopped (moment.ask request) (.fault (.stream reason))) ∨
    holds (dialogue.hold device).state ∧
      dialogue.hold (device.healed steady) = (dialogue.hold device).map (healed steady) := by
  induction dialogue generalizing device with
  | finish outcome =>
      right
      cases outcome with
      | done tape | stopped tape cause => exact ⟨kept.tape device tape start, rfl⟩
  | ask tape request next ih =>
      cases refused : device.refusal? request with
      | some reason =>
          have stops := (refusal?_withTape request tape device).trans refused
          refine .inl ⟨request, _, reason, .here, stops, ?_⟩
          simp only [hold, refused]
      | none =>
          have granting := (refusal?_withTape request tape device).trans refused
          have same : (ask tape request next).hold device =
              (next (device.answer? request)).hold ({ device with tape }.ask request) := by
            simp only [hold, refused]
          have sameHealed : (ask tape request next).hold (device.healed steady) =
              (next (device.answer? request)).hold
                (({ device with tape }.ask request).healed steady) := by
            rw [hold, refusal?_healed steady refused, answer?_healed steady refused,
              ← ask_healed steady granting]
            rfl
          rcases ih (device.answer? request) (kept.step tape refused start) with
            ⟨later, moment, reason, makes, stops, held⟩ | ⟨still, healed⟩
          · exact .inl ⟨later, moment, reason, .later refused makes, stops, same.trans held⟩
          · right
            rw [same, sameHealed]
            exact ⟨still, healed⟩

/-- Streams that never fail refuse nothing, so that a dialogue is held to its end. -/
theorem hold_keeps (kept : Kept holds) (healthy : device.Healthy) (dialogue : Dialogue)
    (start : holds device) : holds (dialogue.hold device).state := by
  rcases hold_cases device.input.reply (healthy_kept.and kept) dialogue ⟨healthy, start⟩ with
    ⟨request, moment, reason, makes, stops, _⟩ | ⟨still, _⟩
  · rw [(makes.keeps healthy_kept healthy).grants] at stops
    cases stops
  · exact still.2

/-- What holds after a request holds also after the rest of the dialogue. -/
theorem Makes.hold_keeps (kept : Kept holds) (healthy : device.Healthy)
    (makes : dialogue.Makes device request moment) (after : holds (moment.ask request)) :
    holds (dialogue.hold device).state := by
  induction makes with
  | here =>
      simp only [hold, healthy.grants]
      exact Dialogue.hold_keeps kept (healthy_kept.step _ (healthy.grants _) healthy) _ after
  | later granted makes ih =>
      simp only [hold, granted]
      exact ih (healthy_kept.step _ granted healthy) after

end Dialogue

end WordTape
