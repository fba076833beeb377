import Mathlib.Data.List.Count
import WordTape.Proofs.Device.Healing

/-!
# Accounts of requests

The streams of a device count the requests that they have granted: the writes with what was
written, and the reads with the bytes that they have delivered. An input can be cut after so
many bytes, so that it fails from there on.
-/

set_option autoImplicit false

namespace WordTape

def Reply.isByte : Reply → Bool
  | byte _ => true
  | endOfInput | failure _ => false

namespace Input

/-- How many bytes the next requests deliver. -/
def deliveredBy (input : Input) (requests : Nat) : Nat :=
  (List.range requests).countP fun more => (input.reply (input.requests + more)).isByte

private theorem deliveredBy_succ (input : Input) (requests : Nat) :
    input.deliveredBy (requests + 1) =
      input.deliveredBy requests +
        if (input.reply (input.requests + requests)).isByte then 1 else 0 := by
  rw [deliveredBy, List.range_succ, List.countP_append, List.countP_singleton, deliveredBy]

private theorem deliveredBy_succ_le (input : Input) (requests : Nat) :
    input.deliveredBy (requests + 1) ≤ input.deliveredBy requests + 1 := by
  rw [deliveredBy_succ]
  split <;> omega

/-- The input in which every request fails once so many more bytes were delivered. -/
def cut (limit : Nat) (reason : Bytes) (input : Input) : Input :=
  { input with
    reply := fun request =>
      if limit ≤ input.deliveredBy (request - input.requests) then .failure reason
      else input.reply request }

private theorem reply_cut_of_le {limit request : Nat} {input : Input} (reason : Bytes)
    (past : limit ≤ input.deliveredBy (request - input.requests)) :
    (input.cut limit reason).reply request = .failure reason := by
  simp only [cut, past, ↓reduceIte]

/-- An input that is cut answers as before, or it fails for the reason of the cut. -/
theorem reply_cut_cases (limit : Nat) (reason : Bytes) (input : Input) (request : Nat) :
    (input.cut limit reason).reply request = input.reply request ∨
      limit ≤ input.deliveredBy (request - input.requests) ∧
        (input.cut limit reason).reply request = .failure reason := by
  by_cases past : limit ≤ input.deliveredBy (request - input.requests)
  · exact .inr ⟨past, reply_cut_of_le reason past⟩
  · left
    simp only [cut, past, ↓reduceIte]

theorem ofBytes_delivers (data : Array UInt8) (request : Nat) (reason : Bytes) :
    (ofBytes data).reply request ≠ .failure reason := by
  simp only [ofBytes]
  cases data[request]? <;> nofun

private theorem isByte_ofBytes (data : Array UInt8) (request : Nat) :
    ((ofBytes data).reply request).isByte = decide (request < data.size) := by
  by_cases inside : request < data.size
  · simp only [ofBytes, Array.getElem?_eq_getElem inside, Reply.isByte, inside, decide_true]
  · simp only [ofBytes, Array.getElem?_eq_none (Nat.le_of_not_lt inside), Reply.isByte, inside,
      decide_false]

private theorem deliveredBy_ofBytes (data : Array UInt8) (requests : Nat) :
    (ofBytes data).deliveredBy requests = min requests data.size := by
  induction requests with
  | zero => exact (Nat.zero_min _).symm
  | succ requests ih =>
      have first : (ofBytes data).requests + requests = requests := Nat.zero_add requests
      rw [deliveredBy_succ, ih, first, isByte_ofBytes]
      by_cases inside : requests < data.size
      · simp only [inside, decide_true, ↓reduceIte]
        omega
      · simp only [inside, decide_false, Bool.false_eq_true, ↓reduceIte]
        omega

/-- Bytes that fail after so many are the bytes with a cut. -/
theorem failingAfter_eq_cut (limit : Nat) (reason : Bytes) (data : Array UInt8) :
    failingAfter limit reason data = (ofBytes data).cut limit reason := by
  simp only [failingAfter, cut, deliveredBy_ofBytes]
  rfl

end Input

namespace Output

private theorem refusingAfter_eq_none {limit write : Nat} {reason : Bytes} :
    refusingAfter limit reason write = none ↔ write < limit := by
  by_cases within : write < limit
  · simp only [refusingAfter, within, ↓reduceIte]
  · simp only [refusingAfter, within, ↓reduceIte, reduceCtorEq]

theorem refusingAfter_eq_some {limit write : Nat} {reason other : Bytes} :
    refusingAfter limit reason write = some other ↔ limit ≤ write ∧ reason = other := by
  by_cases within : write < limit
  · simp only [refusingAfter, within, ↓reduceIte, reduceCtorEq, Nat.not_le.mpr within, false_and]
  · simp only [refusingAfter, within, ↓reduceIte, Option.some.injEq, Nat.le_of_not_lt within,
      true_and]

end Output

namespace Device

/-- A request that is refused delivers no byte and leaves what was written. -/
theorem ask_refused {device : Device} {request : Request} {reason : Bytes}
    (refused : device.refusal? request = some reason) :
    (device.ask request).input.consumed = device.input.consumed ∧
      (device.ask request).output.chunks = device.output.chunks := by
  cases request with
  | write chunk =>
      refine ⟨rfl, ?_⟩
      simp only [refusal?] at refused
      simp only [ask, Output.write, refused]
  | read =>
      refine ⟨?_, rfl⟩
      have failed := refusal?_read_eq_some.mp refused
      simp only [ask, Input.read, failed]
      rfl

/-- All requests since an earlier state of the device have been granted. -/
structure Unrefused (earlier device : Device) : Prop where
  accepted : ∀ write, earlier.output.writes ≤ write → write < device.output.writes →
    device.output.refusal write = none
  delivered : ∀ request, earlier.input.requests ≤ request → request < device.input.requests →
    ∀ reason, device.input.reply request ≠ .failure reason

theorem Unrefused.refl (device : Device) : device.Unrefused device where
  accepted := by omega
  delivered := by omega

theorem delivers_of_granted {device : Device} (granted : device.refusal? .read = none)
    (reason : Bytes) : device.input.reply device.input.requests ≠ .failure reason := by
  intro failed
  rw [refusal?_read_eq_some.mpr failed] at granted
  cases granted

theorem ask_write_granted {device : Device} {chunk : Bytes}
    (granted : device.refusal? (.write chunk) = none) :
    device.ask (.write chunk) =
      { device with
        output.writes := device.output.writes + 1
        output.chunks := device.output.chunks.push chunk } := by
  simp only [refusal?] at granted
  simp only [ask, Output.write, granted]

theorem unrefused_kept (earlier : Device) : Kept (earlier.Unrefused) where
  tape := fun _ _ before => ⟨before.accepted, before.delivered⟩
  ask := by
    intro device request granted before
    cases request with
    | read =>
        refine ⟨before.accepted, ?_⟩
        intro request since counted
        rcases Nat.lt_succ_iff_lt_or_eq.mp counted with sooner | rfl
        · exact before.delivered request since sooner
        · exact delivers_of_granted granted
    | write chunk =>
        rw [ask_write_granted granted]
        refine ⟨?_, before.delivered⟩
        intro write since counted
        rcases Nat.lt_succ_iff_lt_or_eq.mp counted with sooner | rfl
        · exact before.accepted write since sooner
        · exact granted

section

variable {earlier device : Device} {reply : Nat → Reply} {refusal : Nat → Option Bytes}
  {limit : Nat} {reason : Bytes}

/-- Writes that were all granted are no more than the limit of the output. -/
theorem Unrefused.writes_le
    (unrefused : Unrefused
      (earlier.withStreams reply
        (Output.refusingAfter (earlier.output.writes + limit) reason))
      (device.withStreams reply
        (Output.refusingAfter (earlier.output.writes + limit) reason))) :
    device.output.writes ≤ earlier.output.writes + limit := by
  by_contra past
  have granted := unrefused.accepted (earlier.output.writes + limit) (Nat.le_add_right _ _)
    (Nat.lt_of_not_le past)
  exact absurd (Output.refusingAfter_eq_none.mp granted) (Nat.lt_irrefl _)

section

variable
  (unrefused : Unrefused
    (earlier.withStreams (earlier.input.cut limit reason).reply refusal)
    (device.withStreams (earlier.input.cut limit reason).reply refusal))

include unrefused

/-- Before a read that was granted an input that is cut has not delivered its last byte. -/
theorem Unrefused.deliveredBy_lt {request : Nat} (since : earlier.input.requests ≤ request)
    (counted : request < device.input.requests) :
    earlier.input.deliveredBy (request - earlier.input.requests) < limit := by
  by_contra past
  exact unrefused.delivered request since counted reason
    (Input.reply_cut_of_le reason (Nat.le_of_not_lt past))

theorem Unrefused.deliveredBy_le :
    earlier.input.deliveredBy (device.input.requests - earlier.input.requests) ≤ limit := by
  cases asked : device.input.requests - earlier.input.requests with
  | zero => exact Nat.zero_le _
  | succ more =>
      have before := unrefused.deliveredBy_lt (Nat.le_add_right earlier.input.requests more)
        (by omega)
      rw [Nat.add_sub_cancel_left] at before
      have next := earlier.input.deliveredBy_succ_le more
      omega

end

end

/-- The streams have counted on since an earlier state of the device. -/
structure Extends (earlier device : Device) : Prop where
  writes : earlier.output.writes ≤ device.output.writes
  requests : earlier.input.requests ≤ device.input.requests
  chunks : earlier.output.chunks.toList <+: device.output.chunks.toList

theorem Extends.refl (device : Device) : device.Extends device where
  writes := Nat.le_refl _
  requests := Nat.le_refl _
  chunks := List.prefix_rfl

theorem extends_kept (earlier : Device) : Kept (earlier.Extends) where
  tape := fun _ _ before => ⟨before.writes, before.requests, before.chunks⟩
  ask := by
    intro device request granted before
    cases request with
    | read => exact ⟨before.writes, Nat.le_succ_of_le before.requests, before.chunks⟩
    | write chunk =>
        rw [ask_write_granted granted]
        refine ⟨Nat.le_succ_of_le before.writes, before.requests, ?_⟩
        rw [Array.toList_push]
        exact before.chunks.trans (List.prefix_append _ _)

/-- The streams have counted what they have granted since an earlier state. -/
structure Counts (earlier device : Device) : Prop where
  chunks : device.output.chunks.size + earlier.output.writes =
    earlier.output.chunks.size + device.output.writes
  consumed : device.input.consumed = earlier.input.consumed +
    earlier.input.deliveredBy (device.input.requests - earlier.input.requests)
  since : earlier.input.requests ≤ device.input.requests
  reply : device.input.reply = earlier.input.reply

theorem Counts.refl (device : Device) : device.Counts device where
  chunks := rfl
  consumed := by rw [Nat.sub_self]; rfl
  since := Nat.le_refl _
  reply := rfl

theorem counts_kept (earlier : Device) : Kept (earlier.Counts) where
  tape := fun _ _ before => ⟨before.chunks, before.consumed, before.since, before.reply⟩
  ask := by
    intro device request granted before
    cases request with
    | read =>
        have counted := before.consumed
        have since := before.since
        have further : device.input.requests + 1 - earlier.input.requests =
            device.input.requests - earlier.input.requests + 1 := by omega
        have here : earlier.input.requests +
            (device.input.requests - earlier.input.requests) = device.input.requests := by omega
        refine ⟨before.chunks, ?_, Nat.le_succ_of_le since, before.reply⟩
        simp only [ask, Input.read]
        rw [further, Input.deliveredBy_succ, here, ← before.reply, counted, Nat.add_assoc]
        congr 2
        cases device.input.reply device.input.requests <;> rfl
    | write chunk =>
        rw [ask_write_granted granted]
        refine ⟨?_, before.consumed, before.since, before.reply⟩
        have counted := before.chunks
        simp only [Array.size_push]
        omega

theorem sameBehavior_kept (first : Device) : Kept (first.SameBehavior) where
  tape := fun _ _ same => ⟨same.reply, same.refusal, same.flushRefusal⟩
  ask := by
    intro device request granted same
    cases request with
    | read => exact ⟨same.reply, same.refusal, same.flushRefusal⟩
    | write chunk =>
        rw [ask_write_granted granted]
        exact ⟨same.reply, same.refusal, same.flushRefusal⟩

end Device

end WordTape
