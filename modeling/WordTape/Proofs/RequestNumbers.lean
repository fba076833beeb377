import WordTape.Proofs.Device.Accounts
import WordTape.Proofs.Requests
import WordTape.Proofs.Structure.Reading

/-!
# Requests by their numbers

The streams count reads and writes, so that a run comes to its read or its write of a number
at one moment only, if its streams never fail.
-/

set_option autoImplicit false

namespace WordTape

def Request.isRead : Request → Bool
  | read => true
  | write _ => false

namespace Device

/-- How many requests of a kind the streams have counted. -/
def count : Request → Device → Nat
  | .read, device => device.input.requests
  | .write _, device => device.output.writes

private theorem count_ask {device : Device} {request : Request}
    (granted : device.refusal? request = none) :
    (device.ask request).count request = device.count request + 1 := by
  cases request with
  | read => rfl
  | write chunk =>
      rw [ask_write_granted granted]
      rfl

private theorem count_alike {first second : Request} (alike : first.isRead = second.isRead)
    (device : Device) : device.count first = device.count second := by
  cases first with
  | read =>
      cases second with
      | read => rfl
      | write chunk => cases alike
  | write chunk =>
      cases second with
      | read => cases alike
      | write other => rfl

theorem Extends.count_le {earlier device : Device} (onward : earlier.Extends device)
    (request : Request) : earlier.count request ≤ device.count request := by
  cases request with
  | read => exact onward.requests
  | write chunk => exact onward.writes

/-- A request made after another of its kind was granted has a higher number. -/
theorem Extends.count_lt {device moment : Device} {first second : Request}
    (onward : (device.ask first).Extends moment) (granted : device.refusal? first = none)
    (alike : first.isRead = second.isRead) : device.count first < moment.count second := by
  have further := onward.count_le first
  rw [count_ask granted] at further
  rw [← count_alike alike]
  exact further

end Device

open Device

/-- A dialogue makes its request of a number once. -/
theorem Dialogue.Makes.unique {dialogue : Dialogue} {device moment later : Device}
    {first second : Request} (makes : dialogue.Makes device first moment)
    (again : dialogue.Makes device second later) (alike : first.isRead = second.isRead)
    (same : moment.count first = later.count second) : first = second ∧ moment = later := by
  induction makes generalizing second later with
  | @here tape first next device =>
      cases again with
      | here => exact ⟨rfl, rfl⟩
      | later granted again =>
          have onward := again.keeps (extends_kept _) (.refl _)
          have stops := (refusal?_withTape first tape device).trans granted
          exact absurd same (onward.count_lt stops alike).ne
  | @later tape early first next device moment granted makes ih =>
      cases again with
      | here =>
          have onward := makes.keeps (extends_kept _) (.refl _)
          have stops := (refusal?_withTape early tape device).trans granted
          exact absurd same (onward.count_lt stops alike.symm).ne'
      | later _ again => exact ih again alike same

namespace Machine

variable {tokens : Array Token} {position next other bound : Nat}
  {machine later different moment : Machine} {token : Token} {instruction : Instruction}
  {request : Request} {device : Device}

theorem Advances.unique (advances : Advances tokens position machine next later)
    (again : Advances tokens position machine other different) :
    next = other ∧ later = different := by
  obtain ⟨token, found, dispatched⟩ := advances.dispatch
  obtain ⟨_, same, other⟩ := again.dispatch
  cases found.symm.trans same
  cases dispatched.symm.trans other
  exact ⟨rfl, rfl⟩

/-- An advance goes on from a request that it makes. -/
theorem Advances.extends (healthy : machine.device.Healthy)
    (advances : Advances tokens position machine next later)
    (stands : Stands tokens position token instruction)
    (makes : (instruction.dialogue machine.device.tape).Makes machine.device request device) :
    (device.ask request).Extends later.device := by
  have instructed {other : Instruction} {token : Token}
      (others : Stands tokens position token other) : instruction = other := by
    cases stands.found.symm.trans others.found
    exact stands.eq_of_stands others
  cases advances with
  | openLoop others =>
      cases instructed others
      cases makes
  | closeLoop others top current =>
      cases instructed others
      cases makes
  | repeatLoop others top current nonzero =>
      cases instructed others
      cases makes
  | act others notOpen notClose acted =>
      cases instructed others
      have onward := makes.hold_keeps (extends_kept _) healthy (.refl _)
      rw [← instruction.act_eq_hold, acted] at onward
      exact onward

/-- A run whose streams never fail comes to its request of a number once. -/
theorem ComesTo.unique {first second : Request} {again : Token} {repeated : Machine}
    (healthy : machine.device.Healthy)
    (comes : ComesTo tokens bound position machine token first moment)
    (returns : ComesTo tokens bound position machine again second repeated)
    (alike : first.isRead = second.isRead)
    (same : moment.device.count first = repeated.device.count second) :
    token = again ∧ first = second ∧ moment = repeated := by
  induction comes with
  | @here bound position machine token instruction request device stands makes =>
      cases returns with
      | here others again =>
          cases stands.found.symm.trans others.found
          cases stands.eq_of_stands others
          obtain ⟨rfl, rfl⟩ := makes.unique again alike same
          exact ⟨rfl, rfl, rfl⟩
      | later advances returns =>
          have onward := advances.extends healthy stands makes
          have granted := (makes.keeps healthy_kept healthy).grants request
          have further := returns.keeps (extends_kept _) onward
          exact absurd same (further.count_lt granted alike).ne
  | @later bound position next machine later moment token request advances comes ih =>
      cases returns with
      | here others again =>
          have onward := advances.extends healthy others again
          have granted := (again.keeps healthy_kept healthy).grants second
          have further := comes.keeps (extends_kept _) onward
          exact absurd same (further.count_lt granted alike.symm).ne'
      | later advancing returns =>
          obtain ⟨rfl, rfl⟩ := advances.unique advancing
          have stays := (advances.granted (fun _ => .endOfInput) healthy_kept healthy).1
          exact ih stays returns alike same

end Machine

end WordTape
