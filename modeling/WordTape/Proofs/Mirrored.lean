import WordTape.Machine

/-!
# Operations and images of states

An operation may do the same in two states, of which one is an image of the other: more
cells, say, or another account of the requests. Where it does not, it was stopped in the
first state by a cause that the image is excused from.
-/

set_option autoImplicit false

namespace WordTape

namespace Outcome

variable {State : Type}

/-- The second outcome is the image of the first, unless an excused cause stopped the
first. -/
inductive Mirrored (image : State → State) (excused : Interruption → Prop) :
    Outcome State → Outcome State → Prop where
  | done (state : State) : Mirrored image excused (.done state) (.done (image state))
  | stopped (last : State) (cause : Interruption) :
      Mirrored image excused (.stopped last cause) (.stopped (image last) cause)
  | excused {last : State} {cause : Interruption} {other : Outcome State} :
      excused cause → Mirrored image excused (.stopped last cause) other

/-- An operation does in the image of a state what it does in the state. -/
def Mirrors (image : State → State) (excused : Interruption → Prop)
    (operation : State → Outcome State) : Prop :=
  ∀ state, Mirrored image excused (operation state) (operation (image state))

variable {image : State → State} {excused : Interruption → Prop}

theorem Mirrored.andThen {outcome other : Outcome State} {next : State → Outcome State}
    (here : Mirrored image excused outcome other)
    (there : Mirrors image excused next) :
    Mirrored image excused (outcome.andThen next) (other.andThen next) := by
  cases here with
  | done state => exact there state
  | stopped last cause => exact .stopped last cause
  | excused allowed => exact .excused allowed

/-- What an operation does in a state it does in the image, unless it is stopped. -/
theorem Mirrored.of_done {state : State} {other : Outcome State}
    (mirrored : Mirrored image excused (.done state) other) : other = .done (image state) := by
  cases mirrored with
  | done => rfl

/-- An operation that was stopped goes on neither in the state nor in the image. -/
theorem Mirrored.stop {last : State} {cause : Interruption} {other : Outcome State}
    (mirrored : Mirrored image excused (.stopped last cause) other)
    (next : State → Outcome State) :
    Mirrored image excused (.stopped last cause) (other.andThen next) := by
  cases mirrored with
  | stopped => exact .stopped last cause
  | excused allowed => exact .excused allowed

end Outcome

/-- Instructions and tests do the same on the image of a device. -/
structure Device.Mirror (image : Device → Device) (excused : Interruption → Prop) : Prop where
  act : ∀ instruction : Instruction, Outcome.Mirrors image excused instruction.act
  current : ∀ device value, device.tape.current = .ok value →
    (image device).tape.current = .ok value
  test : ∀ device fault, device.tape.current = .error fault →
    excused (.fault fault) ∨ (image device).tape.current = .error fault

end WordTape
