/-!
# Runs of bounded length

A machine that may run for ever is given by its runs of bounded length. A run that
has ended shows an outcome and is not changed by a larger bound. An evaluation with
a bound of its own describes the same behaviour if its outcomes are outcomes of the
machine, and a bound that it exhausts is also exhausted by the machine.
-/

set_option autoImplicit false

namespace WordTape

structure BoundedRun (State Result Outcome : Type) where
  run : (bound : Nat) → State → Result
  outcome? : Result → Option Outcome
  persists : ∀ bound more state outcome, outcome? (run bound state) = some outcome →
    run (bound + more) state = run bound state

namespace BoundedRun

variable {State Result Outcome : Type} (machine : BoundedRun State Result Outcome)

/-- After some steps from the first state the machine is in the second one. -/
def Reaches (first second : State) : Prop :=
  ∃ steps, ∀ bound, machine.run (steps + bound) first = machine.run bound second

def Ends (state : State) (outcome : Outcome) : Prop :=
  ∃ bound, machine.outcome? (machine.run bound state) = some outcome

/-- The machine has not ended when the bound is reached. -/
def Outlasts (bound : Nat) (state : State) : Prop :=
  machine.outcome? (machine.run bound state) = none

/-- An evaluation agrees with the machine: what it comes to is the outcome of the
machine, and a bound at which it comes to nothing is no bound for the machine. -/
structure Follows (state : State) (evaluate : Nat → Option Outcome) : Prop where
  ends : ∀ {rounds outcome}, evaluate rounds = some outcome → machine.Ends state outcome
  outlasts : ∀ {rounds}, evaluate rounds = none → machine.Outlasts rounds state

variable {machine} {first second third state : State} {outcome : Outcome}

theorem Reaches.refl : machine.Reaches state state :=
  ⟨0, fun bound => by rw [Nat.zero_add]⟩

theorem Reaches.trans (here : machine.Reaches first second)
    (there : machine.Reaches second third) : machine.Reaches first third := by
  obtain ⟨steps, here⟩ := here
  obtain ⟨more, there⟩ := there
  refine ⟨steps + more, fun bound => ?_⟩
  rw [Nat.add_assoc, here, there]

theorem Reaches.of_step
    (step : ∀ bound, machine.run (bound + 1) first = machine.run bound second) :
    machine.Reaches first second :=
  ⟨1, fun bound => by rw [Nat.add_comm]; exact step bound⟩

theorem Reaches.ends (reached : machine.Reaches first second)
    (ended : machine.Ends second outcome) : machine.Ends first outcome := by
  obtain ⟨steps, reached⟩ := reached
  obtain ⟨bound, ended⟩ := ended
  exact ⟨steps + bound, by rw [reached]; exact ended⟩

theorem run_of_le {bound larger : Nat} (within : bound ≤ larger)
    (ended : machine.outcome? (machine.run bound state) = some outcome) :
    machine.run larger state = machine.run bound state := by
  have persists := machine.persists bound (larger - bound) state outcome ended
  rwa [Nat.add_sub_cancel' within] at persists

theorem Ends.unique {other : Outcome} (left : machine.Ends state outcome)
    (right : machine.Ends state other) : outcome = other := by
  obtain ⟨bound, left⟩ := left
  obtain ⟨larger, right⟩ := right
  rcases Nat.le_total bound larger with within | within
  · rw [run_of_le within left, left] at right
    exact Option.some.inj right
  · rw [run_of_le within right, right] at left
    exact (Option.some.inj left).symm

theorem Outlasts.of_le {bound smaller : Nat} (outlasts : machine.Outlasts bound state)
    (within : smaller ≤ bound) : machine.Outlasts smaller state := by
  cases ended : machine.outcome? (machine.run smaller state) with
  | none => exact ended
  | some outcome =>
      rw [Outlasts, run_of_le within ended, ended] at outlasts
      cases outlasts

theorem Reaches.outlasts {bound : Nat} (reached : machine.Reaches first second)
    (outlasts : machine.Outlasts bound second) : machine.Outlasts bound first := by
  obtain ⟨steps, reached⟩ := reached
  have later : machine.Outlasts (steps + bound) first := by
    rw [Outlasts, reached]
    exact outlasts
  exact later.of_le (Nat.le_add_left _ _)

theorem Outlasts.of_step {bound : Nat}
    (step : ∀ bound, machine.run (bound + 1) first = machine.run bound second)
    (outlasts : machine.Outlasts bound second) : machine.Outlasts (bound + 1) first := by
  rw [Outlasts, step]
  exact outlasts

namespace Follows

variable {evaluate : Nat → Option Outcome}

theorem ends_iff (follows : machine.Follows state evaluate) :
    machine.Ends state outcome ↔ ∃ rounds, evaluate rounds = some outcome := by
  constructor
  · intro found
    obtain ⟨bound, ended⟩ := found
    cases evaluated : evaluate bound with
    | none =>
        have outlasts := follows.outlasts evaluated
        rw [Outlasts, ended] at outlasts
        cases outlasts
    | some other =>
        have same := Ends.unique ⟨bound, ended⟩ (follows.ends evaluated)
        exact ⟨bound, by rw [evaluated, same]⟩
  · intro found
    obtain ⟨rounds, evaluated⟩ := found
    exact follows.ends evaluated

theorem outlasts_iff (follows : machine.Follows state evaluate) :
    (∀ bound, machine.Outlasts bound state) ↔ ∀ rounds, evaluate rounds = none := by
  constructor
  · intro outlasts rounds
    cases evaluated : evaluate rounds with
    | none => rfl
    | some outcome =>
        obtain ⟨bound, ended⟩ := follows.ends evaluated
        have unended := outlasts bound
        rw [Outlasts, ended] at unended
        cases unended
  · intro unevaluated bound
    exact follows.outlasts (unevaluated bound)

end Follows

end BoundedRun

end WordTape
