import WordTape.Proofs.BoundedRun
import WordTape.Proofs.Structure.Statement

/-!
# The meaning of statements

A closed loop means: execute the body, then test the current cell, and repeat while
it is not zero. A loop that stays open means nothing. An evaluation is given a number
of rounds that bounds how often the body of each loop is executed at one time; it
comes to nothing exactly if some loop needs more.
-/

set_option autoImplicit false

namespace WordTape

inductive Verdict where
  | completed (device : Device)
  | faulted (device : Device) (fault : RunFault)

namespace Verdict

def ofEnd (fault? : Option RunFault) (device : Device) : Verdict :=
  match fault? with
  | none => completed device
  | some fault => faulted device fault

def andThen (evaluated : Option Verdict) (next : Device → Option Verdict) : Option Verdict :=
  match evaluated with
  | some (.completed device) => next device
  | some (.faulted device fault) => some (.faulted device fault)
  | none => none

/-- The test at the end of a loop body: the loop is left at a zero cell, and else it
goes on. -/
def test (closing : Token) (again : Device → Option Verdict) (device : Device) :
    Option Verdict :=
  match device.tape.current with
  | .error fault => some (.faulted device (.interrupted closing (.fault fault)))
  | .ok value => if value = 0 then some (.completed device) else again device

/-- Executes a loop body, tests, and repeats this until a test leaves the loop. -/
def repeated (body : Device → Option Verdict) (closing : Token) :
    (rounds : Nat) → Device → Option Verdict
  | 0, _ => none
  | rounds + 1, device => andThen (body device) (test closing (repeated body closing rounds))

/-- Whatever fault an evaluation comes to is one of the given faults. -/
def FaultsIn (allowed : RunFault → Prop) (evaluated : Option Verdict) : Prop :=
  ∀ device fault, evaluated = some (.faulted device fault) → allowed fault

section

variable {allowed : RunFault → Prop} {evaluated : Option Verdict}

theorem FaultsIn.andThen {next : Device → Option Verdict} (here : FaultsIn allowed evaluated)
    (there : ∀ device, FaultsIn allowed (next device)) :
    FaultsIn allowed (Verdict.andThen evaluated next) := by
  intro last fault result
  match evaluated with
  | some (.completed device) => exact there device last fault result
  | some (.faulted _ _) => exact here last fault result
  | none => cases result

theorem FaultsIn.repeated {body : Device → Option Verdict} {closing : Token}
    (bodyFaults : ∀ device, FaultsIn allowed (body device))
    (testFaults : ∀ cause, allowed (.interrupted closing (.fault cause))) (rounds : Nat)
    (device : Device) : FaultsIn allowed (Verdict.repeated body closing rounds device) := by
  induction rounds generalizing device with
  | zero =>
      intro last fault result
      cases result
  | succ rounds ih =>
      refine (bodyFaults device).andThen fun device => ?_
      intro last fault result
      simp only [test] at result
      split at result
      · cases result
        exact testFaults _
      · split at result
        · cases result
        · exact ih device last fault result

end

end Verdict

def Instruction.evaluate (token : Token) (instruction : Instruction) (device : Device) :
    Option Verdict :=
  match instruction.act device with
  | .done device => some (.completed device)
  | .stopped device cause => some (.faulted device (.interrupted token cause))

mutual

def Statement.evaluate (rounds : Nat) : Statement → Device → Option Verdict
  | .plain token instruction, device => instruction.evaluate token device
  | .loop body closing, device =>
      Verdict.repeated (Statement.evaluateAll rounds body) closing rounds device

def Statement.evaluateAll (rounds : Nat) : List Statement → Device → Option Verdict
  | [], device => some (.completed device)
  | statement :: rest, device =>
      Verdict.andThen (statement.evaluate rounds device) (Statement.evaluateAll rounds rest)

end

def Item.evaluate (rounds : Nat) : Item → Device → Option Verdict
  | .statement inner, device => inner.evaluate rounds device
  | .openLoop _, device => some (.completed device)

def Item.evaluateAll (rounds : Nat) : List Item → Device → Option Verdict
  | [], device => some (.completed device)
  | item :: rest, device =>
      Verdict.andThen (item.evaluate rounds device) (Item.evaluateAll rounds rest)

theorem Verdict.andThen_completed (evaluated : Option Verdict) :
    Verdict.andThen evaluated (fun device => some (.completed device)) = evaluated := by
  match evaluated with
  | some (.completed _) => rfl
  | some (.faulted _ _) => rfl
  | none => rfl

theorem Statement.evaluateAll_singleton (rounds : Nat) (statement : Statement)
    (device : Device) :
    Statement.evaluateAll rounds [statement] device = statement.evaluate rounds device :=
  Verdict.andThen_completed _

theorem Item.evaluateAll_eq_statements (rounds : Nat) (items : List Item) (device : Device) :
    Item.evaluateAll rounds items device =
      Statement.evaluateAll rounds (items.filterMap Item.statement?) device := by
  induction items generalizing device with
  | nil => rfl
  | cons item rest ih =>
      have rests : Item.evaluateAll rounds rest =
          Statement.evaluateAll rounds (rest.filterMap Item.statement?) := funext ih
      cases item with
      | statement inner =>
          simp only [Item.evaluateAll, Item.evaluate, rests, List.filterMap_cons,
            Item.statement?, Statement.evaluateAll]
      | openLoop position =>
          simp only [Item.evaluateAll, Item.evaluate, Verdict.andThen, rests,
            List.filterMap_cons, Item.statement?]

/-- Evaluates the statements of a program, and then the fault that ended its reading. -/
def Outline.evaluate (rounds : Nat) (outline : Outline) (device : Device) : Option Verdict :=
  Verdict.andThen (Item.evaluateAll rounds outline.items device) fun device =>
    some (.ofEnd outline.fault? device)

namespace BoundedRun

variable {State Result Outcome : Type} (machine : BoundedRun State Result Outcome)

/-- What a machine does from a state when an evaluation comes to a verdict: it arrives
at a state that is related to the device that is left, it ends with an outcome that
shows the fault, or it outlasts the rounds of the evaluation. -/
def Carries (rounds : Nat) (arrives : Device → State → Prop)
    (shows : Device → RunFault → Outcome) (state : State) : Option Verdict → Prop
  | some (.completed device) => ∃ next, arrives device next ∧ machine.Reaches state next
  | some (.faulted device fault) => machine.Ends state (shows device fault)
  | none => machine.Outlasts rounds state

variable {machine} {rounds : Nat} {arrives leaves : Device → State → Prop}
  {shows : Device → RunFault → Outcome} {state first : State} {evaluated : Option Verdict}

theorem Reaches.carries (reached : machine.Reaches first state)
    (carried : machine.Carries rounds arrives shows state evaluated) :
    machine.Carries rounds arrives shows first evaluated := by
  match evaluated with
  | some (.completed device) =>
      obtain ⟨next, arrived, later⟩ := carried
      exact ⟨next, arrived, reached.trans later⟩
  | some (.faulted device fault) => exact reached.ends carried
  | none => exact reached.outlasts carried

theorem Carries.of_le {fewer : Nat}
    (carried : machine.Carries rounds arrives shows state evaluated) (within : fewer ≤ rounds) :
    machine.Carries fewer arrives shows state evaluated := by
  match evaluated with
  | some (.completed _) => exact carried
  | some (.faulted _ _) => exact carried
  | none => exact Outlasts.of_le carried within

theorem Carries.imp (carried : machine.Carries rounds arrives shows state evaluated)
    (implies : ∀ device state, arrives device state → leaves device state) :
    machine.Carries rounds leaves shows state evaluated := by
  match evaluated with
  | some (.completed device) =>
      obtain ⟨next, arrived, reached⟩ := carried
      exact ⟨next, implies device next arrived, reached⟩
  | some (.faulted _ _) => exact carried
  | none => exact carried

theorem Carries.of_step {next : State}
    (step : ∀ bound, machine.run (bound + 1) state = machine.run bound next)
    (carried : machine.Carries rounds arrives shows next evaluated) :
    machine.Carries (rounds + 1) arrives shows state evaluated := by
  match evaluated with
  | some (.completed _) => exact (Reaches.of_step step).carries carried
  | some (.faulted _ _) => exact (Reaches.of_step step).carries carried
  | none => exact Outlasts.of_step step carried

theorem Carries.andThen {next : Device → Option Verdict}
    (here : machine.Carries rounds arrives shows state evaluated)
    (there : ∀ device state, arrives device state →
      machine.Carries rounds leaves shows state (next device)) :
    machine.Carries rounds leaves shows state (Verdict.andThen evaluated next) := by
  match evaluated with
  | some (.completed device) =>
      obtain ⟨middle, arrived, reached⟩ := here
      exact reached.carries (there device middle arrived)
  | some (.faulted _ _) => exact here
  | none => exact here

theorem Ends.carries (outcome : Verdict → Outcome) {verdict : Verdict}
    (ended : machine.Ends state (outcome verdict)) :
    machine.Carries rounds (fun device next => machine.Ends next (outcome (.completed device)))
      (fun device fault => outcome (.faulted device fault)) state (some verdict) := by
  cases verdict with
  | completed device => exact ⟨state, ended, .refl⟩
  | faulted device fault => exact ended

/-- A machine that is carried to its end follows the evaluation. -/
theorem Follows.of_carries {evaluate : Nat → Option Verdict} {outcome : Verdict → Outcome}
    (carried : ∀ rounds, machine.Carries rounds
      (fun device next => machine.Ends next (outcome (.completed device)))
      (fun device fault => outcome (.faulted device fault)) state (evaluate rounds)) :
    machine.Follows state fun rounds => (evaluate rounds).map outcome where
  ends {rounds shown} evaluated := by
    have carried := carried rounds
    cases verdict : evaluate rounds with
    | none => simp [verdict] at evaluated
    | some verdict' =>
        simp only [verdict, Option.map_some, Option.some.injEq] at evaluated
        subst evaluated
        rw [verdict] at carried
        cases verdict' with
        | completed device =>
            obtain ⟨next, ended, reached⟩ := carried
            exact reached.ends ended
        | faulted device fault => exact carried
  outlasts {rounds} evaluated := by
    have carried := carried rounds
    rwa [Option.map_eq_none_iff.mp evaluated] at carried

/-- The rule for loops. The invariant `enters` holds before the body and `tests` before
the test; a test leaves the loop or takes a step back to the body. -/
theorem Carries.repeated (enters tests : Device → State → Prop)
    {body : Device → Option Verdict} {closing : Token} {count : Nat}
    (unended : ∀ device state, enters device state → machine.Outlasts 0 state)
    (bodyCarries : ∀ device state, enters device state →
      machine.Carries rounds tests shows state (body device))
    (faults : ∀ device state fault, tests device state → device.tape.current = .error fault →
      machine.Ends state (shows device (.interrupted closing (.fault fault))))
    (exits : ∀ device state, tests device state → device.tape.current = .ok 0 →
      ∃ next, leaves device next ∧ machine.Reaches state next)
    (repeats : ∀ device state value, tests device state → device.tape.current = .ok value →
      value ≠ 0 → ∃ next, enters device next ∧
        ∀ bound, machine.run (bound + 1) state = machine.run bound next)
    (within : count ≤ rounds) {device : Device} {state : State} (entered : enters device state) :
    machine.Carries count leaves shows state (Verdict.repeated body closing count device) := by
  induction count generalizing device state with
  | zero => exact unended device state entered
  | succ count ih =>
      refine ((bodyCarries device state entered).of_le within).andThen ?_
      intro device state tested
      cases current : device.tape.current with
      | error fault =>
          simp only [Verdict.test, current]
          exact faults device state fault tested current
      | ok value =>
          by_cases zero : value = 0
          · simp only [Verdict.test, current, zero, ↓reduceIte]
            exact exits device state tested (zero ▸ current)
          · simp only [Verdict.test, current, zero, ↓reduceIte]
            obtain ⟨next, entered, step⟩ := repeats device state value tested current zero
            exact (ih (Nat.le_of_succ_le within) entered).of_step step

end BoundedRun

end WordTape
