import WordTape.Proofs.Structure.Evaluation
import WordTape.Proofs.Structure.Layout

/-!
# Execution is evaluation

The walk over the tokens of a program with its stack of open loops does what the
statements of the program mean: both come to the same verdict on the same device,
and the walk goes on for ever exactly if no number of rounds is enough.
-/

set_option autoImplicit false

namespace WordTape

def Run.verdict? : Run → Option Verdict
  | .finished machine => some (.completed machine.device)
  | .faulted machine fault => some (.faulted machine.device fault)
  | .suspended _ _ => none

theorem Run.exists_faulted_of_verdict? {run : Run} {device : Device} {fault : RunFault}
    (ended : run.verdict? = some (.faulted device fault)) :
    ∃ last, run = .faulted last fault ∧ last.device = device := by
  cases run with
  | finished machine | suspended position machine => cases ended
  | faulted machine other =>
      cases ended
      exact ⟨machine, rfl, rfl⟩

namespace Machine

variable {tokens : Array Token} {position : Nat} {token : Token} {instruction : Instruction}

theorem execute_end (past : tokens[position]? = none) (bound : Nat) (machine : Machine) :
    execute tokens bound position machine = .finished machine := by
  cases bound <;> simp only [execute, past]

theorem execute_zero (found : tokens[position]? = some token) (machine : Machine) :
    execute tokens 0 position machine = .suspended position machine := by
  simp only [execute, found]

theorem execute_next {machine next : Machine} {target : Nat}
    (found : tokens[position]? = some token)
    (dispatched : machine.dispatch tokens position token = .next target next) (bound : Nat) :
    execute tokens (bound + 1) position machine = execute tokens bound target next := by
  simp only [execute, found, dispatched]

theorem execute_faulted {machine last : Machine} {fault : RunFault}
    (found : tokens[position]? = some token)
    (dispatched : machine.dispatch tokens position token = .faulted last fault) (bound : Nat) :
    execute tokens (bound + 1) position machine = .faulted last fault := by
  simp only [execute, found, dispatched]

theorem execute_persists (tokens : Array Token) (bound more position : Nat)
    (machine : Machine) (verdict : Verdict)
    (ended : (execute tokens bound position machine).verdict? = some verdict) :
    execute tokens (bound + more) position machine = execute tokens bound position machine := by
  cases found : tokens[position]? with
  | none => rw [execute_end found, execute_end found]
  | some token =>
      induction bound generalizing position machine token with
      | zero =>
          rw [execute_zero found] at ended
          cases ended
      | succ bound ih =>
          rw [Nat.add_right_comm]
          cases dispatched : machine.dispatch tokens position token with
          | faulted last fault =>
              rw [execute_faulted found dispatched, execute_faulted found dispatched]
          | next target next =>
              rw [execute_next found dispatched] at ended
              rw [execute_next found dispatched, execute_next found dispatched]
              cases onward : tokens[target]? with
              | none => rw [execute_end onward, execute_end onward]
              | some token => exact ih target next ended token onward

def runs (tokens : Array Token) : BoundedRun (Nat × Machine) Run Verdict where
  run bound state := execute tokens bound state.1 state.2
  outcome? := Run.verdict?
  persists bound more state verdict ended :=
    execute_persists tokens bound more state.1 state.2 verdict ended

/-- A run has come to a position with the given device and open loops. -/
structure At (position : Nat) (loops : List Nat) (device : Device)
    (state : Nat × Machine) : Prop where
  position : state.1 = position
  loops : state.2.loops = loops
  device : state.2.device = device

theorem dispatch_eq_perform (stands : Stands tokens position token instruction)
    (machine : Machine) :
    machine.dispatch tokens position token =
      perform instruction position token { machine with index := position } := by
  obtain ⟨device, loops, index, events⟩ := machine
  simp only [dispatch, stands.reads]

theorem dispatch_unread {error : InstructionError}
    (unread : Instruction.fetch tokens position token = .error error) (machine : Machine) :
    machine.dispatch tokens position token =
      .faulted { machine with index := position } (.notInstruction error) := by
  obtain ⟨device, loops, index, events⟩ := machine
  simp only [dispatch, unread]

theorem perform_eq_act (notOpen : instruction ≠ .loopOpen) (notClose : instruction ≠ .loopClose)
    (position : Nat) (token : Token) (machine : Machine) :
    perform instruction position token machine =
      match instruction.act machine.device with
      | .done device => .next (position + instruction.length) { machine with device }
      | .stopped device cause =>
          .faulted { machine with device } (.interrupted token cause) := by
  obtain ⟨device, loops, index, events⟩ := machine
  cases instruction <;> first | contradiction | rfl

section

variable (machine : Machine) {opened : Nat} {outer : List Nat}

theorem closeLoop_empty (empty : machine.loops = []) :
    machine.closeLoop position token = .faulted machine (.noOpenLoop token) := by
  obtain ⟨device, loops, index, events⟩ := machine
  cases empty
  rfl

theorem closeLoop_error {fault : Fault} (top : machine.loops = opened :: outer)
    (current : machine.device.tape.current = .error fault) :
    machine.closeLoop position token = .faulted machine (.interrupted token (.fault fault)) := by
  obtain ⟨device, loops, index, events⟩ := machine
  cases top
  simp only [closeLoop, current]

theorem closeLoop_zero (top : machine.loops = opened :: outer)
    (current : machine.device.tape.current = .ok 0) :
    machine.closeLoop position token =
      .next (position + 1)
        { machine with
          loops := outer
          events := machine.events.push (.loopClosed position outer.length) } := by
  obtain ⟨device, loops, index, events⟩ := machine
  cases top
  simp only [closeLoop, current, ↓reduceIte]

theorem closeLoop_nonzero {value : UInt8} (top : machine.loops = opened :: outer)
    (current : machine.device.tape.current = .ok value) (nonzero : value ≠ 0) :
    machine.closeLoop position token = .next (opened + 1) machine := by
  obtain ⟨device, loops, index, events⟩ := machine
  cases top
  simp only [closeLoop, current, nonzero, ↓reduceIte]

end

end Machine

open Machine

variable {tokens : Array Token} {position next rounds : Nat} {token : Token}
  {instruction : Instruction} {loops : List Nat} {device : Device} {state : Nat × Machine}

theorem Machine.runs_next (machine : Machine) {next : Machine} {target : Nat}
    (stands : Stands tokens position token instruction)
    (performed : perform instruction position token { machine with index := position } =
      .next target next) (bound : Nat) :
    (runs tokens).run (bound + 1) (position, machine) = (runs tokens).run bound (target, next) :=
  execute_next stands.found ((dispatch_eq_perform stands machine).trans performed) bound

theorem Machine.runs_ends {machine last : Machine} {fault : RunFault}
    (stands : Stands tokens position token instruction)
    (performed : perform instruction position token { machine with index := position } =
      .faulted last fault) :
    (runs tokens).Ends (position, machine) (.faulted last.device fault) := by
  have dispatched := (dispatch_eq_perform stands machine).trans performed
  exact ⟨1, by simp only [runs, execute_faulted stands.found dispatched, Run.verdict?]⟩

theorem Machine.At.carries_act (arrived : At position loops device state)
    (stands : Stands tokens position token instruction)
    (notOpen : instruction ≠ .loopOpen) (notClose : instruction ≠ .loopClose) :
    (runs tokens).Carries rounds (At (position + instruction.length) loops) .faulted state
      (instruction.evaluate token device) := by
  obtain ⟨start, machine⟩ := state
  obtain ⟨rfl, rfl, rfl⟩ := arrived
  have performed := perform_eq_act notOpen notClose start token { machine with index := start }
  simp only [Instruction.evaluate]
  cases acted : instruction.act machine.device with
  | done device =>
      simp only [acted] at performed
      have step := runs_next machine stands performed
      exact ⟨_, ⟨rfl, rfl, rfl⟩, .of_step step⟩
  | stopped device cause =>
      simp only [acted] at performed
      exact runs_ends stands performed

theorem Machine.At.openLoop (arrived : At position loops device state)
    (opens : Stands tokens position token .loopOpen) :
    ∃ inside, At (position + 1) (position :: loops) device inside ∧
      (runs tokens).Reaches state inside := by
  obtain ⟨start, machine⟩ := state
  obtain ⟨rfl, rfl, rfl⟩ := arrived
  have step := runs_next machine opens rfl
  refine ⟨_, ?_, .of_step step⟩
  exact ⟨rfl, rfl, rfl⟩

theorem Machine.At.outlasts_zero (arrived : At position loops device state)
    (found : tokens[position]? = some token) : (runs tokens).Outlasts 0 state := by
  obtain ⟨start, machine⟩ := state
  obtain ⟨rfl, rfl, rfl⟩ := arrived
  simp only [BoundedRun.Outlasts, runs, execute_zero found, Run.verdict?]

section

variable {opened : Nat}

theorem Machine.At.closeLoop_error {fault : Fault}
    (arrived : At position (opened :: loops) device state)
    (closes : Stands tokens position token .loopClose)
    (current : device.tape.current = .error fault) :
    (runs tokens).Ends state (.faulted device (.interrupted token (.fault fault))) := by
  obtain ⟨start, machine⟩ := state
  obtain ⟨rfl, top, rfl⟩ := arrived
  have ends := runs_ends closes
    (Machine.closeLoop_error { machine with index := start } top current)
  exact ends

theorem Machine.At.closeLoop_zero (arrived : At position (opened :: loops) device state)
    (closes : Stands tokens position token .loopClose) (current : device.tape.current = .ok 0) :
    ∃ next, At (position + 1) loops device next ∧ (runs tokens).Reaches state next := by
  obtain ⟨start, machine⟩ := state
  obtain ⟨rfl, top, rfl⟩ := arrived
  have step := runs_next machine closes
    (Machine.closeLoop_zero { machine with index := start } top current)
  refine ⟨_, ?_, .of_step step⟩
  exact ⟨rfl, rfl, rfl⟩

theorem Machine.At.closeLoop_nonzero {value : UInt8}
    (arrived : At position (opened :: loops) device state)
    (closes : Stands tokens position token .loopClose)
    (current : device.tape.current = .ok value) (nonzero : value ≠ 0) :
    ∃ next, At (opened + 1) (opened :: loops) device next ∧
      ∀ bound, (runs tokens).run (bound + 1) state = (runs tokens).run bound next := by
  obtain ⟨start, machine⟩ := state
  obtain ⟨rfl, top, rfl⟩ := arrived
  have step := runs_next machine closes
    (Machine.closeLoop_nonzero { machine with index := start } top current nonzero)
  refine ⟨_, ?_, step⟩
  exact ⟨rfl, top, rfl⟩

end

theorem Spans.carries {statements : List Statement}
    (spans : Spans tokens position statements next) (rounds : Nat)
    (arrived : At position loops device state) :
    (runs tokens).Carries rounds (At next loops) .faulted state
      (Statement.evaluateAll rounds statements device) := by
  induction spans generalizing loops device state with
  | nil => exact ⟨state, arrived, .refl⟩
  | plain stands notOpen notClose _ ih =>
      exact (arrived.carries_act stands notOpen notClose).andThen fun _ _ => ih
  | @loop position closed next opening closing body rest opens bodySpans closes _ bodyIH restIH =>
      have bounded : position + 1 < tokens.size :=
        Nat.lt_of_le_of_lt bodySpans.le (Array.getElem?_eq_some_iff.mp closes.found).1
      suffices carried : (runs tokens).Carries rounds (At (closed + 1) loops) .faulted state
          (Statement.evaluate rounds (.loop body closing) device) from
        carried.andThen fun _ _ => restIH
      obtain ⟨inside, entered, opened⟩ := arrived.openLoop opens
      apply opened.carries
      -- The invariant is the stack: during the body its top is the position of this loop.
      apply BoundedRun.Carries.repeated (At (position + 1) (position :: loops))
        (At closed (position :: loops))
      · intro device state entered
        exact entered.outlasts_zero (Array.getElem?_eq_getElem bounded)
      · intro device state entered
        exact bodyIH entered
      · intro device state fault tested current
        exact tested.closeLoop_error closes current
      · intro device state tested current
        exact tested.closeLoop_zero closes current
      · intro device state value tested current nonzero
        exact tested.closeLoop_nonzero closes current nonzero
      · exact Nat.le_refl rounds
      · exact entered

theorem ItemsSpan.carries {items : List Item} (spans : ItemsSpan tokens position items next)
    (rounds : Nat) (arrived : At position loops device state) :
    (runs tokens).Carries rounds (At next (openPositions items ++ loops)) .faulted state
      (Item.evaluateAll rounds items device) := by
  induction spans generalizing loops device state with
  | nil => exact ⟨state, arrived, .refl⟩
  | statement spans _ ih =>
      have here := spans.carries rounds arrived
      rw [Statement.evaluateAll_singleton] at here
      exact here.andThen fun _ _ => ih
  | openLoop opens _ ih =>
      obtain ⟨inside, entered, opened⟩ := arrived.openLoop opens
      simp only [openPositions, List.append_assoc, List.singleton_append]
      exact opened.carries (ih entered)

/-- A run comes to where a reading has come, with the open loops of the reading. -/
theorem Nesting.Laid.carries {nesting : Nesting} (laid : nesting.Laid tokens position)
    (rounds : Nat) (arrived : At 0 [] device state) :
    (runs tokens).Carries rounds (At position (nesting.outer.map Prod.snd)) .faulted state
      (Item.evaluateAll rounds nesting.items device) := by
  have carried := laid.items.carries rounds arrived
  rwa [Nesting.openPositions_items, List.append_nil] at carried

theorem EndsReading.ends {nesting : Nesting} {fault? : Option RunFault}
    (ended : EndsReading tokens nesting position fault?)
    (arrived : At position (nesting.outer.map Prod.snd) device state) :
    (runs tokens).Ends state (.ofEnd fault? device) := by
  obtain ⟨start, machine⟩ := state
  obtain ⟨rfl, top, rfl⟩ := arrived
  cases ended with
  | finished past =>
      exact ⟨0, by simp only [runs, execute_end past, Run.verdict?, Verdict.ofEnd]⟩
  | notInstruction found unread =>
      have dispatched := dispatch_unread unread machine
      exact ⟨1, by
        simp only [runs, execute_faulted found dispatched, Run.verdict?, Verdict.ofEnd]⟩
  | noOpenLoop stands none =>
      have empty : machine.loops = [] := by simpa [none] using top
      have ends := runs_ends stands (Machine.closeLoop_empty { machine with index := start } empty)
      exact ends

theorem Outline.follows (tokens : Array Token) (device : Device) (index : Nat)
    (events : Array Event) :
    (runs tokens).Follows (0, { device, index, events })
      fun rounds => (Outline.ofTokens tokens).evaluate rounds device := by
  obtain ⟨nesting, position, reads⟩ := Outline.ofTokens_reads tokens
  have follows : (runs tokens).Follows (0, { device, index, events })
      fun rounds => ((Outline.ofTokens tokens).evaluate rounds device).map id := by
    apply BoundedRun.Follows.of_carries
    intro rounds
    have start : At 0 [] device (0, { device, index, events }) := ⟨rfl, rfl, rfl⟩
    simp only [Outline.evaluate, reads.items]
    refine (reads.laid.carries rounds start).andThen ?_
    intro device state arrived
    exact BoundedRun.Ends.carries id (reads.ends.ends arrived)
  simpa only [Option.map_id_fun, id_eq] using follows

section

variable {machine : Machine} {final : Device}

private theorem Machine.ends_completed_iff :
    (runs tokens).Ends (position, machine) (.completed final) ↔
      ∃ bound last, execute tokens bound position machine = .finished last ∧
        last.device = final := by
  constructor
  · intro found
    obtain ⟨bound, ended⟩ := found
    simp only [runs] at ended
    cases ran : execute tokens bound position machine with
    | finished last =>
        rw [ran] at ended
        cases ended
        exact ⟨bound, last, ran, rfl⟩
    | faulted last fault => simp [ran, Run.verdict?] at ended
    | suspended next last => simp [ran, Run.verdict?] at ended
  · intro found
    obtain ⟨bound, last, ran, rfl⟩ := found
    exact ⟨bound, by simp only [runs, ran, Run.verdict?]⟩

private theorem Machine.ends_faulted_iff {fault : RunFault} :
    (runs tokens).Ends (position, machine) (.faulted final fault) ↔
      ∃ bound last, execute tokens bound position machine = .faulted last fault ∧
        last.device = final := by
  constructor
  · intro found
    obtain ⟨bound, ended⟩ := found
    exact ⟨bound, Run.exists_faulted_of_verdict? ended⟩
  · intro found
    obtain ⟨bound, last, ran, rfl⟩ := found
    exact ⟨bound, by simp only [runs, ran, Run.verdict?]⟩

private theorem Machine.outlasts_iff {bound : Nat} :
    (runs tokens).Outlasts bound (position, machine) ↔
      ∃ next last, execute tokens bound position machine = .suspended next last := by
  simp only [BoundedRun.Outlasts, runs]
  cases ran : execute tokens bound position machine with
  | finished last => simp [Run.verdict?]
  | faulted last fault => simp [Run.verdict?]
  | suspended next last => simp [Run.verdict?]

end

/-- The walk over the tokens of a program completes, faults or goes on for ever just as
its statements do, on the same device and with the same fault. -/
theorem execute_agrees_with_statements (tokens : Array Token) (device : Device) (index : Nat)
    (events : Array Event) :
    let start : Machine := { device, loops := [], index, events }
    let evaluate := fun rounds => (Outline.ofTokens tokens).evaluate rounds device
    (∀ final, (∃ bound last, execute tokens bound 0 start = .finished last ∧
        last.device = final) ↔
      ∃ rounds, evaluate rounds = some (.completed final)) ∧
    (∀ final fault, (∃ bound last, execute tokens bound 0 start = .faulted last fault ∧
        last.device = final) ↔
      ∃ rounds, evaluate rounds = some (.faulted final fault)) ∧
    ((∀ bound, ∃ position last, execute tokens bound 0 start = .suspended position last) ↔
      ∀ rounds, evaluate rounds = none) := by
  intro start evaluate
  have follows := Outline.follows tokens device index events
  refine ⟨fun final => ?_, fun final fault => ?_, ?_⟩
  · rw [← ends_completed_iff]
    exact follows.ends_iff
  · rw [← ends_faulted_iff]
    exact follows.ends_iff
  · simp only [← outlasts_iff]
    exact follows.outlasts_iff

end WordTape
