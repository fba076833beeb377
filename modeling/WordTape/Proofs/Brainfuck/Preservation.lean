import WordTape.Proofs.Brainfuck.Refusals
import WordTape.Proofs.Brainfuck.Simulation
import WordTape.Proofs.Invariants

/-!
# Translation preserves meaning

A run of a program and a run of its translation follow the evaluation of the same
statements, so that they come to the same tape and the same streams, or to the same
kind of fault after the same requests.
-/

set_option autoImplicit false

namespace WordTape

open Brainfuck

def ReportKind.commandFault? : ReportKind → Option CommandFault
  | .index => some .offTape
  | .overflow => some .cellRange
  | .io | .unknownToken | .malformedOperand | .loopStackUnderflow => none

def RunError.commandFault? : RunError → Option CommandFault
  | .reported report => report.kind.commandFault?
  | .foreignSource _ | .codec _ => none

def SessionRun.observation? : SessionRun → Option Observation
  | .completed { machine := { device, .. }, .. } =>
      some (Verdict.completed device).observation
  | .failed { machine := { device, .. }, .. } error =>
      some (.faulted error.commandFault? device.output.text device.input.consumed)
  | .suspended _ _ => none

private theorem commandFault?_errorOf (program : Bytes) (fault : RunFault) :
    (Session.errorOf program fault).commandFault? = fault.commandFault? := by
  cases fault with
  | notInstruction error => cases error <;> rfl
  | noOpenLoop token => rfl
  | interrupted token cause =>
      cases cause with
      | fault cause => cases cause <;> rfl
      | codec error => rfl

variable {source : Source} {program : Bytes} {session : Session}

private theorem observation?_run (readable : source.read = .ok program)
    (flushes : session.AlwaysFlushes) (bound : Nat) :
    (session.run bound source).observation? =
      (Machine.execute (Lexer.tokenize program) bound 0
        (session.machineFor program)).verdict?.map Verdict.observation := by
  rw [Session.run_eq_of_alwaysFlushes readable flushes]
  cases Machine.execute (Lexer.tokenize program) bound 0 (session.machineFor program) with
  | suspended position machine => rfl
  | finished machine => rfl
  | faulted machine fault =>
      simp only [Session.accepted, SessionRun.observation?, commandFault?_errorOf]
      rfl

theorem Nesting.Laid.follows {tokens : Array Token} {nesting : Nesting} {position : Nat}
    (laid : nesting.Laid tokens position) (past : tokens[position]? = none) {machine : Machine}
    (fresh : machine.loops = []) :
    (Machine.runs tokens).Follows (0, machine)
      fun rounds => Statement.evaluateAll rounds nesting.statements machine.device := by
  have start : Machine.At 0 [] machine.device (0, machine) := ⟨rfl, fresh, rfl⟩
  have follows : (Machine.runs tokens).Follows (0, machine) fun rounds =>
      (Verdict.andThen (Item.evaluateAll rounds nesting.items machine.device) fun device =>
        some (.completed device)).map id := by
    apply BoundedRun.Follows.of_carries
    intro rounds
    refine (laid.carries rounds start).andThen ?_
    intro device state arrived
    exact BoundedRun.Ends.carries id ((EndsReading.finished past).ends arrived)
  simpa only [Verdict.andThen_completed, Item.evaluateAll_eq_statements, Option.map_id_fun,
    id_eq, Nesting.statements] using follows

theorem Translatable.follows {statements : List Statement}
    (translatable : Translatable statements) {data : Array UInt8} {size : Nat} {device : Device}
    {state : State size} (simulates : Simulates data device state) :
    (State.runs size).Follows
      ({ passed := [], ahead := text (Statement.nodesOf statements) }, state)
      fun rounds => (Statement.evaluateAll rounds statements device).map Verdict.observation := by
  apply BoundedRun.Follows.of_carries
  intro rounds
  have carried := translatable.carries simulates rounds [] []
  simp only [List.append_nil] at carried
  refine carried.imp ?_
  intro device place arrived
  obtain ⟨cursor, state⟩ := place
  obtain ⟨rfl, simulates⟩ := arrived
  have shown : (Verdict.completed device).observation =
      .completed state.cells.toArray state.pointer.val state.written state.consumed := by
    rw [← simulates.cells, ← simulates.pointer, simulates.written, simulates.consumed]
    rfl
  rw [shown]
  exact State.runs_ends_halted

theorem simulates_start (data : Array UInt8) {size : Nat} (positive : 0 < size) :
    Simulates data (Session.start size (.ofBytes data) {}).machine.device
      (State.blank positive data.toList) where
  cells := rfl
  pointer := rfl
  reply := rfl
  unread := rfl
  consumed := rfl
  accepts _ := rfl
  written := rfl

private theorem observations_agree {text : Bytes} {size : Nat} (data : Array UInt8)
    (translated : Brainfuck.translate source = .ok text) (positive : 0 < size)
    (outcome : Observation) :
    (∃ bound, ((Session.start size (.ofBytes data) {}).run bound source).observation? =
      some outcome) ↔
    ∃ bound, (State.execute bound { passed := [], ahead := text }
      (State.blank positive data.toList)).observation? = some outcome := by
  obtain ⟨program, nodes, readable, parsed, rfl⟩ := translate_ok translated
  obtain ⟨nesting, position, laid, translatable, ends⟩ := ofTokens_reads (Lexer.tokenize program)
  rw [parsed] at ends
  obtain ⟨past, rfl⟩ := ends
  let session := Session.start size (.ofBytes data) {}
  have flushes : session.AlwaysFlushes := fun _ => rfl
  have runs := laid.follows past (rfl : (session.machineFor program).loops = [])
  have translationRuns := translatable.statements.follows (simulates_start data positive)
  calc (∃ bound, (session.run bound source).observation? = some outcome)
    _ ↔ ∃ verdict, (Machine.runs (Lexer.tokenize program)).Ends
          (0, session.machineFor program) verdict ∧ verdict.observation = outcome := by
        simp only [observation?_run readable flushes, Option.map_eq_some_iff]
        constructor
        · intro found
          obtain ⟨bound, verdict, ended, shown⟩ := found
          exact ⟨verdict, ⟨bound, ended⟩, shown⟩
        · intro found
          obtain ⟨verdict, ⟨bound, ended⟩, shown⟩ := found
          exact ⟨bound, verdict, ended, shown⟩
    _ ↔ ∃ rounds, (Statement.evaluateAll rounds nesting.statements
          session.machine.device).map Verdict.observation = some outcome := by
        simp only [runs.ends_iff, Option.map_eq_some_iff]
        constructor
        · intro found
          obtain ⟨verdict, ⟨rounds, evaluated⟩, shown⟩ := found
          exact ⟨rounds, verdict, evaluated, shown⟩
        · intro found
          obtain ⟨rounds, verdict, evaluated, shown⟩ := found
          exact ⟨verdict, ⟨rounds, evaluated⟩, shown⟩
    _ ↔ (State.runs size).Ends _ outcome := translationRuns.ends_iff.symm

/-! ## What observations say -/

theorem observation?_completed_iff {run : SessionRun} {cells : Array UInt8} {pointer : Int}
    {output : Bytes} {consumed : Nat} :
    run.observation? = some (.completed cells pointer output consumed) ↔
      ∃ last, run = .completed last ∧ last.machine.device.tape = { cells, pointer } ∧
        last.machine.device.output.text = output ∧
        last.machine.device.input.consumed = consumed := by
  constructor
  · intro shown
    cases run with
    | completed last =>
        cases shown
        exact ⟨last, rfl, rfl, rfl, rfl⟩
    | failed last error => cases shown
    | suspended last position => cases shown
  · intro found
    obtain ⟨last, rfl, tape, rfl, rfl⟩ := found
    simp only [SessionRun.observation?, Verdict.observation, tape]

theorem observation?_faulted_iff {run : SessionRun} {fault : CommandFault} {output : Bytes}
    {consumed : Nat} :
    run.observation? = some (.faulted (some fault) output consumed) ↔
      ∃ last report, run = .failed last (.reported report) ∧
        report.kind.commandFault? = some fault ∧ last.machine.device.output.text = output ∧
        last.machine.device.input.consumed = consumed := by
  constructor
  · intro shown
    cases run with
    | completed last => cases shown
    | failed last error =>
        simp only [SessionRun.observation?, Option.some.injEq, Observation.faulted.injEq] at shown
        obtain ⟨same, rfl, rfl⟩ := shown
        cases error with
        | reported report => exact ⟨last, report, rfl, same, rfl, rfl⟩
        | foreignSource typeName => cases same
        | codec error => cases same
    | suspended last position => cases shown
  · intro found
    obtain ⟨last, report, rfl, same, rfl, rfl⟩ := found
    simp only [SessionRun.observation?, RunError.commandFault?, same]

namespace Brainfuck.CommandRun

variable {size : Nat} {run : CommandRun size}

theorem observation?_completed_iff {cells : Array UInt8} {pointer : Int} {output : Bytes}
    {consumed : Nat} :
    run.observation? = some (.completed cells pointer output consumed) ↔
      ∃ last, run = .halted last ∧ last.cells.toArray = cells ∧
        (last.pointer.val : Int) = pointer ∧ last.written = output ∧
        last.consumed = consumed := by
  constructor
  · intro shown
    cases run with
    | halted last =>
        cases shown
        exact ⟨last, rfl, rfl, rfl, rfl, rfl⟩
    | faulted last fault => cases shown
    | suspended cursor last => cases shown
  · intro found
    obtain ⟨last, rfl, rfl, rfl, rfl, rfl⟩ := found
    rfl

theorem observation?_faulted_iff {fault : CommandFault} {output : Bytes} {consumed : Nat} :
    run.observation? = some (.faulted (some fault) output consumed) ↔
      ∃ last, run = .faulted last fault ∧ last.written = output ∧ last.consumed = consumed := by
  constructor
  · intro shown
    cases run with
    | halted last => cases shown
    | faulted last other =>
        cases shown
        exact ⟨last, rfl, rfl, rfl⟩
    | suspended cursor last => cases shown
  · intro found
    obtain ⟨last, rfl, rfl, rfl⟩ := found
    rfl

end Brainfuck.CommandRun

/-- A program that is translated and its translation complete on the same tape with the
same output and input, or stop for the same kind of fault with the same output and
input. -/
theorem translation_preserves_meaning {source : Source} {text : Bytes} {size : Nat}
    (data : Array UInt8) (translated : Brainfuck.translate source = .ok text) (positive : 0 < size) :
    let run := fun bound => (Session.start size (.ofBytes data) {}).run bound source
    let execute := fun bound =>
      State.execute bound { passed := [], ahead := text } (State.blank positive data.toList)
    (∀ cells pointer output consumed,
      (∃ bound last, run bound = .completed last ∧
        last.machine.device.tape = { cells, pointer } ∧
        last.machine.device.output.text = output ∧
        last.machine.device.input.consumed = consumed) ↔
      ∃ bound last, execute bound = .halted last ∧ last.cells.toArray = cells ∧
        (last.pointer.val : Int) = pointer ∧ last.written = output ∧
        last.consumed = consumed) ∧
    (∀ output consumed,
      (∃ bound last report, run bound = .failed last (.reported report) ∧
        report.kind = .index ∧ last.machine.device.output.text = output ∧
        last.machine.device.input.consumed = consumed) ↔
      ∃ bound last, execute bound = .faulted last .offTape ∧ last.written = output ∧
        last.consumed = consumed) ∧
    (∀ output consumed,
      (∃ bound last report, run bound = .failed last (.reported report) ∧
        report.kind = .overflow ∧ last.machine.device.output.text = output ∧
        last.machine.device.input.consumed = consumed) ↔
      ∃ bound last, execute bound = .faulted last .cellRange ∧ last.written = output ∧
        last.consumed = consumed) := by
  intro run execute
  have agree := observations_agree data translated positive
  refine ⟨fun cells pointer output consumed => ?_, fun output consumed => ?_,
    fun output consumed => ?_⟩
  · simpa only [observation?_completed_iff, CommandRun.observation?_completed_iff]
      using agree (.completed cells pointer output consumed)
  · have index (kind : ReportKind) : kind.commandFault? = some .offTape ↔ kind = .index := by
      cases kind <;> simp [ReportKind.commandFault?]
    simpa only [observation?_faulted_iff, CommandRun.observation?_faulted_iff, index]
      using agree (.faulted (some .offTape) output consumed)
  · have overflow (kind : ReportKind) :
        kind.commandFault? = some .cellRange ↔ kind = .overflow := by
      cases kind <;> simp [ReportKind.commandFault?]
    simpa only [observation?_faulted_iff, CommandRun.observation?_faulted_iff, overflow]
      using agree (.faulted (some .cellRange) output consumed)

theorem translation_preserves_countdown :
    Brainfuck.translate (.contents (Bytes.ofString "rdi lop wrt dec 1 pol")) =
      .ok (Bytes.ofString ",.-[.-]") ∧
    0 < 1 ∧
    ∃ bound last, State.execute bound { passed := [], ahead := Bytes.ofString ",.-[.-]" }
        (State.blank Nat.one_pos [2]) = .halted last ∧
      last.cells.toArray = #[0] ∧ (last.pointer.val : Int) = 0 ∧ last.written = [2, 1] ∧
      last.consumed = 1 := by
  let source : Source := .contents (Bytes.ofString "rdi lop wrt dec 1 pol")
  have translated : Brainfuck.translate source = .ok (Bytes.ofString ",.-[.-]") := by decide +kernel
  have ran : ((Session.start 1 (.ofBytes #[2]) {}).run 20 source).observation? =
      some (.completed #[0] 0 [2, 1] 1) := by decide +kernel
  have preserved := (translation_preserves_meaning #[2] translated Nat.one_pos).1 #[0] 0 [2, 1] 1
  exact ⟨translated, Nat.one_pos, preserved.mp ⟨20, observation?_completed_iff.mp ran⟩⟩

end WordTape
