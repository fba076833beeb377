import Mathlib.Control.Monad.Basic
import WordTape.Proofs.Brainfuck.Nodes
import WordTape.Proofs.Device.Faults
import WordTape.Proofs.SessionRun
import WordTape.Proofs.Structure.Execution

/-!
# Refused translations and failed runs

A program that is translated fails only on its tape and its streams. A program that
is refused for an operand or a loop has no run that completes, and one that is refused
for an instruction comes to that instruction in every run that ends and has not failed
before.
-/

set_option autoImplicit false

namespace WordTape

open Brainfuck Machine

/-- A fault of the tape or of a stream. -/
def RunFault.IsTapeFault (fault : RunFault) : Prop :=
  ∃ token cause, fault = .interrupted token (.fault cause)

private theorem encodable_of_translated {instruction : Instruction} {node : Node}
    (translated : nodeOf? instruction = some node) : instruction.Encodable := by
  cases instruction with
  | setAs type value => cases translated
  | _ => trivial

theorem Translatable.faultsIn {statements : List Statement}
    (translatable : Translatable statements) (rounds : Nat) (device : Device) :
    Verdict.FaultsIn RunFault.IsTapeFault (Statement.evaluateAll rounds statements device) := by
  induction translatable generalizing device with
  | nil =>
      intro last fault result
      cases result
  | @plain token instruction node rest translated _ ih =>
      refine Verdict.FaultsIn.andThen ?_ ih
      intro last fault result
      simp only [Statement.evaluate, Instruction.evaluate] at result
      cases acted : instruction.act device with
      | done device => simp [acted] at result
      | stopped device cause =>
          rw [acted] at result
          cases result
          have encodable := encodable_of_translated translated
          obtain ⟨fault, rfl⟩ := Instruction.act_faultsOnly encodable _ _ _ acted
          exact ⟨token, fault, rfl⟩
  | @loop closing body rest _ _ bodyIH restIH =>
      refine Verdict.FaultsIn.andThen ?_ restIH
      exact Verdict.FaultsIn.repeated bodyIH (fun cause => ⟨closing, cause, rfl⟩) rounds device

theorem Nesting.Translatable.faultsIn {nesting : Nesting} (translatable : nesting.Translatable)
    (rounds : Nat) (device : Device) :
    Verdict.FaultsIn RunFault.IsTapeFault (Item.evaluateAll rounds nesting.items device) := by
  rw [Item.evaluateAll_eq_statements]
  exact translatable.statements.faultsIn rounds device

/-- A run that has ended has come to where the reading has come, or it has stopped with
a fault of the tape or of a stream. -/
theorem Nesting.Laid.ended_cases {tokens : Array Token} {nesting : Nesting} {last bound : Nat}
    {machine : Machine} {verdict : Verdict} (laid : nesting.Laid tokens last)
    (translatable : nesting.Translatable) (fresh : machine.loops = [])
    (ended : (execute tokens bound 0 machine).verdict? = some verdict) :
    (∃ device state, At last (nesting.outer.map Prod.snd) device state ∧
      (runs tokens).Reaches (0, machine) state) ∨
    ∃ device fault, verdict = .faulted device fault ∧ fault.IsTapeFault := by
  have start : At 0 [] machine.device (0, machine) := ⟨rfl, fresh, rfl⟩
  have carried := laid.carries bound start
  cases evaluated : Item.evaluateAll bound nesting.items machine.device with
  | none =>
      rw [evaluated] at carried
      have unended : (execute tokens bound 0 machine).verdict? = none := carried
      rw [ended] at unended
      cases unended
  | some found =>
      rw [evaluated] at carried
      cases found with
      | completed device =>
          obtain ⟨state, arrived, reached⟩ := carried
          exact .inl ⟨device, state, arrived, reached⟩
      | faulted device fault =>
          have same := BoundedRun.Ends.unique ⟨bound, ended⟩ carried
          exact .inr ⟨device, fault, same, translatable.faultsIn _ _ _ _ evaluated⟩

def RunError.IsTapeError (error : RunError) : Prop :=
  ∃ report, error = .reported report ∧ report.kind ∈ [ReportKind.index, .overflow, .io]

/-- A run failed for what a translation was refused for, at the same place. -/
structure RunError.Repeats (refusal : ErrorReport) (error : RunError) : Prop where
  repeated : ∃ report, error = .reported report ∧
    report.line = refusal.line ∧ report.column = refusal.column ∧
    (refusal.kind = .malformedOperand ∧ report.kind = .malformedOperand ∧
        report.description = refusal.description ∨
      refusal.kind = .loopStackUnderflow ∧ report.kind = .loopStackUnderflow)

theorem errorOf_isTapeError {fault : RunFault} (tapeFault : fault.IsTapeFault)
    (program : Bytes) : (Session.errorOf program fault).IsTapeError := by
  obtain ⟨token, cause, rfl⟩ := tapeFault
  refine ⟨_, rfl, ?_⟩
  cases cause <;> simp [Report.make, Fault.kind, ReportKind.ofFault]

theorem isTapeError_of_io {report : Report} (io : report.kind = .io) :
    (RunError.reported report).IsTapeError :=
  ⟨report, rfl, by simp [io]⟩

/-- The fault of a run at a token that a translation refuses, unless the token is only
not supported. -/
def faultOfRefusal? : TranslationError → Option RunFault
  | .notSupported _ => none
  | .malformedOperand error => some (.notInstruction (.malformedOperand error))
  | .noOpenLoop token => some (.noOpenLoop token)

private theorem errorOf_repeats {refusal : TranslationError} {fault : RunFault}
    (same : faultOfRefusal? refusal = some fault) (program : Bytes) :
    RunError.Repeats refusal.report (Session.errorOf program fault) := by
  cases refusal with
  | notSupported token => cases same
  | malformedOperand error =>
      cases same
      exact ⟨_, rfl, rfl, rfl, .inl ⟨rfl, rfl, rfl⟩⟩
  | noOpenLoop token =>
      cases same
      exact ⟨_, rfl, rfl, rfl, .inr ⟨rfl, rfl⟩⟩

theorem Refuses.endsReading {tokens : Array Token} {nesting : Nesting} {position : Nat}
    {refusal : TranslationError} {fault : RunFault}
    (refuses : Refuses tokens nesting position refusal)
    (same : faultOfRefusal? refusal = some fault) :
    EndsReading tokens nesting position (some fault) := by
  cases refuses with
  | notSupported found => cases same
  | malformedOperand found unread =>
      cases same
      exact .notInstruction found unread
  | noOpenLoop closes outermost =>
      cases same
      exact .noOpenLoop closes outermost

/-- A run within a bound dispatches the instruction at a position: with some smaller
bound it is suspended just before that instruction. -/
def Session.Dispatches (source : Source) (session : Session) (position bound : Nat) : Prop :=
  ∃ earlier < bound, ∃ paused, session.run earlier source = .suspended paused position

section

variable {source : Source} {program : Bytes} {session : Session} {bound : Nat}

private theorem run_isTapeError_of_translated {nodes : List Node} {last : Session}
    {error : RunError}
    (readable : source.read = .ok program)
    (translated : ofTokens (Lexer.tokenize program) = .ok nodes)
    (failed : session.run bound source = .failed last error) : error.IsTapeError := by
  obtain ⟨nesting, position, laid, translatable, ends⟩ := ofTokens_reads (Lexer.tokenize program)
  rw [translated] at ends
  have shows := Session.run_shows session bound readable
  rw [failed] at shows
  cases shows with
  | unflushed _ io => exact isTapeError_of_io io
  | @faulted device fault _ faulted =>
      rcases laid.ended_cases translatable rfl faulted with
        ⟨final, state, arrived, reached⟩ | ⟨final, fault, same, tapeFault⟩
      · have completed := reached.ends ((EndsReading.finished ends.1).ends arrived)
        have contradictory := BoundedRun.Ends.unique ⟨bound, faulted⟩ completed
        cases contradictory
      · cases same
        exact errorOf_isTapeError tapeFault program

private theorem run_of_refused {refusal : TranslationError} {fault : RunFault}
    (readable : source.read = .ok program)
    (refused : ofTokens (Lexer.tokenize program) = .error refusal)
    (same : faultOfRefusal? refusal = some fault) :
    match session.run bound source with
    | .completed _ => False
    | .failed _ error => error.IsTapeError ∨ error.Repeats refusal.report
    | .suspended _ _ => True := by
  obtain ⟨nesting, position, laid, translatable, ends⟩ := ofTokens_reads (Lexer.tokenize program)
  rw [refused] at ends
  have faults : ∀ verdict,
      (execute (Lexer.tokenize program) bound 0 (session.machineFor program)).verdict? =
        some verdict →
      ∃ device final, verdict = .faulted device final ∧
        (final.IsTapeFault ∨ final = fault) := by
    intro verdict ended
    rcases laid.ended_cases translatable rfl ended with
      ⟨device, state, arrived, reached⟩ | ⟨device, final, faulted, tapeFault⟩
    · have faulted := reached.ends ((Refuses.endsReading ends same).ends arrived)
      exact ⟨device, fault, BoundedRun.Ends.unique ⟨bound, ended⟩ faulted, .inr rfl⟩
    · exact ⟨device, final, faulted, .inl tapeFault⟩
  have shows := Session.run_shows session bound readable
  generalize session.run bound source = ran at shows
  cases shows with
  | completed ended =>
      obtain ⟨device, final, contradictory, _⟩ := faults _ ended
      cases contradictory
  | faulted ended =>
      obtain ⟨device, final, faulted, tapeFault | repeated⟩ := faults _ ended
      · cases faulted
        exact .inl (errorOf_isTapeError tapeFault program)
      · cases faulted
        exact .inr (repeated ▸ errorOf_repeats same program)
  | unflushed _ io => exact .inl (isTapeError_of_io io)
  | suspended _ => trivial

private theorem dispatches_of_reaches {position : Nat} {token : Token} {verdict : Verdict}
    {loops : List Nat} {device : Device} {state : Nat × Machine}
    (readable : source.read = .ok program)
    (found : (Lexer.tokenize program)[position]? = some token)
    (arrived : At position loops device state)
    (reached : (runs (Lexer.tokenize program)).Reaches (0, session.machineFor program) state)
    (ended : (execute (Lexer.tokenize program) bound 0 (session.machineFor program)).verdict? =
      some verdict) : Session.Dispatches source session position bound := by
  obtain ⟨place, machine⟩ := state
  obtain ⟨rfl, _, _⟩ := arrived
  obtain ⟨steps, reached⟩ := reached
  have paused : execute (Lexer.tokenize program) steps 0 (session.machineFor program) =
      .suspended place machine := (reached 0).trans (execute_zero found machine)
  have earlier : steps < bound := by
    apply Nat.lt_of_not_le
    intro larger
    obtain ⟨more, rfl⟩ := Nat.exists_eq_add_of_le larger
    rw [execute_persists _ bound more 0 _ _ ended] at paused
    rw [paused] at ended
    cases ended
  refine ⟨steps, earlier, { machine, tokens := Lexer.tokenize program }, ?_⟩
  rw [Session.run_eq_of_readable readable, paused]

private theorem run_of_unsupported {token : Token} (readable : source.read = .ok program)
    (refused : ofTokens (Lexer.tokenize program) = .error (.notSupported token)) :
    ∃ position, (Lexer.tokenize program)[position]? = some token ∧
      ∀ session bound,
        match Session.run bound source session with
        | .completed _ => Session.Dispatches source session position bound
        | .failed _ error =>
            error.IsTapeError ∨ Session.Dispatches source session position bound
        | .suspended _ _ => True := by
  obtain ⟨nesting, position, laid, translatable, ends⟩ := ofTokens_reads (Lexer.tokenize program)
  rw [refused] at ends
  cases ends with
  | notSupported found =>
  refine ⟨position, found, fun session bound => ?_⟩
  have ended_cases : ∀ verdict,
      (execute (Lexer.tokenize program) bound 0 (session.machineFor program)).verdict? =
        some verdict →
      Session.Dispatches source session position bound ∨
        ∃ device fault, verdict = .faulted device fault ∧ fault.IsTapeFault := by
    intro verdict ended
    rcases laid.ended_cases translatable rfl ended with
      ⟨device, state, arrived, reached⟩ | tapeFault
    · exact .inl (dispatches_of_reaches readable found arrived reached ended)
    · exact .inr tapeFault
  have shows := Session.run_shows session bound readable
  generalize Session.run bound source session = ran at shows
  cases shows with
  | completed ended =>
      rcases ended_cases _ ended with dispatches | ⟨device, fault, contradictory, _⟩
      · exact dispatches
      · cases contradictory
  | faulted ended =>
      rcases ended_cases _ ended with dispatches | ⟨device, fault, faulted, tapeFault⟩
      · exact .inr dispatches
      · cases faulted
        exact .inl (errorOf_isTapeError tapeFault program)
  | unflushed _ io => exact .inl (isTapeError_of_io io)
  | suspended _ => trivial

theorem translate_ok {text : Bytes} (translated : Brainfuck.translate source = .ok text) :
    ∃ program nodes, source.read = .ok program ∧
      ofTokens (Lexer.tokenize program) = .ok nodes ∧ text = Brainfuck.text nodes := by
  simp only [Brainfuck.translate] at translated
  split at translated
  · cases translated
  · cases translated
  · rename_i program readable
    split at translated
    · rename_i nodes parsed
      cases translated
      exact ⟨program, nodes, readable, parsed, rfl⟩
    · cases translated

private theorem translate_refused {report : ErrorReport}
    (refused : Brainfuck.translate source = .error (.reported report)) (read : report.kind ≠ .io) :
    ∃ program refusal, source.read = .ok program ∧
      ofTokens (Lexer.tokenize program) = .error refusal ∧ report = refusal.report := by
  simp only [Brainfuck.translate] at refused
  split at refused
  · cases refused
    exact absurd rfl read
  · cases refused
  · rename_i program readable
    split at refused
    · cases refused
    · rename_i refusal parsed
      cases refused
      exact ⟨program, refusal, readable, parsed, rfl⟩

end

/-- What a translation finds in a source agrees with what runs of the source find, on
every tape and with all streams. -/
theorem translation_agrees_with_runs (source : Source) :
    (∀ text, Brainfuck.translate source = .ok text → ∀ session bound last error,
      Session.run bound source session = .failed last error → error.IsTapeError) ∧
    (∀ report, Brainfuck.translate source = .error (.reported report) →
      report.kind = .malformedOperand ∨ report.kind = .loopStackUnderflow →
      ∀ session bound,
        match Session.run bound source session with
        | .completed _ => False
        | .failed _ error => error.IsTapeError ∨ error.Repeats report
        | .suspended _ _ => True) ∧
    (∀ report, Brainfuck.translate source = .error (.reported report) → report.kind = .notSupported →
      ∃ program token position, source.read = .ok program ∧
        (Lexer.tokenize program)[position]? = some token ∧
        report = (TranslationError.notSupported token).report ∧
        ∀ session bound,
          match Session.run bound source session with
          | .completed _ => Session.Dispatches source session position bound
          | .failed _ error =>
              error.IsTapeError ∨ Session.Dispatches source session position bound
          | .suspended _ _ => True) := by
  refine ⟨?_, ?_, ?_⟩
  · intro text translated session bound last error failed
    obtain ⟨program, nodes, readable, parsed, _⟩ := translate_ok translated
    exact run_isTapeError_of_translated readable parsed failed
  · intro report refused kind session bound
    obtain ⟨program, refusal, readable, parsed, rfl⟩ := translate_refused refused (by
      rcases kind with kind | kind <;> simp [kind])
    cases refusal with
    | notSupported token => simp [TranslationError.report, TranslationError.kind] at kind
    | malformedOperand error => exact run_of_refused readable parsed rfl
    | noOpenLoop token => exact run_of_refused readable parsed rfl
  · intro report refused kind
    obtain ⟨program, refusal, readable, parsed, rfl⟩ := translate_refused refused (by simp [kind])
    cases refusal with
    | malformedOperand error => simp [TranslationError.report, TranslationError.kind] at kind
    | noOpenLoop token => simp [TranslationError.report, TranslationError.kind] at kind
    | notSupported token =>
        obtain ⟨position, found, runs⟩ := run_of_unsupported readable parsed
        exact ⟨program, token, position, readable, found, rfl, runs⟩

theorem stray_close_never_completes :
    ∃ report, Brainfuck.translate (.contents (Bytes.ofString "inc 1 pol")) = .error (.reported report) ∧
      report.kind = .loopStackUnderflow ∧ report.column = some 7 ∧
      ∀ session bound last,
        Session.run bound (.contents (Bytes.ofString "inc 1 pol")) session ≠ .completed last := by
  let token : Token :=
    { kind := .instruction .loopClose, value := Bytes.ofString "pol", position := ⟨1, 7⟩ }
  have refused : Brainfuck.translate (.contents (Bytes.ofString "inc 1 pol")) =
      .error (.reported (TranslationError.noOpenLoop token).report) := by decide +kernel
  refine ⟨_, refused, rfl, rfl, ?_⟩
  intro session bound last completed
  have agrees := (translation_agrees_with_runs (.contents (Bytes.ofString "inc 1 pol"))).2.1 _
    refused (.inr rfl) session bound
  rw [completed] at agrees
  exact agrees

end WordTape
