import WordTape.Proofs.Device.Extension
import WordTape.Proofs.FirstFault
import WordTape.Proofs.Lockstep
import WordTape.Proofs.LoopStack
import WordTape.Proofs.Token.Concatenation

/-!
# One program below another

A program that stands below another on the same source does what it does in a run of its
own after the other, if the other completes with no open loop: the first part of the
source never reads the tokens of the second, and no loop of the second goes back to the
first.
-/

set_option autoImplicit false

namespace WordTape

open Machine

/-! ## The parts of the source -/

namespace Lexer

variable (first second : Bytes)

private theorem tokenize_placed_first :
    Placed (tokenize first) (tokenize (first ++ Bytes.lineFeed :: second)) 0 0 := by
  rw [tokenize_append]
  exact Placed.append_left _ _

private theorem tokenize_placed_second :
    Placed (tokenize second) (tokenize (first ++ Bytes.lineFeed :: second))
      (tokenize first).size (1 + first.count Bytes.lineFeed) := by
  rw [tokenize_append]
  exact Placed.append_right _ _ _

private theorem size_tokenize_append :
    (tokenize (first ++ Bytes.lineFeed :: second)).size =
      (tokenize first).size + (tokenize second).size := by
  rw [tokenize_append, Array.size_append, Array.size_map]

end Lexer

/-! ## The first part -/

theorem Device.mirror_id : Device.Mirror id fun _ => False where
  act := by
    intro instruction device
    rw [id]
    cases instruction.act device with
    | done device => exact .done device
    | stopped device cause => exact .stopped device cause
  current := fun _ _ current => current
  test := fun _ _ current => .inr current

/-- A program that finishes is left at its end, wherever its tokens stand. -/
theorem Machine.reaches_end {tokens whole : Array Token} {machine other last : Machine}
    {bound : Nat} (placed : Placed tokens whole 0 0) (inStep : machine.InStep id 0 other)
    (fresh : machine.loops = []) (first : machine.index = 0)
    (finished : execute tokens bound 0 machine = .finished last) :
    ∃ follower, last.InStep id 0 follower ∧
      (runs whole).Reaches (0, other) (tokens.size, follower) := by
  let comesTo (position : Nat) (later : Machine) : Prop :=
    Scanned tokens position later ∧ ∃ follower, later.InStep id 0 follower ∧
      (runs whole).Reaches (0, other) (position, follower)
  have start : comesTo 0 machine := ⟨Scanned.start tokens fresh first, other, inStep, .refl⟩
  have keeps (position : Nat) (machine : Machine) (next : Nat) (later : Machine)
      (here : comesTo position machine)
      (advances : Advances tokens position machine next later) : comesTo next later := by
    obtain ⟨scanned, follower, still, reached⟩ := here
    obtain ⟨nextFollower, follows, inStep⟩ := advances.follow Device.mirror_id placed still
    simp only [Nat.zero_add] at follows
    exact ⟨scanned.advance advances, nextFollower, inStep, reached.trans (.of_step follows.execute)⟩
  have ends := execute_endsWithin keeps bound start
  rw [finished] at ends
  obtain ⟨position, ⟨scanned, follower, still, reached⟩, past⟩ := ends
  have ended : position = tokens.size :=
    Nat.le_antisymm scanned.within (Array.getElem?_eq_none_iff.mp past)
  subst ended
  exact ⟨follower, still, reached⟩

/-! ## The second part -/

/-- Which instruction was dispatched last is forgotten with the next one. -/
theorem Machine.execute_withIndex {tokens : Array Token} {position : Nat} {token : Token}
    (found : tokens[position]? = some token) (machine : Machine) (index bound : Nat) :
    execute tokens (bound + 1) position { machine with index } =
      execute tokens (bound + 1) position machine := by
  obtain ⟨device, loops, last, events⟩ := machine
  simp only [execute, found, dispatch]

/-- The second error says of its fault what the first says, for a place some lines further
down. -/
def RunError.Below (lines : Nat) (error below : RunError) : Prop :=
  ∃ report lower line, error = .reported report ∧ below = .reported lower ∧
    lower.kind = report.kind ∧ lower.description = report.description ∧
    report.line = some line ∧ lower.line = some (line + lines) ∧ lower.column = report.column

theorem RunError.below_of_tells {fault : RunFault} {error below : RunError} {lines : Nat}
    (tells : error.Tells fault) (belowTells : below.Tells (fault.below lines)) :
    error.Below lines below := by
  obtain ⟨report, reported, cause, line, column⟩ := tells
  obtain ⟨lower, lowerReported, lowerCause, lowerLine, lowerColumn⟩ := belowTells
  rw [RunFault.cause_below, cause] at lowerCause
  rw [RunFault.token_below] at lowerLine lowerColumn
  obtain ⟨kind, description⟩ := Prod.mk.inj (Except.ok.inj lowerCause)
  refine ⟨report, lower, _, reported, lowerReported, kind.symm, description.symm, line, ?_, ?_⟩
  · rw [lowerLine]
    simp only [Token.below, Position.below, Nat.cast_add]
  · rw [lowerColumn, column]
    rfl

namespace Session

/-- A session is where another is that has run only the last part of its program: on the
same tape, with the same input and output, and at places that lie behind the tokens of the
first part. -/
structure Behind (tokens : Nat) (session whole : Session) : Prop where
  tape : whole.machine.device.tape = session.machine.device.tape
  input : whole.machine.device.input = session.machine.device.input
  chunks : whole.machine.device.output.chunks = session.machine.device.output.chunks
  loops : whole.machine.loops = session.machine.loops.map (tokens + ·)
  index : 0 < session.tokens.size → whole.machine.index = tokens + session.machine.index

/-- The second run, of a program with some tokens more before it on some lines, ends as
the first. -/
inductive Composed (tokens lines : Nat) : SessionRun → SessionRun → Prop where
  | completed {last whole : Session} :
      last.Behind tokens whole → Composed tokens lines (.completed last) (.completed whole)
  | failed {last whole : Session} {error below : RunError} :
      last.Behind tokens whole → error.Below lines below →
      Composed tokens lines (.failed last error) (.failed whole below)
  | suspended {last whole : Session} {position : Nat} :
      Composed tokens lines (.suspended last position) (.suspended whole (tokens + position))

variable {machine other : Machine} {tokens lines : Nat} {recount : Nat → Nat}

theorem behind_of_inStep (inStep : machine.InStep (Device.extend 0 recount) tokens other)
    (own whole : Array Token) :
    Behind tokens { machine, tokens := own } { machine := other, tokens := whole } := by
  obtain ⟨device, loops, index⟩ := inStep
  refine ⟨?_, ?_, ?_, loops, fun _ => index⟩
  · simp only [device, Device.extend, Tape.extend_zero]
  · simp only [device, Device.extend]
  · simp only [device, Device.extend]

theorem composed_of_inStep {program second : Bytes} {run wholeRun : Run}
    (inStep : run.InStep (Device.extend 0 recount) (Interruption.EasedBy 0) tokens lines wholeRun)
    (tells : ∀ last fault, run = .faulted last fault → (errorOf second fault).Tells fault)
    (wholeTells : ∀ last fault, wholeRun = .faulted last fault →
      (errorOf program fault).Tells fault) :
    Composed tokens lines (accepted second run) (accepted program wholeRun) := by
  cases inStep with
  | suspended inStep => exact .suspended
  | finished inStep =>
      obtain ⟨tape, input, chunks, loops, index⟩ := behind_of_inStep inStep
        (Lexer.tokenize second) (Lexer.tokenize program)
      exact .completed ⟨tape, input, chunks, loops, index⟩
  | faulted inStep =>
      obtain ⟨tape, input, chunks, loops, index⟩ := behind_of_inStep inStep
        (Lexer.tokenize second) (Lexer.tokenize program)
      exact .failed ⟨tape, input, chunks, loops, index⟩
        (RunError.below_of_tells (tells _ _ rfl) (wholeTells _ _ rfl))
  | @excused _ fault _ eased =>
      cases fault with
      | notInstruction error | noOpenLoop token => cases eased
      | interrupted token cause => exact absurd eased.1 (Nat.lt_irrefl 0)

/-- The run of the second program starts on the same device as its part of the whole, where
the first part has left it, only that the output was flushed in between. -/
theorem second_inStep {machine follower : Machine} (still : machine.InStep id 0 follower)
    (closed : machine.loops = []) (tokens : Array Token) (second : Bytes) :
    (({ machine := recorded machine, tokens } : Session).machineFor second).InStep
      (Device.extend 0 (· - 1)) tokens.size { follower with index := tokens.size } := by
  obtain ⟨device, loops, index⟩ := still
  refine ⟨?_, ?_, rfl⟩
  · simp only [device_machineFor, device, recorded, flushed, Device.extend, Tape.extend_zero]
    rfl
  · rw [loops, closed]
    rfl

/-- From the end of the first part on, the whole does what a run of the second does. -/
theorem composed_second {machine follower : Machine} {first second whole : Bytes}
    (placed : Placed (Lexer.tokenize second) (Lexer.tokenize whole) (Lexer.tokenize first).size
      lines)
    (ended : (Lexer.tokenize whole).size =
      (Lexer.tokenize first).size + (Lexer.tokenize second).size)
    (still : machine.InStep id 0 follower) (closed : machine.loops = []) (bound : Nat) :
    let middle : Session := { machine := recorded machine, tokens := Lexer.tokenize first }
    Composed (Lexer.tokenize first).size lines
      (accepted second (execute (Lexer.tokenize second) bound 0 (middle.machineFor second)))
      (accepted whole
        (execute (Lexer.tokenize whole) bound (Lexer.tokenize first).size follower)) := by
  intro middle
  have inStep := second_inStep still closed (Lexer.tokenize first) second
  have here := placed.getElem? ended 0
  rw [Nat.add_zero] at here
  cases found : (Lexer.tokenize second)[0]? with
  | none =>
      have noTokens : ¬0 < (Lexer.tokenize second).size :=
        Nat.not_lt.mpr (Array.getElem?_eq_none_iff.mp found)
      rw [found] at here
      rw [execute_end found, execute_end here]
      obtain ⟨tape, input, chunks, loops, _⟩ := behind_of_inStep inStep
        (Lexer.tokenize second) (Lexer.tokenize whole)
      exact .completed ⟨tape, input, chunks, loops, fun some => absurd some noTokens⟩
  | some token =>
      rw [found] at here
      cases bound with
      | zero =>
          rw [execute_zero found, execute_zero here]
          exact .suspended
      | succ bound =>
          -- The first dispatch overwrites the position that the first part has left.
          rw [← execute_withIndex here follower (Lexer.tokenize first).size]
          have agree := execute_inStep (Device.extend_mirror 0 (· - 1)) placed ended
            (bound + 1) 0 inStep
          exact composed_of_inStep agree (fun _ _ faulted => errorOf_tells faulted second)
            (fun _ _ faulted => errorOf_tells faulted whole)

/-- What a run of one program below another comes to when the first has completed. -/
theorem composed_run {session middle : Session} {first : Bytes} {enough : Nat}
    (flushes : session.AlwaysFlushes)
    (completed : session.run enough (.contents first) = .completed middle)
    (closed : middle.machine.loops = []) (second : Bytes) :
    ∃ steps, ∀ bound, Composed (Lexer.tokenize first).size (1 + first.count Bytes.lineFeed)
      (middle.run bound (.contents second))
      (session.run (steps + bound) (.contents (first ++ Bytes.lineFeed :: second))) := by
  obtain ⟨machine, finished, rfl, middleFlushes⟩ :=
    exists_finished_of_completed (Source.read_contents first) flushes completed
  let whole := first ++ Bytes.lineFeed :: second
  have together : (session.machineFor first).InStep id 0 (session.machineFor whole) :=
    ⟨rfl, rfl, rfl⟩
  obtain ⟨follower, still, steps, reached⟩ :=
    reaches_end (Lexer.tokenize_placed_first first second) together rfl rfl finished
  refine ⟨steps, fun bound => ?_⟩
  have comes : execute (Lexer.tokenize whole) (steps + bound) 0 (session.machineFor whole) =
      execute (Lexer.tokenize whole) bound (Lexer.tokenize first).size follower := reached bound
  rw [run_eq_of_alwaysFlushes (Source.read_contents second) middleFlushes,
    run_eq_of_alwaysFlushes (Source.read_contents whole) flushes, comes]
  exact composed_second (Lexer.tokenize_placed_second first second)
    (Lexer.size_tokenize_append first second) still closed bound

namespace Composed

variable {run whole : SessionRun}

private theorem completed_iff (composed : Composed tokens lines run whole) :
    (∃ last, whole = .completed last) ↔ ∃ last, run = .completed last := by
  cases composed with
  | completed behind => simp
  | failed behind below => simp
  | suspended => simp

private theorem suspended_iff (composed : Composed tokens lines run whole) :
    (∃ last position, whole = .suspended last position) ↔
      ∃ last position, run = .suspended last position := by
  cases composed with
  | completed behind => simp
  | failed behind below => simp
  | suspended => simp

private theorem exists_failed {last : Session} {error : RunError}
    (composed : Composed tokens lines (.failed last error) whole) :
    ∃ final below, whole = .failed final below ∧ last.Behind tokens final ∧
      error.Below lines below := by
  cases composed with
  | failed behind below => exact ⟨_, _, rfl, behind, below⟩

end Composed

/-- If a program completes with no open loop, a run of it with another program below it
does what the two do one after the other: it completes if the second does, it never ends
if the second never does, and it fails as the second does, on a line further down. -/
theorem runs_compose_sequentially {session middle : Session} {first : Bytes} {enough : Nat}
    (flushes : session.AlwaysFlushes)
    (completed : session.run enough (.contents first) = .completed middle)
    (closed : middle.machine.loops = []) (second : Bytes) :
    let whole := fun bound =>
      session.run bound (.contents (first ++ Bytes.lineFeed :: second))
    let behind := fun bound => middle.run bound (.contents second)
    (∃ steps, ∀ bound, Composed (Lexer.tokenize first).size (1 + first.count Bytes.lineFeed)
      (behind bound) (whole (steps + bound))) ∧
    ((∃ bound last, whole bound = .completed last) ↔
      ∃ bound last, behind bound = .completed last) ∧
    ((∀ bound, ∃ last position, whole bound = .suspended last position) ↔
      ∀ bound, ∃ last position, behind bound = .suspended last position) := by
  intro whole behind
  obtain ⟨steps, composed⟩ := composed_run flushes completed closed second
  have persists (bound : Nat)
      (ended : ∀ last position, whole bound ≠ .suspended last position) :
      whole (steps + bound) = whole bound := by
    rw [Nat.add_comm]
    exact run_persists session _ bound steps ended
  refine ⟨⟨steps, composed⟩, ⟨?_, ?_⟩, ⟨?_, ?_⟩⟩
  · intro found
    obtain ⟨bound, last, ran⟩ := found
    have ended : ∀ last position, whole bound ≠ .suspended last position := by
      rw [ran]
      exact nofun
    have later := (persists bound ended).trans ran
    exact ⟨bound, (composed bound).completed_iff.mp ⟨last, later⟩⟩
  · intro found
    obtain ⟨bound, last, ran⟩ := found
    exact ⟨steps + bound, (composed bound).completed_iff.mpr ⟨last, ran⟩⟩
  · intro unending bound
    exact (composed bound).suspended_iff.mp (unending (steps + bound))
  · intro unending bound
    have later : ∃ last position, whole (steps + bound) = .suspended last position :=
      (composed bound).suspended_iff.mpr (unending bound)
    by_contra ended
    have same := persists bound fun last position suspended => ended ⟨last, position, suspended⟩
    exact ended (same ▸ later)

/-- An overflow in a program below another is one on the second line. -/
theorem overflow_is_on_second_line :
    let first := Bytes.ofString "inc 1"
    let second := Bytes.ofString "dec 2"
    let session := Session.start 1 (.ofBytes #[]) {}
    session.AlwaysFlushes ∧
      ∃ middle, session.run 1 (.contents first) = .completed middle ∧ middle.machine.loops = [] ∧
        ∃ bound whole report,
          session.run bound (.contents (first ++ Bytes.lineFeed :: second)) =
            .failed whole (.reported report) ∧
          report.kind = .overflow ∧ report.line = some 2 ∧ report.column = some 1 := by
  intro first second session
  have flushes : session.AlwaysFlushes := fun _ => rfl
  have completes : (session.run 1 (.contents first)).completed?.isSome := by decide +kernel
  have completed := SessionRun.eq_completed completes
  have closed : (session.run 1 (.contents first)).session.machine.loops = [] := by decide +kernel
  have fails : ((session.run 1 (.contents first)).session.run 1 (.contents second)).error? =
      some (.reported (.make .overflow (Fault.subtraction 2).message (some second) (some 1)
        (some 1))) := by decide +kernel
  obtain ⟨last, ran⟩ : ∃ last, (session.run 1 (.contents first)).session.run 1 (.contents second) =
      .failed last (.reported _) := ⟨_, SessionRun.eq_failed fails⟩
  obtain ⟨⟨steps, composed⟩, _⟩ := runs_compose_sequentially flushes completed closed second
  have here := composed 1
  simp only [ran] at here
  obtain ⟨whole, below, failed, _, told⟩ := here.exists_failed
  obtain ⟨report, lower, line, reported, rfl, kind, _, own, further, column⟩ := told
  cases reported
  cases own
  exact ⟨flushes, _, completed, closed, steps + 1, whole, lower, failed, kind, further, column⟩

end Session

end WordTape
