import WordTape.Proofs.Device.Effort
import WordTape.Proofs.LoopStack

/-!
# What makes a run endless

A run goes on to larger positions, except behind a `pol` that finds a cell other than zero and
goes back to the body of its loop. So between two such moments a run makes no more dispatches
than there are tokens, and a program without a `pol` comes to its end.
-/

set_option autoImplicit false

namespace WordTape

namespace Run

/-- The position that a run is suspended at, if it is. -/
def pausedAt? : Run → Option Nat
  | suspended position _ => some position
  | finished _ | faulted _ _ => none

private theorem eq_of_pausedAt? {run : Run} {position : Nat}
    (shown : run.pausedAt? = some position) :
    run = .suspended position run.machine := by
  cases run with
  | finished machine | faulted machine fault => cases shown
  | suspended place machine =>
      cases shown
      rfl

end Run

namespace Machine

/-- The machine is at a `pol`, with the pointer on a cell that is not zero. -/
def Repeats (tokens : Array Token) (position : Nat) (machine : Machine) : Prop :=
  Scan.begins .loopClose tokens position = true ∧
    ∃ value, machine.device.tape.current = .ok value ∧ value ≠ 0

/-- The dispatch of a number, counted from zero, is at a position, to which a run from the first
token has come with the machine. -/
def DispatchesAt (tokens : Array Token) (start : Machine) (number position : Nat)
    (machine : Machine) : Prop :=
  execute tokens number 0 start = .suspended position machine

/-- The dispatch of a number is at a `pol`, with the pointer on a cell that is not zero. -/
def RepeatsAt (tokens : Array Token) (start : Machine) (number : Nat) : Prop :=
  ∃ position machine, DispatchesAt tokens start number position machine ∧
    Repeats tokens position machine

variable {tokens : Array Token} {start machine later : Machine}
  {number position next bound : Nat}

/-! ## One dispatch -/

/-- Where a run goes on behind a dispatch: at a larger position, or behind the `lop` of the
innermost open loop. -/
inductive GoesOnAt (tokens : Array Token) (position : Nat) (machine : Machine) : Nat → Prop where
  | onward {next : Nat} : ¬Repeats tokens position machine → position < next →
      GoesOnAt tokens position machine next
  | back {opened : Nat} : Repeats tokens position machine →
      machine.loops.head? = some opened → (Scan.openLoops tokens position).getLast? = some opened →
      opened < position → GoesOnAt tokens position machine (opened + 1)

theorem Advances.goesOnAt (scanned : Scanned tokens position machine)
    (advances : Advances tokens position machine next later) :
    GoesOnAt tokens position machine next := by
  have boundary := scanned.boundary
  cases advances with
  | @act token instruction device stands notOpen notClose acted =>
      have other := Scan.not_begins_loopClose stands boundary notClose
      refine .onward (fun repeats => ?_) (Nat.lt_add_of_pos_right instruction.length_pos)
      cases other.symm.trans repeats.1
  | openLoop stands =>
      have other := Scan.not_begins_loopClose stands boundary nofun
      refine .onward (fun repeats => ?_) (Nat.lt_succ_self position)
      cases other.symm.trans repeats.1
  | closeLoop stands top current =>
      refine .onward (fun repeats => ?_) (Nat.lt_succ_self position)
      obtain ⟨_, value, found, nonzero⟩ := repeats
      cases current.symm.trans found
      exact nonzero rfl
  | @repeatLoop token opened outer value stands top current nonzero =>
      have closes := Scan.begins_of_stands stands boundary .loopClose
      have last : (Scan.openLoops tokens position).getLast? = some opened := by
        rw [← scanned.loops, top, List.reverse_cons, List.getLast?_concat]
      exact .back ⟨closes, value, current, nonzero⟩ (congrArg List.head? top) last
        (Scan.lt_of_mem_openLoops (List.mem_of_getLast? last))

/-! ## Many dispatches -/

private theorem eq_of_execute_zero
    (came : execute tokens 0 position machine = .suspended next later) :
    position = next ∧ machine = later := by
  cases found : tokens[position]? with
  | none =>
      rw [execute_end found] at came
      cases came
  | some token =>
      rw [execute_zero found] at came
      cases came
      exact ⟨rfl, rfl⟩

/-- A run that comes further than to its first dispatch has advanced there. -/
theorem exists_advances_of_execute
    (came : execute tokens (bound + 1) position machine = .suspended next later) :
    ∃ second moment, Advances tokens position machine second moment ∧
      execute tokens bound second moment = .suspended next later := by
  cases found : tokens[position]? with
  | none =>
      rw [execute_end found] at came
      cases came
  | some token =>
      rcases advances_or_faults found machine with
        ⟨second, moment, advances⟩ | ⟨last, fault, faults⟩
      · rw [advances.execute] at came
        exact ⟨second, moment, advances, came⟩
      · rw [faults.execute] at came
        cases came

/-- The dispatch before the last moment of a run. -/
theorem exists_advances_last
    (came : execute tokens (bound + 1) position machine = .suspended next later) :
    ∃ place moment, execute tokens bound position machine = .suspended place moment ∧
      Advances tokens place moment next later := by
  induction bound generalizing position machine with
  | zero =>
      obtain ⟨second, moment, advances, came⟩ := exists_advances_of_execute came
      obtain ⟨rfl, rfl⟩ := eq_of_execute_zero came
      obtain ⟨token, found, _⟩ := advances.dispatch
      exact ⟨position, machine, execute_zero found machine, advances⟩
  | succ bound ih =>
      obtain ⟨second, moment, advances, came⟩ := exists_advances_of_execute came
      obtain ⟨place, last, suspended, onward⟩ := ih came
      rw [← advances.execute] at suspended
      exact ⟨place, last, suspended, onward⟩

section

variable (fresh : start.loops = []) (first : start.index = 0)

include fresh first

theorem DispatchesAt.scanned (dispatches : DispatchesAt tokens start number position machine) :
    Scanned tokens position machine ∧ position < tokens.size := by
  have ends : EndsWithin (Scanned tokens) tokens 0 start number _ :=
    execute_endsWithin (fun _ _ _ _ => Scanned.advance) number (Scanned.start tokens fresh first)
  rw [dispatches] at ends
  exact ends

theorem DispatchesAt.goesOnAt (dispatches : DispatchesAt tokens start number position machine)
    (onward : DispatchesAt tokens start (number + 1) next later) :
    GoesOnAt tokens position machine next := by
  obtain ⟨place, moment, came, advances⟩ := exists_advances_last onward
  cases dispatches.symm.trans came
  exact advances.goesOnAt (dispatches.scanned fresh first).1

/-- As long as no dispatch goes back, each takes the run to a larger position. -/
theorem DispatchesAt.le_of_onward {earlier more : Nat}
    (onward : ∀ number, earlier ≤ number → number < earlier + more →
      ¬RepeatsAt tokens start number)
    (dispatches : DispatchesAt tokens start (earlier + more) position machine) :
    more ≤ position := by
  induction more generalizing position machine with
  | zero => exact Nat.zero_le position
  | succ more ih =>
      obtain ⟨place, moment, came, advances⟩ := exists_advances_last dispatches
      have here : DispatchesAt tokens start (earlier + more) place moment := came
      have before : more ≤ place :=
        ih (fun number since before => onward number since (Nat.lt_succ_of_lt before)) here
      cases advances.goesOnAt (here.scanned fresh first).1 with
      | onward _ further => exact Nat.lt_of_le_of_lt before further
      | back repeats =>
          have goesBack : RepeatsAt tokens start (earlier + more) := ⟨place, moment, here, repeats⟩
          exact absurd goesBack (onward _ (Nat.le_add_right earlier more) (Nat.lt_succ_self _))

/-- Among as many dispatches in a row as there are tokens, one goes back, if another follows. -/
theorem DispatchesAt.exists_repeatsAt {earlier : Nat}
    (dispatches : DispatchesAt tokens start (earlier + tokens.size) position machine) :
    ∃ number, earlier ≤ number ∧ number < earlier + tokens.size ∧
      RepeatsAt tokens start number := by
  by_contra none
  have further := dispatches.le_of_onward fresh first fun number since before repeats =>
    none ⟨number, since, before, repeats⟩
  exact Nat.not_lt.mpr further (dispatches.scanned fresh first).2

private theorem not_repeatsAt
    (straight : ∀ position < tokens.size, Scan.begins .loopClose tokens position = false) :
    ¬RepeatsAt tokens start number := by
  rintro ⟨position, machine, here, closes, _⟩
  cases (straight position (here.scanned fresh first).2).symm.trans closes

end

end Machine

open Machine

/-- A session is suspended because its execution is. -/
theorem Session.exists_dispatchesAt {session last : Session} {program : Bytes}
    {bound position : Nat}
    (suspended : session.run bound (.contents program) = .suspended last position) :
    ∃ place machine,
      DispatchesAt (Lexer.tokenize program) (session.machineFor program) bound place machine := by
  have shows := session.run_shows bound (Source.read_contents program)
  rw [suspended] at shows
  cases shows with
  | suspended unsettled =>
      cases ran : execute (Lexer.tokenize program) bound 0 (session.machineFor program) with
      | suspended place machine => exact ⟨place, machine, ran⟩
      | finished machine | faulted machine fault =>
          rw [ran] at unsettled
          cases unsettled

/-- Writing, clearing and reading a line do no more than there are cells from the pointer on, but
for one read, whatever the tape and the streams. A program without a `pol` as an instruction ends
within as many dispatches as it has tokens, at larger and larger positions. In any program only
a `pol` on a cell that is not zero goes back, to the body of the innermost open loop, and among
as many dispatches in a row as there are tokens one does so or is the last. -/
theorem only_repeated_loops_run_on (session : Session) (program : Bytes) :
    let tokens := Lexer.tokenize program
    let start := session.machineFor program
    (∀ (device : Device) (place : Nat), device.tape.pointer = place → place ≤ device.tape.size →
      let room := device.tape.size - place
      device.writeRun.state.output.writes ≤ device.output.writes + room ∧
        device.tape.clearWithin room = some device.tape.clearRun ∧
        device.readLine.state.input.requests ≤ device.input.requests + (room + 1)) ∧
    ((∀ position < tokens.size, Scan.begins .loopClose tokens position = false) →
      (∀ bound last position, tokens.size ≤ bound →
        session.run bound (.contents program) ≠ .suspended last position) ∧
      ∀ number position next machine later,
        DispatchesAt tokens start number position machine →
        DispatchesAt tokens start (number + 1) next later → position < next) ∧
    (∀ number position next machine later,
      DispatchesAt tokens start number position machine →
      DispatchesAt tokens start (number + 1) next later → GoesOnAt tokens position machine next) ∧
    ∀ earlier position machine,
      DispatchesAt tokens start (earlier + tokens.size) position machine →
      ∃ number, earlier ≤ number ∧ number < earlier + tokens.size ∧
        RepeatsAt tokens start number := by
  intro tokens start
  have fresh : start.loops = [] := rfl
  have first : start.index = 0 := rfl
  have goesOn {number position next : Nat} {machine later : Machine}
      (here : DispatchesAt tokens start number position machine)
      (onward : DispatchesAt tokens start (number + 1) next later) :
      GoesOnAt tokens position machine next := here.goesOnAt fresh first onward
  refine ⟨?_, ?_, fun _ _ _ _ _ => goesOn, fun _ _ _ here => here.exists_repeatsAt fresh first⟩
  · intro device place starts _ room
    have remaining : device.tape.remaining = room := Tape.remaining_eq starts
    rw [← remaining]
    exact ⟨device.writes_writeRun_le, Tape.clearWithin_eq le_rfl, device.requests_readLine_le⟩
  · intro straight
    refine ⟨?_, ?_⟩
    · intro bound last position enough suspended
      obtain ⟨place, machine, here⟩ := Session.exists_dispatchesAt suspended
      have whole : DispatchesAt tokens start (0 + bound) place machine :=
        (Nat.zero_add bound).symm ▸ here
      have further : bound ≤ place := whole.le_of_onward fresh first fun _ _ _ =>
        not_repeatsAt fresh first straight
      exact Nat.not_lt.mpr (enough.trans further) (here.scanned fresh first).2
    · intro number position next machine later here onward
      cases goesOn here onward with
      | onward _ further => exact further
      | back repeats =>
          exact absurd ⟨position, machine, here, repeats⟩ (not_repeatsAt fresh first straight)

/-- An input that never ends is read up to the last cell. A `pol` that is stored as a string goes
nowhere back, and one behind a countdown goes back as long as this is not at zero. -/
theorem countdown_goes_back_to_its_body :
    let tape : Tape := { cells := #[1, 1, 1, 1], pointer := 1 }
    let device : Device := { tape, input := { reply := fun _ => .byte 97 }, output := {} }
    let session : Session := { machine := { device } }
    let stored := Bytes.ofString "lop set pol"
    let countdown := Bytes.ofString "inc 3 lop dec 1 pol"
    let tokens := Lexer.tokenize countdown
    let start := session.machineFor countdown
    (tape.pointer = 1 ∧ 1 ≤ tape.size ∧ device.writeRun.state.output.writes ≤ 3 ∧
      tape.clearWithin 3 = some tape.clearRun ∧ device.readLine.state.input.requests ≤ 4) ∧
    ((∀ position < (Lexer.tokenize stored).size,
        Scan.begins .loopClose (Lexer.tokenize stored) position = false) ∧
      ∀ last position, session.run 3 (.contents stored) ≠ .suspended last position) ∧
    (∃ machine later, DispatchesAt tokens start 3 5 machine ∧ DispatchesAt tokens start 4 3 later ∧
      GoesOnAt tokens 5 machine 3) ∧
    (∃ machine, DispatchesAt tokens start (0 + tokens.size) 3 machine) ∧
    ∃ number, 0 ≤ number ∧ number < 0 + tokens.size ∧ RepeatsAt tokens start number := by
  intro tape device session stored countdown tokens start
  have straight : ∀ position < (Lexer.tokenize stored).size,
      Scan.begins .loopClose (Lexer.tokenize stored) position = false := by decide +kernel
  have closes : DispatchesAt tokens start 3 5 _ := Run.eq_of_pausedAt? (by decide +kernel)
  have back : DispatchesAt tokens start 4 3 _ := Run.eq_of_pausedAt? (by decide +kernel)
  have late : DispatchesAt tokens start (0 + tokens.size) 3 _ :=
    Run.eq_of_pausedAt? (by decide +kernel)
  obtain ⟨bounds, ends, _⟩ := only_repeated_loops_run_on session stored
  obtain ⟨_, _, goesOn, repeats⟩ := only_repeated_loops_run_on session countdown
  obtain ⟨writes, clears, reads⟩ := bounds device 1 rfl (by decide)
  exact ⟨⟨rfl, by decide, writes, clears, reads⟩,
    ⟨straight, fun last position => (ends straight).1 3 last position (by decide +kernel)⟩,
    ⟨_, _, closes, back, goesOn 3 5 3 _ _ closes back⟩, ⟨_, late⟩, repeats 0 3 _ late⟩

end WordTape
