import WordTape.Proofs.Invariants
import WordTape.Proofs.SessionRun
import WordTape.Proofs.Structure.OpenLoops
import WordTape.Proofs.Transition

/-!
# The stack of open loops

The stack of open loops is changed by execution only. At every moment of a run, after any
number of repeated loop bodies, it is nevertheless the list of the loops that a scan of
the tokens finds open at the position of the machine, and every depth in the log is the
number of loops opened less the number of loops closed.
-/

set_option autoImplicit false

namespace WordTape

/-! ## The log -/

namespace Event

def isOpened : Event → Bool
  | loopOpened _ _ => true
  | _ => false

def isClosed : Event → Bool
  | loopClosed _ _ => true
  | _ => false

/-- The number of open loops that a record shows. -/
def depth? : Event → Option Nat
  | loopOpened _ depth | loopClosed _ depth => some depth
  | runFinished openLoops => some openLoops
  | runStarted _ _ | tapeReset _ => none

end Event

/-- The log has this many more records of opened than of closed loops. -/
def OpenIn (log : List Event) (depth : Nat) : Prop :=
  depth + log.countP Event.isClosed = log.countP Event.isOpened

/-- Every depth that a record shows is the number of loops open in the log up to it. -/
def DepthsCount (log : List Event) : Prop :=
  ∀ earlier record depth, earlier ++ [record] <+: log → record.depth? = some depth →
    OpenIn (earlier ++ [record]) depth

theorem DepthsCount.nil : DepthsCount [] := by
  intro earlier record depth shown
  have := shown.length_le
  simp at this

theorem DepthsCount.concat {log : List Event} {record : Event} (counts : DepthsCount log)
    (shows : ∀ depth, record.depth? = some depth → OpenIn (log ++ [record]) depth) :
    DepthsCount (log ++ [record]) := by
  intro earlier other depth shown depthOf
  rcases List.prefix_concat_iff.mp shown with whole | before
  · obtain ⟨rfl, same⟩ := List.append_inj' whole rfl
    cases same
    exact shows depth depthOf
  · exact counts earlier other depth before depthOf

theorem OpenIn.opened {log : List Event} {depth : Nat} (opens : OpenIn log depth)
    (position shown : Nat) : OpenIn (log ++ [.loopOpened position shown]) (depth + 1) := by
  simp only [OpenIn, List.countP_append, List.countP_cons, List.countP_nil, Event.isClosed,
    Event.isOpened] at opens ⊢
  simp only [Bool.false_eq_true, ↓reduceIte]
  omega

theorem OpenIn.closed {log : List Event} {depth : Nat} (opens : OpenIn log (depth + 1))
    (position shown : Nat) : OpenIn (log ++ [.loopClosed position shown]) depth := by
  simp only [OpenIn, List.countP_append, List.countP_cons, List.countP_nil, Event.isClosed,
    Event.isOpened] at opens ⊢
  simp only [Bool.false_eq_true, ↓reduceIte]
  omega

theorem OpenIn.finished {log : List Event} {depth : Nat} (opens : OpenIn log depth)
    (shown : Nat) : OpenIn (log ++ [.runFinished shown]) depth := by
  simpa [OpenIn, Event.isClosed, Event.isOpened] using opens

/-- The machine has added records to a log, in which every depth is right, and as many
loops are open in them as are on the stack. -/
def Machine.Logged (before : List Event) (machine : Machine) : Prop :=
  ∃ log, machine.events.toList = before ++ log ∧ DepthsCount log ∧
    OpenIn log machine.loops.length

/-! ## The stack -/

/-- The machine stands where the scan comes to an instruction or to the end, and its
stack holds the loops that are open there. -/
structure Machine.Scanned (tokens : Array Token) (position : Nat) (machine : Machine) :
    Prop where
  within : position ≤ tokens.size
  boundary : Scan.isOperand tokens position = false
  loops : machine.loops.reverse = Scan.openLoops tokens position
  ended : position = tokens.size → machine.index = Scan.lastBoundary tokens

namespace Machine

variable {tokens : Array Token} {position next : Nat} {machine later : Machine}
  {before : List Event}

theorem Scanned.start (tokens : Array Token) (fresh : machine.loops = [])
    (first : machine.index = 0) : Scanned tokens 0 machine where
  within := Nat.zero_le _
  boundary := rfl
  loops := by simp [fresh, Scan.openLoops, Scan.unmatched]
  ended := by
    intro empty
    simp [first, Scan.lastBoundary, ← empty]

theorem Scanned.advance (scanned : Scanned tokens position machine)
    (advances : Advances tokens position machine next later) : Scanned tokens next later := by
  obtain ⟨within, boundary, loops, ended⟩ := scanned
  cases advances with
  | act stands notOpen notClose acted =>
      exact ⟨stands.within, Scan.isOperand_next stands boundary,
        loops.trans (Scan.openLoops_next stands boundary notOpen notClose).symm,
        fun last => (Scan.lastBoundary_eq stands boundary last).symm⟩
  | openLoop stands =>
      have opens := Scan.begins_of_stands stands boundary .loopOpen
      refine ⟨stands.within, Scan.isOperand_next stands boundary, ?_,
        fun last => (Scan.lastBoundary_eq stands boundary last).symm⟩
      rw [Scan.openLoops_succ_loopOpen opens, ← loops]
      exact List.reverse_cons
  | closeLoop stands top current =>
      have closes := Scan.begins_of_stands stands boundary .loopClose
      refine ⟨stands.within, Scan.isOperand_next stands boundary, ?_,
        fun last => (Scan.lastBoundary_eq stands boundary last).symm⟩
      rw [Scan.openLoops_succ_loopClose closes, ← loops, top, List.reverse_cons,
        List.dropLast_concat]
  | @repeatLoop token opened outer value stands top current nonzero =>
      -- The body is entered again with the stack as it was when its loop was opened.
      have split : Scan.openLoops tokens position = outer.reverse ++ [opened] := by
        rw [← loops, top, List.reverse_cons]
      have member : opened ∈ Scan.openLoops tokens position :=
        split ▸ List.mem_append_right _ (List.mem_singleton_self opened)
      have back := Scan.lt_of_mem_openLoops member
      have here := (Array.getElem?_eq_some_iff.mp stands.found).1
      refine ⟨by omega, Scan.isOperand_of_begins (Scan.begins_of_mem_openLoops member) rfl, ?_,
        fun last => by omega⟩
      rw [Scan.openLoops_innermost split, ← split]
      exact loops

theorem Logged.advance (logged : Logged before machine)
    (advances : Advances tokens position machine next later) : Logged before later := by
  obtain ⟨log, events, counts, opens⟩ := logged
  cases advances with
  | act stands notOpen notClose acted => exact ⟨log, events, counts, opens⟩
  | repeatLoop stands top current nonzero => exact ⟨log, events, counts, opens⟩
  | openLoop stands =>
      have more := opens.opened position (machine.loops.length + 1)
      refine ⟨log ++ [_], ?_, counts.concat ?_, more⟩
      · simp only [Array.toList_push, events, List.append_assoc]
      · intro depth shown
        cases shown
        exact more
  | @closeLoop token opened outer stands top current =>
      rw [top] at opens
      have fewer := opens.closed position outer.length
      refine ⟨log ++ [_], ?_, counts.concat ?_, fewer⟩
      · simp only [Array.toList_push, events, List.append_assoc]
      · intro depth shown
        cases shown
        exact fewer

theorem Logged.fault {last : Machine} {fault : RunFault} (logged : Logged before machine)
    (faults : Faults tokens position machine last fault) : Logged before last := by
  rw [Logged, faults.events_eq, faults.loops_eq]
  exact logged

/-- Where a run has come, the scan comes, too: to the instruction that is dispatched next,
to the last one after a finished run, and to the faulting one, which the run came to
before its fault. The stack holds the loops that are open there. -/
def KeepsToScan (tokens : Array Token) (machine : Machine) : Run → Prop
  | .suspended position paused =>
      Scan.IsBoundary tokens position ∧ paused.loops.reverse = Scan.openLoops tokens position
  | .finished last =>
      last.index = Scan.lastBoundary tokens ∧
        last.loops.reverse = Scan.openLoops tokens tokens.size
  | .faulted last fault =>
      Scan.IsBoundary tokens last.index ∧
        last.loops.reverse = Scan.openLoops tokens last.index ∧
        ∃ earlier paused token, execute tokens earlier 0 machine = .suspended last.index paused ∧
          tokens[last.index]? = some token ∧
          paused.dispatch tokens last.index token = .faulted last fault

theorem execute_keepsToScan (tokens : Array Token) (bound : Nat) (fresh : machine.loops = [])
    (first : machine.index = 0) :
    KeepsToScan tokens machine (execute tokens bound 0 machine) := by
  have ends : EndsWithin (Scanned tokens) tokens 0 machine bound _ :=
    execute_endsWithin (fun _ _ _ _ => Scanned.advance) bound (Scanned.start tokens fresh first)
  cases ran : execute tokens bound 0 machine with
  | suspended position paused =>
      rw [ran] at ends
      obtain ⟨scanned, here⟩ := ends
      exact ⟨⟨here, scanned.boundary⟩, scanned.loops⟩
  | finished last =>
      rw [ran] at ends
      obtain ⟨position, scanned, past⟩ := ends
      have ended : position = tokens.size :=
        Nat.le_antisymm scanned.within (Array.getElem?_eq_none_iff.mp past)
      exact ⟨scanned.ended ended, ended ▸ scanned.loops⟩
  | faulted last fault =>
      rw [ran] at ends
      obtain ⟨earlier, position, paused, _, suspended, scanned, faults⟩ := ends
      obtain ⟨token, found, dispatched⟩ := faults.dispatch
      have here := (Array.getElem?_eq_some_iff.mp found).1
      rw [KeepsToScan, faults.index_eq, faults.loops_eq]
      exact ⟨⟨here, scanned.boundary⟩, scanned.loops, earlier, paused, token, suspended, found,
        dispatched⟩

theorem execute_logged (tokens : Array Token) (bound position : Nat)
    (logged : Logged before machine) :
    Logged before (execute tokens bound position machine).machine :=
  execute_keeps (fun _ _ _ _ => Logged.advance) (fun _ _ _ _ => Logged.fault) bound position logged

end Machine

/-! ## Runs of a session -/

open Machine

/-- A session is left with the stack and the position that its execution has come to. -/
theorem Session.run_keeps (session : Session) (program : Bytes) (bound : Nat) :
    let ran := (execute (Lexer.tokenize program) bound 0 (session.machineFor program)).machine
    let ended := session.run bound (.contents program)
    let last := ended.session.machine
    last.loops = ran.loops ∧ last.index = ran.index ∧
      (last.events = ran.events.push (.runFinished ran.loops.length) ∨
        last.events = ran.events ∧ ∀ final, ended ≠ .completed final) := by
  rw [run_eq_of_readable (Source.read_contents program)]
  cases execute (Lexer.tokenize program) bound 0 (session.machineFor program) with
  | suspended position paused => exact ⟨rfl, rfl, .inr ⟨rfl, nofun⟩⟩
  | finished machine | faulted machine fault => exact conclude_keeps _ _ _

private theorem Machine.KeepsToScan.increasing {tokens : Array Token} {machine : Machine}
    {run : Run}
    (keeps : KeepsToScan tokens machine run) : run.machine.loops.reverse.Pairwise (· < ·) := by
  have scanned : ∃ position, run.machine.loops.reverse = Scan.openLoops tokens position := by
    cases run with
    | suspended position paused => exact ⟨position, keeps.2⟩
    | finished last => exact ⟨tokens.size, keeps.2⟩
    | faulted last fault => exact ⟨last.index, keeps.2.1⟩
  obtain ⟨position, scanned⟩ := scanned
  rw [scanned]
  exact Scan.openLoops_increasing tokens position

/-- Where a run stands, the scan of its tokens finds the loops open that are on the stack,
in increasing order. Every depth in the log of the run, and the count in the record of
its completion, is the number of loops opened and not closed up to there. -/
theorem loop_stack_keeps_to_scan (session : Session) (program : Bytes) (bound : Nat) :
    let tokens := Lexer.tokenize program
    let ran := execute tokens bound 0 (session.machineFor program)
    let ended := session.run bound (.contents program)
    let last := ended.session.machine
    KeepsToScan tokens (session.machineFor program) ran ∧
      last.loops = ran.machine.loops ∧ last.index = ran.machine.index ∧
      last.loops.reverse.Pairwise (· < ·) ∧
      ∃ log, last.events.toList = session.machine.events.toList ++
          .runStarted tokens.size session.machine.device.tape.size :: log ∧
        DepthsCount log ∧ OpenIn log last.loops.length ∧
        ((∃ final, ended = .completed final) →
          log.getLast? = some (.runFinished last.loops.length)) := by
  intro tokens ran ended last
  have keeps : KeepsToScan tokens (session.machineFor program) ran :=
    execute_keepsToScan tokens bound rfl rfl
  obtain ⟨loops, index, recorded⟩ := Session.run_keeps session program bound
  refine ⟨keeps, loops, index, loops ▸ keeps.increasing, ?_⟩
  have started : Logged
      (session.machine.events.toList ++ [.runStarted tokens.size session.machine.device.tape.size])
      (session.machineFor program) :=
    ⟨[], by simp [Session.machineFor, Session.load, tokens], .nil, rfl⟩
  obtain ⟨log, events, counts, opens⟩ := execute_logged tokens bound 0 started
  rw [List.append_assoc, List.singleton_append] at events
  rw [← loops] at opens recorded
  rcases recorded with finished | ⟨same, notCompleted⟩
  · have closes := opens.finished last.loops.length
    refine ⟨log ++ [.runFinished last.loops.length], ?_, counts.concat ?_, closes, ?_⟩
    · rw [finished, Array.toList_push, events, List.append_assoc, List.cons_append]
    · intro depth shown
      cases shown
      exact closes
    · intro completed
      exact List.getLast?_concat
  · refine ⟨log, by rw [same, events], counts, opens, ?_⟩
    intro completed
    obtain ⟨final, completed⟩ := completed
    exact absurd completed (notCompleted final)

/-- The `pol` behind `set` is a text, and closes no loop. -/
example : Scan.openLoops (Lexer.tokenize (Bytes.ofString "lop set pol lop pol")) 5 = [0] := by
  decide +kernel

end WordTape
