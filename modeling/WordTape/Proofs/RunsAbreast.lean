import WordTape.Proofs.Device.Abreast
import WordTape.Proofs.SameWords
import WordTape.Proofs.SessionRun

/-!
# Runs abreast

Two programs with the same words run abreast on devices that have the same before them: they
dispatch the same positions, keep the same loops open, and stop together, if they do, for
faults that match. So do the runs of two sessions, whatever these have done before.
-/

set_option autoImplicit false

namespace WordTape

/-- Two machines have the same before them, at the same place with the same open loops. -/
structure Machine.Abreast (start other : Device) (first second : Machine) : Prop where
  device : Device.Abreast start other first.device second.device
  loops : second.loops = first.loops
  index : second.index = first.index

section

variable (tokens others : Array Token) (start other : Device)

inductive Progress.Abreast : Progress → Progress → Prop where
  | next {position : Nat} {first second : Machine} : first.Abreast start other second →
      Abreast (.next position first) (.next position second)
  | faulted {first second : Machine} {fault otherFault : RunFault} :
      first.Abreast start other second → fault.Matches tokens others otherFault →
      Abreast (.faulted first fault) (.faulted second otherFault)

inductive Run.Abreast : Run → Run → Prop where
  | suspended {position : Nat} {first second : Machine} : first.Abreast start other second →
      Abreast (.suspended position first) (.suspended position second)
  | finished {first second : Machine} : first.Abreast start other second →
      Abreast (.finished first) (.finished second)
  | faulted {first second : Machine} {fault otherFault : RunFault} :
      first.Abreast start other second → fault.Matches tokens others otherFault →
      Abreast (.faulted first fault) (.faulted second otherFault)

end

namespace Machine

variable {tokens others : Array Token} {start other : Device} {first second : Machine}
  {position : Nat} {token otherToken : Token}

/-! ## Dispatches -/

section

variable (together : StandTogether tokens others token otherToken)
  (abreast : first.Abreast start other second)

include together abreast

private theorem closeLoop_abreast (position : Nat) :
    Progress.Abreast tokens others start other (first.closeLoop position token)
      (second.closeLoop position otherToken) := by
  obtain ⟨device, loops, index, events⟩ := first
  obtain ⟨otherDevice, otherLoops, otherIndex, otherEvents⟩ := second
  obtain ⟨ahead, sameLoops, sameIndex⟩ := abreast
  have tape : otherDevice.tape = device.tape := ahead.ahead.tape
  simp only at sameLoops sameIndex
  subst sameLoops sameIndex
  simp only [closeLoop, tape]
  split
  · exact .faulted ⟨ahead, rfl, rfl⟩ ⟨rfl, together⟩
  · split
    · exact .faulted ⟨ahead, rfl, rfl⟩ ⟨rfl, together⟩
    · split
      · exact .next ⟨ahead, rfl, rfl⟩
      · exact .next ⟨ahead, rfl, rfl⟩

private theorem act_abreast (instruction : Instruction) (next : Nat) :
    Progress.Abreast tokens others start other
      (match instruction.act first.device with
      | .done device => .next next { first with device }
      | .stopped device cause => .faulted { first with device } (.interrupted token cause))
      (match instruction.act second.device with
      | .done device => .next next { second with device }
      | .stopped device cause =>
          .faulted { second with device } (.interrupted otherToken cause)) := by
  obtain ⟨ahead, loops, index⟩ := abreast
  have acted := ahead.act instruction
  generalize instruction.act first.device = outcome at acted ⊢
  generalize instruction.act second.device = otherOutcome at acted ⊢
  cases acted with
  | done ahead => exact .next ⟨ahead, loops, index⟩
  | stopped cause ahead =>
      refine .faulted ⟨ahead, loops, index⟩ ⟨?_, together⟩
      cases cause <;> rfl

private theorem perform_abreast (instruction : Instruction) (position : Nat) :
    Progress.Abreast tokens others start other (first.perform instruction position token)
      (second.perform instruction position otherToken) := by
  cases instruction with
  | loopOpen =>
      obtain ⟨ahead, loops, index⟩ := abreast
      exact .next ⟨ahead, congrArg (position :: ·) loops, index⟩
  | loopClose => exact closeLoop_abreast together abreast position
  | _ => exact act_abreast together abreast _ _

end

theorem dispatch_abreast (same : SameWords tokens others)
    (abreast : first.Abreast start other second) (found : tokens[position]? = some token)
    (there : others[position]? = some otherToken) :
    Progress.Abreast tokens others start other (first.dispatch tokens position token)
      (second.dispatch others position otherToken) := by
  have here : Abreast start other { first with index := position }
      { second with index := position } := ⟨abreast.device, abreast.loops, rfl⟩
  have fetched := Instruction.fetch_alike same found there
  simp only [dispatch]
  generalize Instruction.fetch tokens position token = read at fetched ⊢
  generalize Instruction.fetch others position otherToken = otherRead at fetched ⊢
  cases fetched with
  | error matched => exact .faulted here matched
  | ok instruction => exact perform_abreast ⟨position, found, there⟩ here instruction position

/-- Runs that start abreast end abreast. -/
theorem execute_abreast (same : SameWords tokens others) (bound position : Nat)
    (abreast : first.Abreast start other second) :
    Run.Abreast tokens others start other (execute tokens bound position first)
      (execute others bound position second) := by
  induction bound generalizing position first second with
  | zero =>
      cases found : tokens[position]? with
      | none =>
          rw [execute_end found, execute_end ((same.getElem?_eq_none_iff position).mpr found)]
          exact .finished abreast
      | some token =>
          obtain ⟨otherToken, there, _⟩ := same.exists_other found
          rw [execute_zero found, execute_zero there]
          exact .suspended abreast
  | succ bound ih =>
      cases found : tokens[position]? with
      | none =>
          rw [execute_end found, execute_end ((same.getElem?_eq_none_iff position).mpr found)]
          exact .finished abreast
      | some token =>
          obtain ⟨otherToken, there, _⟩ := same.exists_other found
          have dispatched := dispatch_abreast same abreast found there
          simp only [execute, found, there]
          generalize first.dispatch tokens position token = progress at dispatched ⊢
          generalize second.dispatch others position otherToken = otherProgress at dispatched ⊢
          cases dispatched with
          | next later => exact ih _ later
          | faulted last matched => exact .faulted last matched

end Machine

/-! ## Sessions -/

section

variable (sameTokens : Array Token → Array Token → Prop) (start other : Session)

/-- Two sessions, each seen from its start, have the same before them. -/
structure Session.Abreast (first second : Session) : Prop where
  machine : first.machine.Abreast start.machine.device other.machine.device second.machine
  tokens : sameTokens first.tokens second.tokens

/-- The runs of two sessions come to the same end, and their errors say the same. -/
inductive SessionRun.Abreast (sameError : RunError → RunError → Prop) :
    SessionRun → SessionRun → Prop where
  | completed {first second : Session} : Session.Abreast sameTokens start other first second →
      Abreast sameError (.completed first) (.completed second)
  | failed {first second : Session} {error otherError : RunError} :
      Session.Abreast sameTokens start other first second → sameError error otherError →
      Abreast sameError (.failed first error) (.failed second otherError)
  | suspended {first second : Session} {position : Nat} :
      Session.Abreast sameTokens start other first second →
      Abreast sameError (.suspended first position) (.suspended second position)

end

namespace Session

variable {sameTokens : Array Token → Array Token → Prop} {sameError : RunError → RunError → Prop}
  {start other : Session} {first second : Machine} {tokens others : Array Token}

private theorem conclude_abreast (refl : ∀ error, sameError error error)
    (abreast : first.Abreast start.machine.device other.machine.device second)
    (same : sameTokens tokens others) {error? otherError? : Option RunError}
    (errors : Option.Rel sameError error? otherError?) :
    SessionRun.Abreast sameTokens start other sameError (conclude tokens first error?)
      (conclude others second otherError?) := by
  obtain ⟨ahead, loops, index⟩ := abreast
  have flushed := ahead.flush
  simp only [conclude]
  generalize first.device.flush = outcome at flushed ⊢
  generalize second.device.flush = otherOutcome at flushed ⊢
  cases flushed with
  | stopped cause last => exact .failed ⟨⟨last, loops, index⟩, same⟩ (refl _)
  | done last =>
      cases errors with
      | none => exact .completed ⟨⟨last, loops, index⟩, same⟩
      | some matched => exact .failed ⟨⟨last, loops, index⟩, same⟩ matched

/-- Two sessions with the same before them run two programs with the same words abreast. -/
theorem run_abreast (refl : ∀ error, sameError error error)
    (ahead : start.machine.device.SameAhead other.machine.device) {program otherProgram : Bytes}
    (words : SameWords (Lexer.tokenize program) (Lexer.tokenize otherProgram))
    (same : sameTokens (Lexer.tokenize program) (Lexer.tokenize otherProgram))
    (errors : ∀ fault otherFault,
      RunFault.Matches (Lexer.tokenize program) (Lexer.tokenize otherProgram) fault otherFault →
      sameError (errorOf program fault) (errorOf otherProgram otherFault)) (bound : Nat) :
    SessionRun.Abreast sameTokens start other sameError (start.run bound (.contents program))
      (other.run bound (.contents otherProgram)) := by
  have loaded : (start.machineFor program).Abreast start.machine.device other.machine.device
      (other.machineFor otherProgram) := ⟨ahead.abreast, rfl, rfl⟩
  have ran := Machine.execute_abreast words bound 0 loaded
  rw [run_eq_of_readable (Source.read_contents program),
    run_eq_of_readable (Source.read_contents otherProgram)]
  generalize Machine.execute (Lexer.tokenize program) bound 0 _ = run at ran ⊢
  generalize Machine.execute (Lexer.tokenize otherProgram) bound 0 _ = otherRun at ran ⊢
  cases ran with
  | suspended abreast => exact .suspended ⟨abreast, same⟩
  | finished abreast => exact conclude_abreast refl abreast same .none
  | faulted abreast matched =>
      exact conclude_abreast refl abreast same (.some (errors _ _ matched))

end Session

end WordTape
