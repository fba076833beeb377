import WordTape.Proofs.SessionRun

/-!
# Histories of sessions

A session is called again and again, to run a source or to be reset. What neither an
instruction nor a flush nor a reset of the tape breaks holds of its device after any
calls, whatever the runs have come to.
-/

set_option autoImplicit false

namespace WordTape

namespace Session

open Machine

inductive Call where
  /-- A run that dispatches at most as many instructions as the bound says. -/
  | run (source : Source) (bound : Nat)
  | reset

def call (session : Session) : Call → Session
  | .run source bound => (session.run bound source).session
  | .reset => session.reset

def after (session : Session) (calls : List Call) : Session :=
  calls.foldl call session

variable {property : Device → Prop} {session : Session}

private theorem device_conclude (tokens : Array Token) (machine : Machine)
    (error? : Option RunError) :
    (conclude tokens machine error?).session.machine.device = machine.device.flush.state := by
  obtain ⟨⟨tape, input, output⟩, loops, index, events⟩ := machine
  simp only [conclude]
  cases Device.flush { tape, input, output } with
  | done device => cases error? <;> rfl
  | stopped device cause => rfl

theorem run_invariant (invariant : Device.Invariant property)
    (flush : ∀ device, property device → property device.flush.state)
    (bound : Nat) (source : Source) (holds : property session.machine.device) :
    property (session.run bound source).session.machine.device := by
  cases source with
  | unreadable reason | foreign typeName => exact holds
  | contents program =>
      have kept : property
          (execute (Lexer.tokenize program) bound 0 (session.machineFor program)).machine.device :=
        invariant.execute bound 0 holds
      rw [run_eq_of_readable (Source.read_contents program)]
      cases ran : execute (Lexer.tokenize program) bound 0 (session.machineFor program) with
      | suspended position machine =>
          rw [ran] at kept
          exact kept
      | finished machine | faulted machine fault =>
          rw [ran] at kept
          simp only [device_conclude]
          exact flush _ kept

/-- A property of devices that no instruction, no flush and no reset breaks holds after
any calls. -/
theorem after_invariant (invariant : Device.Invariant property)
    (flush : ∀ device, property device → property device.flush.state)
    (reset : ∀ device, property device → property { device with tape := device.tape.reset })
    (calls : List Call) (holds : property session.machine.device) :
    property (session.after calls).machine.device := by
  induction calls generalizing session with
  | nil => exact holds
  | cons first rest ih =>
      apply ih
      cases first with
      | run source bound => exact run_invariant invariant flush bound source holds
      | reset => exact reset _ holds

end Session

end WordTape
