import WordTape.Proofs.FirstFault
import WordTape.Proofs.RequestNumbers

/-!
# Requests of sessions

A session whose streams never fail comes to requests while it runs a source. With streams
that answer in another way, and fail where they do not answer the same, the run is the same
up to the first request that is refused, and stops there.
-/

set_option autoImplicit false

namespace WordTape

open Machine

section

variable (reply : Nat → Reply) (refusal : Nat → Option Bytes)

def Machine.withStreams (machine : Machine) : Machine :=
  { machine with device := machine.device.withStreams reply refusal }

/-- The session with streams that answer reads and writes in another way. -/
def Session.withStreams (session : Session) : Session :=
  { session with machine := session.machine.withStreams reply refusal }

end

def SessionRun.map (change : Session → Session) : SessionRun → SessionRun
  | completed session => completed (change session)
  | failed session error => failed (change session) error
  | suspended session position => suspended (change session) position

theorem SessionRun.session_map (change : Session → Session) (run : SessionRun) :
    (run.map change).session = change run.session := by
  cases run <;> rfl

private theorem Machine.withStreams_healed {first : Device} {machine : Machine}
    {reply : Nat → Reply}
    {refusal : Nat → Option Bytes} (steady : Nat → Reply)
    (same : (first.withStreams reply refusal).SameBehavior machine.device) :
    (machine.healed steady).withStreams reply refusal = machine :=
  congrArg (fun device => { machine with device }) (Device.withStreams_healed steady same)

/-! ## Requests of sessions -/

namespace Session

/-- While it runs a source, a session comes to a request for a token, with the machine at
that moment. -/
def ComesTo (session : Session) (bound : Nat) (source : Source) (token : Token)
    (request : Request) (moment : Machine) : Prop :=
  ∃ program, source.read = .ok program ∧
    Machine.ComesTo (Lexer.tokenize program) bound 0 (session.machineFor program) token request
      moment

/-- The session was left as the machine was at a moment, but for what the streams count of
what they have refused. -/
structure LeftAt (moment : Machine) (final : Session) : Prop where
  tape : final.machine.device.tape = moment.device.tape
  consumed : final.machine.device.input.consumed = moment.device.input.consumed
  chunks : final.machine.device.output.chunks = moment.device.output.chunks
  loops : final.machine.loops = moment.loops
  index : final.machine.index = moment.index
  events : final.machine.events = moment.events

end Session

/-- The run was stopped by a stream when it made a request for a token. -/
def SessionRun.StopsAt (token : Token) (reason : Bytes) (moment : Machine) (run : SessionRun) :
    Prop :=
  ∃ final error, run = .failed final error ∧
    error.Tells (.interrupted token (.fault (.stream reason))) ∧ final.LeftAt moment

namespace Session

variable {session : Session} {source : Source} {bound : Nat} {token : Token} {request : Request}
  {moment : Machine} {reply : Nat → Reply} {refusal : Nat → Option Bytes}

private theorem leftAt_refused {reason : Bytes}
    (refused : moment.device.refusal? request = some reason)
    (steady : Nat → Reply) (tokens : Array Token) :
    LeftAt (moment.healed steady)
      { machine := flushed { moment with device := moment.device.ask request }, tokens } := by
  obtain ⟨consumed, chunks⟩ := Device.ask_refused refused
  exact ⟨Device.tape_ask request moment.device, consumed, chunks, rfl, rfl, rfl⟩

private theorem accepted_healed (program : Bytes) {run : Run} {start : Device}
    (steady : Nat → Reply)
    (same : (start.withStreams reply refusal).SameBehavior run.machine.device) :
    accepted program run =
      (accepted program (run.map (.healed steady))).map (withStreams reply refusal) := by
  cases run with
  | suspended position machine =>
      have back := Machine.withStreams_healed steady same
      exact congrArg (fun last =>
        SessionRun.suspended { machine := last, tokens := Lexer.tokenize program } position)
        back.symm
  | finished machine =>
      have back := Machine.withStreams_healed steady same
      exact congrArg (fun last =>
        SessionRun.completed { machine := recorded last, tokens := Lexer.tokenize program })
        back.symm
  | faulted machine fault =>
      have back := Machine.withStreams_healed steady same
      exact congrArg (fun last =>
        SessionRun.failed { machine := flushed last, tokens := Lexer.tokenize program }
          (errorOf program fault))
        back.symm

/-- A run with other streams is the same run, in which no request was refused, or it stops
at a request that is the first to be refused. -/
theorem run_withStreams_cases (healthy : session.machine.device.Healthy)
    (flushes : session.AlwaysFlushes) (reply : Nat → Reply) (refusal : Nat → Option Bytes)
    (cuts : ∀ request, reply request = session.machine.device.input.reply request ∨
      ∃ reason, reply request = .failure reason) (source : Source) (bound : Nat) :
    let start := session.machine.device.withStreams reply refusal
    let run := (session.withStreams reply refusal).run bound source
    (∃ token request moment reason, session.ComesTo bound source token request moment ∧
      (moment.device.withStreams reply refusal).refusal? request = some reason ∧
      start.Unrefused (moment.device.withStreams reply refusal) ∧
      run.StopsAt token reason moment) ∨
    run = (session.run bound source).map (withStreams reply refusal) ∧
      start.Unrefused run.session.machine.device := by
  intro start run
  cases source with
  | unreadable reason | foreign typeName => exact .inr ⟨rfl, .refl _⟩
  | contents program =>
      let machine := (session.machineFor program).withStreams reply refusal
      let steady := session.machine.device.input.reply
      have healed : machine.healed steady = session.machineFor program := by
        simp only [machine, Machine.healed, Machine.withStreams]
        rw [device_machineFor, healthy.healed_withStreams cuts]
        rfl
      have flushing : (session.withStreams reply refusal).AlwaysFlushes := flushes
      have ran : run = accepted program (execute (Lexer.tokenize program) bound 0 machine) :=
        run_eq_of_alwaysFlushes (Source.read_contents program) flushing bound
      have kept := (Device.unrefused_kept start).and (Device.sameBehavior_kept start)
      have begins : start.Unrefused machine.device ∧ start.SameBehavior machine.device :=
        ⟨.refl start, .refl start⟩
      rcases execute_cases steady kept begins (Lexer.tokenize program) bound 0 with
        ⟨token, request, moment, reason, comes, refused, stopped⟩ | ⟨⟨unrefused, same⟩, agree⟩
      · obtain ⟨unrefused, same⟩ := comes.keeps kept begins
        have back := Device.withStreams_healed steady same
        refine .inl ⟨token, request, moment.healed steady, reason, ⟨program, rfl, ?_⟩, ?_, ?_, ?_⟩
        · rw [← healed]
          exact comes.healed steady
        · exact (congrArg (Device.refusal? request) back).trans refused
        · exact back.symm ▸ unrefused
        · refine ⟨_, _, ran.trans ?_, errorOf_tells stopped program,
            leftAt_refused refused steady (Lexer.tokenize program)⟩
          rw [stopped]
          rfl
      · have steadyRan : session.run bound (.contents program) =
            accepted program
              (execute (Lexer.tokenize program) bound 0 (machine.healed steady)) := by
          rw [healed]
          exact run_eq_of_alwaysFlushes (Source.read_contents program) flushes bound
        right
        rw [ran, steadyRan, agree]
        refine ⟨accepted_healed program steady same, ?_⟩
        cases ended : execute (Lexer.tokenize program) bound 0 machine with
        | suspended position last | finished last | faulted last fault =>
            rw [ended] at unrefused
            exact ⟨unrefused.accepted, unrefused.delivered⟩

/-- A session comes to its request of a number once. -/
theorem ComesTo.unique {first second : Request} {again : Token} {repeated : Machine}
    (healthy : session.machine.device.Healthy)
    (comes : session.ComesTo bound source token first moment)
    (returns : session.ComesTo bound source again second repeated)
    (alike : first.isRead = second.isRead)
    (same : moment.device.count first = repeated.device.count second) :
    again = token ∧ repeated = moment := by
  obtain ⟨program, readable, comes⟩ := comes
  obtain ⟨_, rereadable, returns⟩ := returns
  cases readable.symm.trans rereadable
  have steady : (session.machineFor program).device.Healthy := healthy
  obtain ⟨rfl, _, rfl⟩ := Machine.ComesTo.unique steady comes returns alike same
  exact ⟨rfl, rfl⟩

theorem ComesTo.keeps {holds : Device → Prop} (kept : Device.Kept holds)
    (start : holds session.machine.device)
    (comes : session.ComesTo bound source token request moment) : holds moment.device := by
  obtain ⟨program, readable, comes⟩ := comes
  have begins : holds (session.machineFor program).device := start
  exact Machine.ComesTo.keeps kept begins comes

/-- A run whose streams never fail goes on from each of its requests. -/
theorem ComesTo.extends (healthy : session.machine.device.Healthy)
    (flushes : session.AlwaysFlushes)
    (comes : session.ComesTo bound source token request moment) :
    (moment.device.ask request).Extends (session.run bound source).session.machine.device := by
  obtain ⟨program, readable, comes⟩ := comes
  have steady : (session.machineFor program).device.Healthy := healthy
  have onward := Machine.ComesTo.execute_keeps (Device.extends_kept _) steady comes (.refl _)
  rw [run_eq_of_alwaysFlushes readable flushes]
  cases ended : execute (Lexer.tokenize program) bound 0 (session.machineFor program) with
  | suspended position last | finished last | faulted last fault =>
      rw [ended] at onward
      exact ⟨onward.writes, onward.requests, onward.chunks⟩

end Session

end WordTape
