import WordTape.Proofs.SessionRequests

/-!
# Streams that fail cut runs short

A run whose streams never fail is compared with the run whose output refuses all writes after
so many, or whose input fails after so many bytes. If the first run does not come that far,
the other is the same. Else the other stops at the request that it is refused, with the tape,
the loops and the accounts of the streams as they were just before.
-/

set_option autoImplicit false

namespace WordTape

namespace Session

/-- While it runs a source, the session comes to a write after so many others in this run. -/
def WritesAt (session : Session) (bound : Nat) (source : Source) (count : Nat) (token : Token)
    (moment : Machine) : Prop :=
  (∃ chunk, session.ComesTo bound source token (.write chunk) moment) ∧
    moment.device.output.writes = session.machine.device.output.writes + count

/-- While it runs a source, the session comes to a read after at least so many bytes were
consumed in this run. -/
def ReadsAt (session : Session) (bound : Nat) (source : Source) (count : Nat) (token : Token)
    (moment : Machine) : Prop :=
  session.ComesTo bound source token .read moment ∧
    session.machine.device.input.consumed + count ≤ moment.device.input.consumed

section

variable {session : Session} (healthy : session.machine.device.Healthy)
  (flushes : session.AlwaysFlushes) {source : Source} {bound count : Nat} {token again : Token}
  {moment other : Machine}

/-! ## Refused writes -/

include healthy

theorem WritesAt.unique (writes : session.WritesAt bound source count token moment)
    (rewrites : session.WritesAt bound source count again other) :
    again = token ∧ other = moment := by
  obtain ⟨⟨chunk, comes⟩, counted⟩ := writes
  obtain ⟨⟨_, returns⟩, recounted⟩ := rewrites
  exact comes.unique healthy returns rfl (counted.trans recounted.symm)

include flushes

/-- What was written before a write of a run is what the run has written first. -/
theorem WritesAt.chunks_eq (writes : session.WritesAt bound source count token moment) :
    let written := (session.run bound source).session.machine.device.output
    session.machine.device.output.writes + count < written.writes ∧
      moment.device.output.chunks.toList =
        written.chunks.toList.take (session.machine.device.output.chunks.size + count) := by
  intro written
  obtain ⟨⟨chunk, comes⟩, counted⟩ := writes
  have onward := comes.extends healthy flushes
  have counts := comes.keeps (Device.counts_kept session.machine.device) (.refl _)
  have granted := (comes.keeps Device.healthy_kept healthy).grants (.write chunk)
  rw [Device.ask_write_granted granted] at onward
  constructor
  · have further : moment.device.output.writes + 1 ≤ written.writes := onward.writes
    omega
  · have size : moment.device.output.chunks.toList.length =
        session.machine.device.output.chunks.size + count := by
      have chunks := counts.chunks
      rw [Array.length_toList]
      omega
    have first : moment.device.output.chunks.toList <+: written.chunks.toList := by
      refine List.IsPrefix.trans ?_ onward.chunks
      rw [Array.toList_push]
      exact List.prefix_append _ _
    rw [← size]
    exact List.prefix_iff_eq_take.mp first

private theorem refusing_writes_cases (source : Source) (bound limit : Nat) (reason : Bytes) :
    let device := session.machine.device
    let refusing := withStreams device.input.reply
      (Output.refusingAfter (device.output.writes + limit) reason)
    let run := (refusing session).run bound source
    (∃ token moment, session.WritesAt bound source limit token moment ∧
      run.StopsAt token reason moment) ∨
    run = (session.run bound source).map refusing ∧
      (session.run bound source).session.machine.device.output.writes ≤
        device.output.writes + limit := by
  intro device refusing run
  rcases run_withStreams_cases healthy flushes device.input.reply
      (Output.refusingAfter (device.output.writes + limit) reason) (fun _ => .inl rfl) source
      bound with
    ⟨token, request, moment, other, comes, refused, unrefused, stops⟩ | ⟨same, unrefused⟩
  · cases request with
    | read => exact absurd (Device.refusal?_read_eq_some.mp refused) (healthy.delivers _ other)
    | write chunk =>
        obtain ⟨past, rfl⟩ := Output.refusingAfter_eq_some.mp refused
        have counted := Nat.le_antisymm unrefused.writes_le past
        exact .inl ⟨token, moment, ⟨⟨chunk, comes⟩, counted⟩, stops⟩
  · refine .inr ⟨same, ?_⟩
    rw [same, SessionRun.session_map] at unrefused
    exact unrefused.writes_le

end

/-! ## Reads that fail -/

section

variable {session : Session} {source : Source} {bound count : Nat} {token again : Token}
  {moment other : Machine}

theorem ReadsAt.counts (reads : session.ReadsAt bound source count token moment) :
    session.machine.device.Counts moment.device :=
  reads.1.keeps (Device.counts_kept session.machine.device) (.refl _)

/-- Before a read after so many bytes the input has delivered them. -/
theorem ReadsAt.delivered (reads : session.ReadsAt bound source count token moment) :
    let input := session.machine.device.input
    count ≤ input.deliveredBy (moment.device.input.requests - input.requests) := by
  intro input
  have reached : input.consumed + count ≤ moment.device.input.consumed := reads.2
  rw [reads.counts.consumed] at reached
  exact Nat.le_of_add_le_add_left reached

variable (healthy : session.machine.device.Healthy)

include healthy

private theorem ReadsAt.eq_or_lt (reads : session.ReadsAt bound source count token moment)
    (rereads : session.ReadsAt bound source count again other)
    (first : moment.device.input.requests ≤ other.device.input.requests) :
    again = token ∧ other = moment ∨
      moment.device.input.requests < other.device.input.requests := by
  rcases Nat.eq_or_lt_of_le first with same | later
  · exact .inl (reads.1.unique healthy rereads.1 rfl same)
  · exact .inr later

variable (flushes : session.AlwaysFlushes)

include flushes

private theorem failing_reads_cases (source : Source) (bound limit : Nat) (reason : Bytes) :
    let device := session.machine.device
    let failing := withStreams (device.input.cut limit reason).reply device.output.refusal
    let run := (failing session).run bound source
    (∃ token first, session.ReadsAt bound source limit token first ∧
      first.device.input.consumed = device.input.consumed + limit ∧
      (∀ again other, session.ReadsAt bound source limit again other →
        again = token ∧ other = first ∨
          first.device.input.requests < other.device.input.requests) ∧
      run.StopsAt token reason first) ∨
    run = (session.run bound source).map failing ∧
      ∀ token moment, ¬session.ReadsAt bound source limit token moment := by
  intro device failing run
  have answers := Input.reply_cut_cases limit reason device.input
  rcases run_withStreams_cases healthy flushes (device.input.cut limit reason).reply
      device.output.refusal (fun request => (answers request).imp_right fun cut => ⟨_, cut.2⟩)
      source bound with
    ⟨token, request, first, other, comes, refused, unrefused, stops⟩ | ⟨same, unrefused⟩
  · cases request with
    | write chunk =>
        have accepts := healthy.accepts first.device.output.writes
        exact absurd (accepts.symm.trans refused) nofun
    | read =>
        have failed := Device.refusal?_read_eq_some.mp refused
        rcases answers first.device.input.requests with same | ⟨past, cut⟩
        · exact absurd (same.symm.trans failed) (healthy.delivers _ other)
        · cases cut.symm.trans failed
          have counts := comes.keeps (Device.counts_kept device) (.refl device)
          have consumed : first.device.input.consumed = device.input.consumed + limit := by
            rw [counts.consumed, Nat.le_antisymm unrefused.deliveredBy_le past]
          have reads : session.ReadsAt bound source limit token first := ⟨comes, consumed.ge⟩
          refine .inl ⟨token, first, reads, consumed, fun again later rereads => ?_, stops⟩
          apply reads.eq_or_lt healthy rereads
          by_contra sooner
          have before := unrefused.deliveredBy_lt rereads.counts.since (Nat.lt_of_not_le sooner)
          exact absurd rereads.delivered (Nat.not_le.mpr before)
  · refine .inr ⟨same, fun token moment reads => ?_⟩
    rw [same, SessionRun.session_map] at unrefused
    have onward := reads.1.extends healthy flushes
    have before := unrefused.deliveredBy_lt reads.counts.since onward.requests
    exact absurd reads.delivered (Nat.not_le.mpr before)

end

end Session

/-- A stream that fails only cuts a run short. An output that refuses all writes after so
many changes nothing if the run makes no more. Else the run stops at the next write, with what
was written before it, and with all else as it was just before. Likewise for an input that
fails after so many bytes, and the first read behind them. -/
theorem failing_streams_cut_runs_short {session : Session}
    (healthy : session.machine.device.Healthy) (flushes : session.AlwaysFlushes)
    (source : Source) (bound limit : Nat) (reason : Bytes) :
    let device := session.machine.device
    let steady := session.run bound source
    let written := steady.session.machine.device.output
    let refusing := Session.withStreams device.input.reply
      (Output.refusingAfter (device.output.writes + limit) reason)
    let failing := Session.withStreams (device.input.cut limit reason).reply device.output.refusal
    (written.writes ≤ device.output.writes + limit →
      (refusing session).run bound source = steady.map refusing) ∧
    (device.output.writes + limit < written.writes →
      ∃ token moment, session.WritesAt bound source limit token moment ∧
        (∀ again other, session.WritesAt bound source limit again other →
          again = token ∧ other = moment) ∧
        moment.device.output.chunks.toList =
          written.chunks.toList.take (device.output.chunks.size + limit) ∧
        ((refusing session).run bound source).StopsAt token reason moment) ∧
    ((∀ token moment, ¬session.ReadsAt bound source limit token moment) →
      (failing session).run bound source = steady.map failing) ∧
    ((∃ token moment, session.ReadsAt bound source limit token moment) →
      ∃ token first, session.ReadsAt bound source limit token first ∧
        (∀ again other, session.ReadsAt bound source limit again other →
          again = token ∧ other = first ∨
            first.device.input.requests < other.device.input.requests) ∧
        first.device.input.consumed = device.input.consumed + limit ∧
        ((failing session).run bound source).StopsAt token reason first) := by
  intro device steady written refusing failing
  have writing := Session.refusing_writes_cases healthy flushes source bound limit reason
  have reading := Session.failing_reads_cases healthy flushes source bound limit reason
  refine ⟨?_, ?_, ?_, ?_⟩
  · intro few
    rcases writing with ⟨token, moment, writes, _⟩ | ⟨same, _⟩
    · exact absurd few (Nat.not_le.mpr (writes.chunks_eq healthy flushes).1)
    · exact same
  · intro many
    rcases writing with ⟨token, moment, writes, stops⟩ | ⟨_, few⟩
    · exact ⟨token, moment, writes, fun _ _ => writes.unique healthy,
        (writes.chunks_eq healthy flushes).2, stops⟩
    · exact absurd few (Nat.not_le.mpr many)
  · intro unread
    rcases reading with ⟨token, first, reads, _⟩ | ⟨same, _⟩
    · exact absurd reads (unread token first)
    · exact same
  · rintro ⟨token, moment, reads⟩
    rcases reading with ⟨token, first, reads, consumed, next, stops⟩ | ⟨_, unread⟩
    · exact ⟨token, first, reads, next, consumed, stops⟩
    · exact absurd reads (unread token moment)

/-- Two letters of which the output takes one, and a line of which the input delivers one
byte. -/
theorem second_byte_is_cut_off :
    let source : Source := .contents (Bytes.ofString "set AB pbw 2 wra rda")
    let session := Session.start 5 (.ofBytes #[120, 121, 10]) {}
    let reason := Bytes.ofString "closed"
    let device := session.machine.device
    let refusing := Session.withStreams device.input.reply (Output.refusingAfter 1 reason)
    let failing := Session.withStreams (device.input.cut 1 reason).reply device.output.refusal
    device.Healthy ∧ session.AlwaysFlushes ∧
    (∃ token moment, session.WritesAt 4 source 1 token moment ∧
      moment.device.output.chunks.toList = [[65]] ∧
      ((refusing session).run 4 source).StopsAt token reason moment) ∧
    ∃ token first, session.ReadsAt 4 source 1 token first ∧
      first.device.input.consumed = 1 ∧
      ((failing session).run 4 source).StopsAt token reason first := by
  intro source session reason device refusing failing
  have healthy : device.Healthy := ⟨fun _ => rfl, Input.ofBytes_delivers _⟩
  have flushes : session.AlwaysFlushes := fun _ => rfl
  obtain ⟨_, writing, identical, reading⟩ :=
    failing_streams_cut_runs_short healthy flushes source 4 1 reason
  refine ⟨healthy, flushes, ?_, ?_⟩
  · obtain ⟨token, moment, writes, _, chunks, stops⟩ := writing (by decide +kernel)
    have first : (session.run 4 source).session.machine.device.output.chunks.toList.take 1 =
        [[65]] := by decide +kernel
    exact ⟨token, moment, writes, chunks.trans first, stops⟩
  · have cut : ∃ token moment, session.ReadsAt 4 source 1 token moment := by
      by_contra none
      have same := identical fun token moment reads => none ⟨token, moment, reads⟩
      have differs : ((failing session).run 4 source).completed?.isSome ≠
          ((session.run 4 source).map failing).completed?.isSome := by decide +kernel
      exact differs (congrArg (·.completed?.isSome) same)
    obtain ⟨token, first, reads, _, consumed, stops⟩ := reading cut
    exact ⟨token, first, reads, consumed, stops⟩

end WordTape
