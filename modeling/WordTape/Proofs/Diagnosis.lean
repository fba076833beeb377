import WordTape.Proofs.FirstFault
import WordTape.Proofs.LoopStack

/-!
# Every run completes or is reported

A dispatch goes on within the tokens, or it is stopped by something that has a report.
What an operation checks again, although it has been checked before, never fails: a number
that was parsed has its bytes, cells that were found on the tape are as many as a number
needs, and a step forward starts on a cell. A literal that cannot be parsed is a malformed
operand.
-/

set_option autoImplicit false

namespace WordTape

open Machine

/-- What may stop the dispatch of a token: it is no instruction, it closes a loop and none
is open, or it is stopped by a fault of a sort that its mnemonic knows. -/
inductive RunFault.ListedFor (token : Token) : RunFault → Prop where
  | notInstruction (error : InstructionError) : ListedFor token (.notInstruction error)
  | noOpenLoop : token.kind = .instruction .loopClose → ListedFor token (.noOpenLoop token)
  | interrupted {mnemonic : Mnemonic} {fault : Fault} :
      token.kind = .instruction mnemonic → fault.sort ∈ mnemonic.faults →
      ListedFor token (.interrupted token (.fault fault))

private theorem RunFault.ListedFor.ne_stepPastEnd {token : Token} {fault : RunFault}
    (listed : fault.ListedFor token) (word : Token) :
    fault ≠ .interrupted word (.fault .stepPastEnd) := by
  cases listed with
  | notInstruction error => nofun
  | noOpenLoop closes => nofun
  | @interrupted mnemonic fault kind member =>
      intro same
      cases same
      exact mnemonic.stepPastEnd_not_mem_faults member

/-- A dispatch goes on within the tokens, or it is stopped by a listed fault that has a
report. -/
def Progress.Diagnosed (program : Bytes) (token : Token) : Progress → Prop
  | .next target _ => target ≤ (Lexer.tokenize program).size
  | .faulted _ fault =>
      fault.ListedFor token ∧ (∀ word, fault ≠ .interrupted word (.fault .stepPastEnd)) ∧
        ∃ report, fault.report (Utf8.replaceIllFormed program) = .ok report

namespace Machine

variable {tokens : Array Token} {position : Nat} {machine last : Machine} {token : Token}
  {fault : RunFault}

theorem Faults.listedFor (faults : Faults tokens position machine last fault)
    (found : tokens[position]? = some token) : fault.ListedFor token := by
  cases faults with
  | notInstruction _ unread => exact .notInstruction _
  | noOpenLoop stands empty =>
      cases found.symm.trans stands.found
      exact .noOpenLoop stands.kind
  | test stands top current =>
      cases found.symm.trans stands.found
      refine .interrupted stands.kind ?_
      rw [Tape.eq_of_current_error current]
      exact List.mem_cons_self
  | act stands notOpen notClose acted =>
      cases found.symm.trans stands.found
      obtain ⟨fault, rfl, member⟩ := Instruction.act_stopsFor stands.encodable _ _ _ acted
      exact .interrupted stands.kind member

/-- Where a run has come with no loop open at its start, the next dispatch is diagnosed. -/
theorem Scanned.diagnosed {program : Bytes}
    (scanned : Scanned (Lexer.tokenize program) position machine)
    (found : (Lexer.tokenize program)[position]? = some token) :
    (machine.dispatch (Lexer.tokenize program) position token).Diagnosed program token := by
  have described := describes_dispatch found machine
  cases dispatched : machine.dispatch (Lexer.tokenize program) position token with
  | next next later =>
      rw [dispatched] at described
      exact (scanned.advance described).within
  | faulted last fault =>
      rw [dispatched] at described
      have listed := described.listedFor found
      exact ⟨listed, listed.ne_stepPastEnd, described.exists_report _⟩

end Machine

namespace Session

private theorem exists_report_of_failed {session last : Session} {program : Bytes} {bound : Nat}
    {error : RunError} (failed : session.run bound (.contents program) = .failed last error) :
    ∃ report, error = .reported report := by
  have shown := run_shows session bound (Source.read_contents program)
  rw [failed] at shown
  cases shown with
  | unflushed ended kind => exact ⟨_, rfl⟩
  | faulted ended =>
      obtain ⟨machine, ran, _⟩ := Run.exists_faulted_of_verdict? ended
      obtain ⟨report, told, _⟩ := errorOf_tells ran program
      exact ⟨report, told⟩

end Session

/-- At every moment of a run the dispatch goes on within the tokens or is stopped by a
fault with a report. A literal that does not parse is reported as a malformed operand, a
number that is laid out has its bytes, and cells with room for a number stand for one. A run
that fails fails with a report. -/
theorem every_run_completes_or_is_reported (session : Session) (program : Bytes) (bound : Nat) :
    let tokens := Lexer.tokenize program
    (∀ earlier position paused,
      execute tokens earlier 0 (session.machineFor program) = .suspended position paused →
      ∃ token, tokens[position]? = some token ∧
        (paused.dispatch tokens position token).Diagnosed program token ∧
        (∀ mnemonic type operand reason, token.kind = .instruction mnemonic →
          mnemonic.operand = .number type → tokens[position + 1]? = some operand →
          operand.kind = .number → type.parse operand.value = .error reason →
          ∃ last error report, paused.dispatch tokens position token = .faulted last error ∧
            error.report (Utf8.replaceIllFormed program) = .ok report ∧
            report.kind = .malformedOperand ∧
            report.description =
              (OperandError.invalidNumber type operand reason).description) ∧
        (∀ type value, Stands tokens position token (.setAs type value) →
          ∃ bytes, type.encode value = .ok bytes) ∧
        ∀ type : NumericType, paused.device.tape.misplaced? type.width = none →
          ∃ value, type.decode (paused.device.tape.span type.width) = .ok value) ∧
    ∀ last error, session.run bound (.contents program) = .failed last error →
      ∃ report, error = .reported report := by
  intro tokens
  refine ⟨?_, fun last error => Session.exists_report_of_failed⟩
  intro earlier position paused suspended
  have ends : EndsWithin (Scanned tokens) tokens 0 (session.machineFor program) earlier _ :=
    execute_endsWithin (fun _ _ _ _ => Scanned.advance) earlier (Scanned.start tokens rfl rfl)
  rw [suspended] at ends
  obtain ⟨scanned, here⟩ := ends
  have found : tokens[position]? = some tokens[position] := Array.getElem?_eq_getElem here
  refine ⟨tokens[position], found, scanned.diagnosed found, ?_, ?_, ?_⟩
  · intro mnemonic type operand reason kind expects next number unparsed
    have refused := Instruction.fetch_of_numberOperand_error kind expects
      (Instruction.numberOperand_of_parse_error next number unparsed)
    exact ⟨_, _, _, dispatch_unread refused paused, rfl, rfl, rfl⟩
  · intro type value stands
    obtain ⟨bytes, encoded, _⟩ := NumericType.encode_of_holds stands.encodable
    exact ⟨bytes, encoded⟩
  · intro type placed
    exact NumericType.decode_of_length (Tape.length_span_of_placed placed)

end WordTape
