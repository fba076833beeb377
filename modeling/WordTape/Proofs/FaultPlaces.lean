import WordTape.Proofs.FirstFault
import WordTape.Proofs.Text.Replacement
import WordTape.Proofs.Text.Windows
import WordTape.Proofs.Token.Places

/-!
# The places of faults

The report of a fault points at a word of the program: at the instruction that was stopped,
or at the word behind it, if this was to be a number for it and is none. The line is one of
the program, and the excerpt shows this line as it is in the program, but for bytes that are
not well-formed text.
-/

set_option autoImplicit false

namespace WordTape

open Machine

/-! ## The word to blame -/

/-- The instruction at a position takes a number, and the word behind it is none of the
type: it does not look like a number, or it cannot be parsed. -/
def RefusesOperand (tokens : Array Token) (position : Nat) : Prop :=
  ∃ instruction mnemonic type operand, tokens[position]? = some instruction ∧
    instruction.kind = .instruction mnemonic ∧ mnemonic.operand = .number type ∧
    tokens[position + 1]? = some operand ∧
    (operand.kind ≠ .number ∨ ∃ reason, type.parse operand.value = .error reason)

/-- The index of the word to blame for a fault at a position. -/
inductive Blames (tokens : Array Token) (position : Nat) : Nat → Prop where
  | instruction : ¬RefusesOperand tokens position → Blames tokens position position
  | operand : RefusesOperand tokens position → Blames tokens position (position + 1)

section

variable {tokens : Array Token} {position : Nat} {token : Token} {machine last : Machine}
  {fault : RunFault}

/-- What refuses its operand is not read as an instruction. -/
theorem RefusesOperand.fetch_error (refuses : RefusesOperand tokens position)
    (found : tokens[position]? = some token) :
    ∃ error, Instruction.fetch tokens position token = .error error := by
  obtain ⟨instruction, mnemonic, type, operand, here, kind, expects, next, refused⟩ := refuses
  cases found.symm.trans here
  rcases refused with other | ⟨reason, unparsed⟩
  · exact ⟨_, Instruction.fetch_of_numberOperand_error kind expects
      (Instruction.numberOperand_of_not_number next other)⟩
  · by_cases number : operand.kind = .number
    · exact ⟨_, Instruction.fetch_of_numberOperand_error kind expects
        (Instruction.numberOperand_of_parse_error next number unparsed)⟩
    · exact ⟨_, Instruction.fetch_of_numberOperand_error kind expects
        (Instruction.numberOperand_of_not_number next number)⟩

theorem Stands.blames {instruction : Instruction}
    (stands : Stands tokens position token instruction) : Blames tokens position position := by
  refine .instruction fun refuses => ?_
  obtain ⟨error, unread⟩ := refuses.fetch_error stands.found
  rw [stands.reads] at unread
  cases unread

theorem Blames.of_kind (found : tokens[position]? = some token)
    (other : ∀ mnemonic type, token.kind = .instruction mnemonic →
      mnemonic.operand ≠ .number type) : Blames tokens position position := by
  refine .instruction ?_
  rintro ⟨instruction, mnemonic, type, operand, here, kind, expects, _⟩
  cases found.symm.trans here
  exact other mnemonic type kind expects

theorem Blames.of_missing (missing : tokens[position + 1]? = none) :
    Blames tokens position position := by
  refine .instruction ?_
  rintro ⟨_, _, _, operand, _, _, _, next, _⟩
  rw [missing] at next
  cases next

/-- The word to blame for what is no instruction is the one that the error names. -/
private theorem blames_of_fetch_error {error : InstructionError}
    (found : tokens[position]? = some token)
    (unread : Instruction.fetch tokens position token = .error error) :
    ∃ index, Blames tokens position index ∧ tokens[index]? = some error.token := by
  unfold Instruction.fetch at unread
  split at unread
  · rename_i unknown
    cases unread
    refine ⟨position, .of_kind found fun mnemonic type kind => ?_, found⟩
    rw [unknown] at kind
    cases kind
  · rename_i number
    cases unread
    refine ⟨position, .of_kind found fun mnemonic type kind => ?_, found⟩
    rw [number] at kind
    cases kind
  · rename_i mnemonic kind
    split at unread
    · cases unread
    · rename_i error refused
      cases unread
      rcases Instruction.ofMnemonic_eq_error refused with
        ⟨type, expects, refused⟩ | ⟨expects, same⟩
      · rcases Instruction.numberOperand_eq_error refused with
          ⟨missing, same⟩ | ⟨operand, next, same, invalid⟩
        · exact ⟨position, .of_missing missing, found.trans (congrArg some same.symm)⟩
        · exact ⟨position + 1,
            .operand ⟨token, mnemonic, type, operand, found, kind, expects, next, invalid⟩,
            next.trans (congrArg some same.symm)⟩
      · refine ⟨position, .of_kind found fun other type same => ?_,
          found.trans (congrArg some same.symm)⟩
        cases kind.symm.trans same
        rw [expects]
        nofun

/-- The token of a fault is the word to blame. -/
theorem Machine.Faults.blames (faults : Faults tokens position machine last fault) :
    ∃ index, Blames tokens last.index index ∧ tokens[index]? = some fault.token := by
  rw [faults.index_eq]
  cases faults with
  | notInstruction found unread => exact blames_of_fetch_error found unread
  | noOpenLoop stands _ | test stands _ _ | act stands _ _ _ =>
      exact ⟨position, stands.blames, stands.found⟩

end

/-! ## The report of a fault -/

/-- The rows that show a place: its line, which is marked, and up to two lines above and
below it. Each has its own number, and each is decoded on its own. -/
def Place.rows {program word : Bytes} (place : Place program word) : List Bytes :=
  let shown := List.map Utf8.replaceIllFormed
  (((shown place.above).zipIdx 1).drop (place.above.length - 2)).map Excerpt.plainRow ++
    Excerpt.row true place.line (Utf8.replaceIllFormed place.text) ::
      (((shown place.below).zipIdx (place.line + 1)).take 2).map Excerpt.plainRow

/-- The report points at a place of the program and shows it. -/
structure Report.PointsAt {program word : Bytes} (place : Place program word)
    (report : Report) : Prop where
  line_eq : report.line = some (place.line : Int)
  column_eq : report.column = some (place.column : Int)
  excerpt_eq : report.excerpt = [Bytes.lineFeed].intercalate place.rows

section

variable {program word : Bytes} (place : Place program word)

private theorem Place.lines_replaceIllFormed :
    Excerpt.lines (Utf8.replaceIllFormed program) =
      place.above.map Utf8.replaceIllFormed ++ Utf8.replaceIllFormed place.text ::
        place.below.map Utf8.replaceIllFormed := by
  rw [Utf8.lines_replaceIllFormed, place.lines_program, List.map_append, List.map_cons, text]

private theorem Place.line_le_replaced :
    place.line ≤ (Excerpt.lines (Utf8.replaceIllFormed program)).length := by
  rw [Utf8.lines_replaceIllFormed, List.length_map]
  exact place.line_le

private theorem Place.around_eq :
    Excerpt.around (Excerpt.lines (Utf8.replaceIllFormed program)) place.line
        Excerpt.reportRadius =
      [Bytes.lineFeed].intercalate place.rows := by
  have shown := Excerpt.around_middle (place.above.map Utf8.replaceIllFormed)
    (Utf8.replaceIllFormed place.text) (place.below.map Utf8.replaceIllFormed) 2
  rw [List.length_map] at shown
  rw [place.lines_replaceIllFormed]
  exact shown

end

/-- The report of a fault whose token is known to stand somewhere points there. -/
theorem RunFault.pointsAt_of_report {program : Bytes} {fault : RunFault} {report : Report}
    (place : Place program fault.token.value) (position : fault.token.position = place.position)
    (told : fault.report (Utf8.replaceIllFormed program) = .ok report) :
    report.PointsAt place := by
  obtain ⟨⟨kind, description⟩, _, rfl⟩ := exists_of_map_eq_ok told
  rw [position]
  exact ⟨rfl, rfl, place.around_eq⟩

/-- A run that a fault has stopped is reported at the word to blame for it: at the
instruction, or at an operand that it refuses. The line is a line of the program, also after
its ill-formed parts are replaced, so that the excerpt is centred on this line and shows
it. -/
theorem faults_point_at_their_words {session : Session} {program : Bytes} {bound : Nat}
    {final : Session} {error : RunError} (flushes : session.AlwaysFlushes)
    (failed : session.run bound (.contents program) = .failed final error) :
    ∃ index token report, ∃ place : Place program token.value,
      final.tokens = Lexer.tokenize program ∧
      Blames final.tokens final.machine.index index ∧ final.tokens[index]? = some token ∧
      (Lexer.tokenize place.before).size = index ∧
      error = .reported report ∧ report.PointsAt place ∧
      1 ≤ place.line ∧
      place.line ≤ (Excerpt.lines (Utf8.replaceIllFormed program)).length ∧
      Excerpt.centre (Excerpt.lines (Utf8.replaceIllFormed program)).length place.line =
        place.line := by
  obtain ⟨machine, fault, ran, rfl, rfl⟩ :=
    Session.exists_faulted_of_failed (Source.read_contents program) flushes failed
  have ends : EndsWithin (fun _ _ => True) (Lexer.tokenize program) 0
      (session.machineFor program) bound _ :=
    execute_endsWithin (fun _ _ _ _ _ _ => trivial) bound trivial
  rw [ran] at ends
  obtain ⟨_, _, _, _, _, _, faults⟩ := ends
  obtain ⟨index, blames, found⟩ := faults.blames
  obtain ⟨place, behind, position⟩ := Lexer.exists_place found
  obtain ⟨report, told⟩ := faults.exists_report (Utf8.replaceIllFormed program)
  have reported : Session.errorOf program fault = .reported report := by
    simp only [Session.errorOf, told]
  have within := place.line_le_replaced
  have first : 1 ≤ place.line := Nat.le_add_left 1 _
  exact ⟨index, fault.token, report, place, rfl, blames, found, behind, reported,
    RunFault.pointsAt_of_report place position told, first, within,
    Excerpt.centre_of_within first within⟩

/-- An operand that is no number is shown below a character that its line feed cuts off. -/
theorem refused_operand_is_shown :
    let program := Bytes.ofString "set " ++ [0xE2, 0x82, 10] ++ Bytes.ofString "pfw x"
    let session := Session.start 4 (.ofBytes #[]) {}
    session.AlwaysFlushes ∧ ∃ final report,
      session.run 2 (.contents program) = .failed final (.reported report) ∧
      report.excerpt = Bytes.ofString "     1 | set " ++ Utf8.replacement ++ [10] ++
        Bytes.ofString ">    2 | pfw x" ∧
      ∃ index token, ∃ place : Place program token.value,
        Blames final.tokens final.machine.index index ∧ final.tokens[index]? = some token ∧
        report.PointsAt place ∧ place.line = 2 ∧ place.column = 5 := by
  intro program session
  have flushes : session.AlwaysFlushes := fun _ => rfl
  let report : Report :=
    { kind := .malformedOperand
      description := Bytes.ofString "Expected 'num'. Found 'x'."
      line := some 2
      column := some 5
      excerpt := Bytes.ofString "     1 | set " ++ Utf8.replacement ++ [10] ++
        Bytes.ofString ">    2 | pfw x" }
  have told : (session.run 2 (.contents program)).error? = some (.reported report) := by
    decide +kernel
  have failed := SessionRun.eq_failed told
  obtain ⟨index, token, other, place, tokens, blames, found, behind, same, points, _⟩ :=
    faults_point_at_their_words flushes failed
  cases same
  have line : (some 2 : Option Int) = some (place.line : Int) := points.line_eq
  have column : (some 5 : Option Int) = some (place.column : Int) := points.column_eq
  simp only [Option.some.injEq] at line column
  exact ⟨flushes, _, report, failed, rfl, index, token, place, blames, found, points,
    by omega, by omega⟩

end WordTape
