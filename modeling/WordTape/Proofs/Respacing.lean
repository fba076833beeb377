import Mathlib.Control.Monad.Basic
import WordTape.Proofs.RunsAbreast
import WordTape.Proofs.Token.Spacing

/-!
# The layout of a source

A program is its words. Which blanks stand between them, and how many, shows in the places
that errors are reported at and in the excerpts there, and nowhere else.
-/

set_option autoImplicit false

namespace WordTape

open Lexer

/-- Two errors are the same, or reports of one kind with the same description. -/
inductive RunError.SaysTheSame : RunError → RunError → Prop where
  | refl (error : RunError) : SaysTheSame error error
  | reported {report other : Report} : other.kind = report.kind →
      other.description = report.description → SaysTheSame (.reported report) (.reported other)

/-- Two errors are the same, or reports of one kind with the same description. -/
inductive Brainfuck.SourceTranslationError.SaysTheSame :
    SourceTranslationError → SourceTranslationError → Prop where
  | refl (error : SourceTranslationError) : SaysTheSame error error
  | reported {report other : ErrorReport} : other.kind = report.kind →
      other.description = report.description → SaysTheSame (.reported report) (.reported other)

private theorem Session.errorOf_saysTheSame {tokens others : Array Token}
    (program otherProgram : Bytes)
    {fault other : RunFault} (matched : RunFault.Matches tokens others fault other) :
    RunError.SaysTheSame (errorOf program fault) (errorOf otherProgram other) := by
  simp only [errorOf, RunFault.report, matched.cause]
  cases fault.cause with
  | error error => exact .refl _
  | ok found => exact .reported rfl rfl

theorem Brainfuck.translate_alike {program other : Bytes}
    (words : SameWords (tokenize program) (tokenize other)) :
    ReadsAlike SourceTranslationError.SaysTheSame (translate (.contents program))
      (translate (.contents other)) := by
  have alike := ofTokens_alike words
  simp only [translate, Source.read_contents]
  generalize ofTokens (tokenize program) = read at alike ⊢
  generalize ofTokens (tokenize other) = otherRead at alike ⊢
  cases alike with
  | ok nodes => exact .ok (text nodes)
  | error matched => exact .error (.reported matched.kind matched.description)

/-- Two sources that lay out the same words have these words for tokens. They run alike on
the same tape and streams, up to where a fault is reported, and they are translated to the
same text or refused for the same reason. -/
theorem layout_does_not_matter {words : List Bytes} {source other : Bytes}
    (areWords : ∀ word ∈ words, IsWord word) (lays : LaysOut words source)
    (laysOther : LaysOut words other) :
    (tokenize source).toList.map view = words.map (fun word => (word, classify word)) ∧
    (tokenize other).toList.map view = words.map (fun word => (word, classify word)) ∧
    (∀ first second : Session, first.machine.device.SameAhead second.machine.device →
      ∀ bound, SessionRun.Abreast SameWords first second RunError.SaysTheSame
        (first.run bound (.contents source)) (second.run bound (.contents other))) ∧
    ReadsAlike Brainfuck.SourceTranslationError.SaysTheSame
      (Brainfuck.translate (.contents source)) (Brainfuck.translate (.contents other)) := by
  have found := view_tokenize_of_laysOut lays areWords
  have foundOther := view_tokenize_of_laysOut laysOther areWords
  have same : SameWords (tokenize source) (tokenize other) := foundOther.trans found.symm
  refine ⟨found, foundOther, fun first second ahead bound => ?_, Brainfuck.translate_alike same⟩
  exact Session.run_abreast .refl ahead same same
    (fun _ _ => Session.errorOf_saysTheSame source other) bound

/-- An underflow on one line, and on two: it is refused there, too, and its translation is
the same. -/
theorem underflow_in_two_layouts :
    let words := [Bytes.ofString "dec", Bytes.ofString "1"]
    let source := Bytes.ofString "dec 1"
    let other := Bytes.ofString "\n dec\t\n1\n"
    let session := Session.start 1 (.ofBytes #[]) {}
    (∀ word ∈ words, IsWord word) ∧ LaysOut words source ∧ LaysOut words other ∧
      session.machine.device.SameAhead session.machine.device ∧
      Brainfuck.translate (.contents other) = .ok (Bytes.ofString "-") ∧
      ∃ report, (session.run 1 (.contents other)).error? = some (.reported report) ∧
        report.kind = .overflow := by
  intro words source other session
  have areWords : ∀ word ∈ words, IsWord word := by
    simp only [words, List.forall_mem_cons]
    exact ⟨⟨by decide +kernel, by decide +kernel⟩, ⟨by decide +kernel, by decide +kernel⟩, nofun⟩
  have oneLine : Spaced words (words[0] ++ (([32] : Bytes) ++ (words[1] ++ []))) :=
    .next (by decide +kernel) (by decide) (.last (by decide +kernel))
  have twoLines : Spaced words (words[0] ++ (([9, 10] : Bytes) ++ (words[1] ++ [10]))) :=
    .next (by decide +kernel) (by decide) (.last (by decide +kernel))
  have lays : LaysOut words source := @LaysOut.intro words [] _ (by decide +kernel) oneLine
  have laysOther : LaysOut words other :=
    @LaysOut.intro words [10, 32] _ (by decide +kernel) twoLines
  have ahead := Device.SameAhead.refl session.machine.device
  obtain ⟨-, -, runs, translations⟩ := layout_does_not_matter areWords lays laysOther
  have translated : Brainfuck.translate (.contents source) = .ok (Bytes.ofString "-") := by
    decide +kernel
  have fails : (session.run 1 (.contents source)).error? = some (.reported
      (.make .overflow (Fault.subtraction 1).message (some source) (some 1) (some 1))) := by
    decide +kernel
  refine ⟨areWords, lays, laysOther, ahead, ?_, ?_⟩
  · generalize Brainfuck.translate (.contents other) = result at translations ⊢
    rw [translated] at translations
    cases translations
    rfl
  · have alike := runs session session ahead 1
    rw [SessionRun.eq_failed fails] at alike
    generalize session.run 1 (.contents other) = run at alike ⊢
    cases alike with
    | failed last same =>
        cases same with
        | refl => exact ⟨_, rfl, rfl⟩
        | reported kind description => exact ⟨_, rfl, kind⟩

end WordTape
