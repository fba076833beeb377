import WordTape.Proofs.Token.Words

/-!
# Words and the blanks between them

A source lays out words if it has blanks between any two of them, and perhaps before the
first and behind the last. Whichever blanks these are and however many, the tokens of the
source are the words.
-/

set_option autoImplicit false

namespace WordTape.Lexer

def AllBlank (gap : Bytes) : Prop :=
  ∀ byte ∈ gap, isBlank byte = true

instance (gap : Bytes) : Decidable (AllBlank gap) :=
  inferInstanceAs (Decidable (∀ byte ∈ gap, isBlank byte = true))

/-- Words each of which has blanks behind it, which only the last may lack. -/
inductive Spaced : List Bytes → Bytes → Prop where
  | none : Spaced [] []
  | last {word gap : Bytes} : AllBlank gap → Spaced [word] (word ++ gap)
  | next {word gap source : Bytes} {words : List Bytes} :
      AllBlank gap → gap ≠ [] → Spaced words source →
      Spaced (word :: words) (word ++ (gap ++ source))

/-- Spaced words with a margin of blanks, which may be missing. -/
inductive LaysOut (words : List Bytes) : Bytes → Prop where
  | intro {margin body : Bytes} : AllBlank margin → Spaced words body →
      LaysOut words (margin ++ body)

/-- A word and a blank in front of words that are laid out. -/
theorem LaysOut.spaced_cons {words : List Bytes} {source : Bytes} (lays : LaysOut words source)
    (word : Bytes) : Spaced (word :: words) (word ++ 32 :: source) := by
  cases lays with
  | @intro margin body blank spaced =>
      have gap : AllBlank (32 :: margin) := by
        intro byte member
        cases member with
        | head => rfl
        | tail _ member => exact blank byte member
      exact .next gap (List.cons_ne_nil _ _) spaced

theorem AllBlank.startsBlank_append {gap : Bytes} (blank : AllBlank gap) {rest : Bytes}
    (boundary : gap = [] → StartsBlank rest) : StartsBlank (gap ++ rest) := by
  cases gap with
  | nil => exact boundary rfl
  | cons byte gap =>
      intro first head
      cases head
      exact blank byte (List.mem_cons_self ..)

theorem tokensFrom_gap {gap : Bytes} (blank : AllBlank gap) (found : Array Token)
    (position : Position) (rest : Bytes) :
    tokensFrom found position (gap ++ rest) =
      tokensFrom found (position.advance gap) rest := by
  induction gap generalizing position with
  | nil => rfl
  | cons byte gap ih =>
      have inside : AllBlank gap := fun other member => blank other (List.mem_cons_of_mem _ member)
      rw [List.cons_append, tokensFrom_blank (blank byte (List.mem_cons_self ..)), ih inside]
      rfl

private theorem view_tokensFrom_spaced {words : List Bytes} {source : Bytes}
    (spaced : Spaced words source) (areWords : ∀ word ∈ words, IsWord word)
    (found : Array Token) (position : Position) :
    (tokensFrom found position source).toList.map view =
      found.toList.map view ++ words.map fun word => (word, classify word) := by
  induction spaced generalizing found position with
  | none => simp [tokensFrom]
  | @last word gap blank =>
      have boundary : StartsBlank gap := by
        have alone := @AllBlank.startsBlank_append gap blank [] (by simp [StartsBlank])
        rwa [List.append_nil] at alone
      have ended := tokensFrom_gap blank
        (found.push { value := word, position, kind := classify word }) (position.advance word) []
      rw [List.append_nil] at ended
      rw [tokensFrom_word (areWords word (by simp)) boundary, ended]
      simp [tokensFrom, view]
  | @next word gap source words blank separated spaced ih =>
      have boundary : StartsBlank (gap ++ source) :=
        blank.startsBlank_append fun none => absurd none separated
      have others : ∀ other ∈ words, IsWord other :=
        fun other member => areWords other (List.mem_cons_of_mem _ member)
      rw [tokensFrom_word (areWords word (by simp)) boundary, tokensFrom_gap blank, ih others]
      simp [view]

/-- The tokens of a source that lays out words are these words. -/
theorem view_tokenize_of_laysOut {words : List Bytes} {source : Bytes}
    (lays : LaysOut words source) (areWords : ∀ word ∈ words, IsWord word) :
    (tokenize source).toList.map view = words.map fun word => (word, classify word) := by
  obtain ⟨blank, spaced⟩ := lays
  rw [tokenize, tokensFrom_gap blank, view_tokensFrom_spaced spaced areWords]
  rfl

end WordTape.Lexer
