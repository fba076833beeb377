import Mathlib.Data.List.DropRight
import WordTape.Proofs.Token.Concatenation

/-!
# Tokens are the longest runs

A run of a source is a stretch of bytes that are not blank and has a blank, or an end of the
source, on either side. The tokens of a source are its runs in their order: each run gives
one token, which tells where the run begins, and whose kind follows from the spelling of the
run or, where this is no mnemonic, from its first character in Latin-1.
-/

set_option autoImplicit false

namespace WordTape

private theorem Position.column_advance_start (bytes : Bytes) :
    (start.advance bytes).column = 1 + (bytes.rtakeWhile (· ≠ Bytes.lineFeed)).length := by
  induction bytes using List.reverseRecOn with
  | nil => rfl
  | append_singleton bytes byte ih =>
      rw [advance_append]
      by_cases lineFeed : byte = Bytes.lineFeed
      · rw [List.rtakeWhile_concat_neg _ _ _ (by simpa using lineFeed)]
        simp [advance, next, lineFeed]
      · rw [List.rtakeWhile_concat_pos _ _ _ (by simpa using lineFeed)]
        simp only [advance, List.foldl_cons, List.foldl_nil, next, lineFeed, ↓reduceIte] at ih ⊢
        rw [ih, List.length_append, List.length_singleton, Nat.add_assoc]

theorem Mnemonic.ofWord?_eq_some {word : Bytes} {mnemonic : Mnemonic}
    (found : ofWord? word = some mnemonic) : word = Bytes.ofString mnemonic.spelling := by
  obtain ⟨before, after, split, -⟩ := List.lookup_eq_some_iff.mp found
  have member : (word, mnemonic) ∈ table := by
    rw [split]
    exact List.mem_append_right _ (List.mem_cons_self ..)
  obtain ⟨other, -, same⟩ := List.mem_map.mp member
  cases same
  rfl

namespace Lexer

/-! ## Kinds -/

/-- The characters of Latin-1 whose bytes are of a class. A byte is the code of its character. -/
def characters (ofClass : UInt8 → Bool) : List Char :=
  (((List.range 256).map UInt8.ofNat).filter ofClass).map Char.ofUInt8

def letters : List Char :=
  ("ABCDEFGHIJKLMNOPQRSTUVWXYZabcdefghijklmnopqrstuvwxyzªµº" ++
    "ÀÁÂÃÄÅÆÇÈÉÊËÌÍÎÏÐÑÒÓÔÕÖØÙÚÛÜÝÞßàáâãäåæçèéêëìíîïðñòóôõöøùúûüýþÿ").toList

def numerics : List Char :=
  "0123456789²³¹¼½¾".toList

def punctuation : List Char :=
  "!\"#$%&'()*+,-./:;<=>?@[\\]^_`\x7b|\x7d~".toList

private theorem characters_isLetter : characters isLetter = letters := by decide +kernel

private theorem characters_isNumeric : characters isNumeric = numerics := by decide +kernel

private theorem characters_isPunctuation :
    characters isPunctuation = punctuation := by decide +kernel

private theorem mem_characters {ofClass : UInt8 → Bool} {byte : UInt8} :
    Char.ofUInt8 byte ∈ characters ofClass ↔ ofClass byte = true := by
  have injective : Function.Injective Char.ofUInt8 := by
    intro left right same
    have codes : left.toUInt32.toNat = right.toUInt32.toNat :=
      congrArg (fun character : Char => character.val.toNat) same
    rw [UInt8.toNat_toUInt32, UInt8.toNat_toUInt32] at codes
    exact UInt8.toNat_inj.mp codes
  rw [characters, List.mem_map_of_injective injective, List.mem_filter, and_iff_right]
  exact List.mem_map.mpr ⟨byte.toNat, List.mem_range.mpr byte.toNat_lt, UInt8.ofNat_toNat⟩

/-- The kind of a word is that of the mnemonic that the whole word spells, or else follows
from the first character. -/
structure HasKind (word : Bytes) (kind : TokenKind) : Prop where
  spelled : ∀ mnemonic : Mnemonic,
    kind = .instruction mnemonic ↔ word = Bytes.ofString mnemonic.spelling
  unspelled : (∀ mnemonic : Mnemonic, word ≠ Bytes.ofString mnemonic.spelling) →
    ∀ first, word.head? = some first →
      kind =
        if Char.ofUInt8 first ∈ letters then .unknown
        else if Char.ofUInt8 first ∈ numerics ∨ Char.ofUInt8 first ∈ punctuation then .number
        else .unknown

private theorem spelling_of_classify {word : Bytes} {mnemonic : Mnemonic}
    (kind : classify word = .instruction mnemonic) :
    word = Bytes.ofString mnemonic.spelling := by
  unfold classify at kind
  split at kind
  · cases kind
  · split at kind
    · split at kind
      · rename_i found
        cases kind
        exact Mnemonic.ofWord?_eq_some found
      · cases kind
    · split at kind
      · cases kind
      · cases kind

private theorem hasKind_classify (word : Bytes) : HasKind word (classify word) where
  spelled := by
    intro mnemonic
    constructor
    · exact spelling_of_classify
    · rintro rfl
      exact classify_spelling mnemonic
  unspelled := by
    intro other first head
    obtain ⟨rest, rfl⟩ := List.head?_eq_some_iff.mp head
    have unlisted : Mnemonic.ofWord? (first :: rest) = none := by
      cases found : Mnemonic.ofWord? (first :: rest) with
      | none => rfl
      | some mnemonic => exact absurd (Mnemonic.ofWord?_eq_some found) (other mnemonic)
    simp only [classify, unlisted, ← characters_isLetter, ← characters_isNumeric,
      ← characters_isPunctuation, mem_characters, Bool.or_eq_true]

/-! ## Runs -/

/-- The text is empty or ends in a blank. -/
def EndsBlank (text : Bytes) : Prop :=
  ∀ byte, text.getLast? = some byte → isBlank byte = true

/-- A stretch of a source without blanks that goes as far as it can to both sides. -/
@[ext]
structure Run (source : Bytes) where
  before : Bytes
  word : Bytes
  after : Bytes
  source_eq : source = before ++ (word ++ after)
  isWord : IsWord word
  begins : EndsBlank before
  ends : StartsBlank after

namespace Run

variable {source : Bytes}

/-- The index of the first byte of the run. -/
def index (run : Run source) : Nat :=
  run.before.length

/-- What the token of a run tells of it. Columns count the bytes behind the last line feed. -/
structure IsToken (run : Run source) (token : Token) : Prop where
  value : token.value = run.word
  line : token.position.line = 1 + run.before.count Bytes.lineFeed
  column : token.position.column =
    1 + (run.before.rtakeWhile (· ≠ Bytes.lineFeed)).length
  kind : HasKind run.word token.kind

private theorem isToken (run : Run source) :
    run.IsToken { value := run.word, position := Position.start.advance run.before,
                  kind := classify run.word } where
  value := rfl
  line := Position.line_advance _ _
  column := Position.column_advance_start _
  kind := hasKind_classify run.word

private theorem index_add_length_le (run : Run source) :
    run.index + run.word.length ≤ source.length := by
  have lengths := congrArg List.length run.source_eq
  rw [List.length_append, List.length_append] at lengths
  rw [index]
  omega

theorem length_pos (run : Run source) : 0 < run.word.length :=
  List.length_pos_iff.mpr run.isWord.nonempty

theorem eq_of_index_eq {run other : Run source} (same : run.index = other.index) :
    run = other := by
  obtain ⟨before, behind⟩ :=
    List.append_inj (run.source_eq.symm.trans other.source_eq) same
  have word := takeWhile_solid run.isWord.solid run.ends
  have after := dropWhile_solid run.isWord.solid run.ends
  rw [behind, takeWhile_solid other.isWord.solid other.ends] at word
  rw [behind, dropWhile_solid other.isWord.solid other.ends] at after
  exact Run.ext before word.symm after.symm

/-- No run begins inside another one. -/
private theorem index_ge_of_lt {run other : Run source} (behind : run.index < other.index) :
    run.index + run.word.length ≤ other.index := by
  by_contra inside
  have whole : source = (run.before ++ run.word) ++ run.after := by
    rw [List.append_assoc]
    exact run.source_eq
  have otherBefore : other.before <+: source := ⟨_, other.source_eq.symm⟩
  obtain ⟨part, split⟩ : run.before <+: other.before :=
    List.prefix_of_prefix_length_le ⟨_, run.source_eq.symm⟩ otherBefore behind.le
  have within : run.before ++ part <+: run.before ++ run.word := by
    rw [split]
    refine List.prefix_of_prefix_length_le otherBefore ⟨_, whole.symm⟩ ?_
    rw [List.length_append]
    exact (not_le.mp inside).le
  have inWord := (List.prefix_append_right_inj _).mp within
  have nonempty : part ≠ [] := by
    rintro rfl
    rw [List.append_nil] at split
    rw [index, index, split] at behind
    exact lt_irrefl _ behind
  -- the byte in front of the other run lies in the word of this one
  obtain ⟨byte, last⟩ := Option.isSome_iff_exists.mp (List.getLast?_isSome.mpr nonempty)
  have blank : isBlank byte = true := by
    apply other.begins
    rw [← split, List.getLast?_append, last, Option.some_or]
  have solid := run.isWord.solid byte (inWord.mem (List.mem_of_getLast? last))
  rw [solid] at blank
  cases blank

end Run

/-! ## The runs of a source -/

/-- All runs of a source that begin at an index or behind it, in their order. -/
structure ListsRuns (source : Bytes) (start : Nat) (runs : List (Run source)) : Prop where
  ascending : runs.Pairwise fun earlier later => earlier.index < later.index
  complete : ∀ run, run ∈ runs ↔ start ≤ run.index

namespace ListsRuns

variable {source : Bytes} {start : Nat} {runs : List (Run source)}

theorem nil : ListsRuns source source.length [] where
  ascending := .nil
  complete := by
    intro run
    have within := run.index_add_length_le
    have positive := run.length_pos
    simp only [List.not_mem_nil, false_iff]
    omega

/-- No run begins at a blank. -/
theorem skip {before rest : Bytes} {byte : UInt8} (split : source = before ++ byte :: rest)
    (blank : isBlank byte = true) (lists : ListsRuns source (before.length + 1) runs) :
    ListsRuns source before.length runs where
  ascending := lists.ascending
  complete := by
    intro run
    have notHere : before.length ≠ run.index := by
      intro here
      obtain ⟨-, behind⟩ := List.append_inj (split.symm.trans run.source_eq) here
      obtain ⟨nonempty, solid⟩ := run.isWord
      cases word : run.word with
      | nil => exact nonempty word
      | cons first tail =>
          rw [word, List.cons_append] at behind
          obtain ⟨rfl, -⟩ := List.cons.inj behind
          have notBlank := solid byte (word ▸ List.mem_cons_self ..)
          rw [notBlank] at blank
          cases blank
    rw [lists.complete]
    omega

/-- Behind the first byte of a run the next run can begin only where the run has ended. -/
theorem cons {run : Run source} (lists : ListsRuns source (run.index + run.word.length) runs) :
    ListsRuns source run.index (run :: runs) where
  ascending := by
    refine .cons (fun later member => ?_) lists.ascending
    have behind := (lists.complete later).mp member
    have positive := run.length_pos
    omega
  complete := by
    intro other
    rw [List.mem_cons, lists.complete]
    constructor
    · rintro (rfl | behind)
      · exact le_rfl
      · omega
    · intro behind
      rcases behind.eq_or_lt with here | beyond
      · exact .inl (Run.eq_of_index_eq here.symm)
      · exact .inr (Run.index_ge_of_lt beyond)

end ListsRuns

/-- From a place where no run goes on, the scan finds the tokens of all further runs. -/
theorem exists_runs_tokensFrom {source before rest : Bytes} {found : Array Token}
    {position : Position} (split : source = before ++ rest)
    (boundary : EndsBlank before ∨ StartsBlank rest)
    (place : position = Position.start.advance before) :
    ∃ runs tokens, ListsRuns source before.length runs ∧
      List.Forall₂ Run.IsToken runs tokens ∧
      (tokensFrom found position rest).toList = found.toList ++ tokens := by
  fun_induction tokensFrom found position rest generalizing before with
  | case1 found position =>
      rw [List.append_nil] at split
      subst split
      exact ⟨[], [], .nil, .nil, (List.append_nil _).symm⟩
  | case2 found position byte rest blank ih =>
      have longer : source = (before ++ [byte]) ++ rest := by rw [split]; simp
      have ended : EndsBlank (before ++ [byte]) := by
        intro last isLast
        rw [List.getLast?_concat] at isLast
        cases isLast
        exact blank
      have onward : position.next byte = Position.start.advance (before ++ [byte]) := by
        rw [place, Position.advance_append]
        rfl
      obtain ⟨runs, tokens, lists, areTokens, scanned⟩ := ih longer (.inl ended) onward
      rw [List.length_append, List.length_singleton] at lists
      exact ⟨runs, tokens, lists.skip split blank, areTokens, scanned⟩
  | case3 found position byte rest notBlank word =>
      rename_i ih
      have solid : isBlank byte = false := by simpa using notBlank
      have begins : EndsBlank before := by
        refine boundary.resolve_right fun starts => ?_
        have blank := starts byte rfl
        rw [solid] at blank
        cases blank
      let run : Run source :=
        { before, word, after := rest.dropWhile (!isBlank ·)
          source_eq := by rw [List.cons_append, List.takeWhile_append_dropWhile, split]
          isWord := isWord_of_solid solid rest
          begins
          ends := startsBlank_dropWhile rest }
      have longer : source = (before ++ run.word) ++ run.after := by
        rw [List.append_assoc]
        exact run.source_eq
      have onward : position.advance run.word = Position.start.advance (before ++ run.word) := by
        rw [place, Position.advance_append]
      obtain ⟨runs, tokens, lists, areTokens, scanned⟩ := ih longer (.inr run.ends) onward
      rw [List.length_append] at lists
      have listed : ListsRuns source run.index (run :: runs) := .cons lists
      refine ⟨run :: runs, _ :: tokens, listed, .cons run.isToken areTokens, ?_⟩
      rw [scanned, Array.toList_push, List.append_assoc, place]
      rfl

/-- A source has one token for each of its runs, in the order of the runs. The token has the
bytes of the run as its value, the place of its first byte and the kind of its word. -/
theorem tokens_are_runs (source : Bytes) :
    ∃ runs : List (Run source),
      (runs.Pairwise fun earlier later => earlier.index < later.index) ∧
        (∀ run, run ∈ runs) ∧ List.Forall₂ Run.IsToken runs (tokenize source).toList := by
  have atStart : EndsBlank [] := by simp [EndsBlank]
  obtain ⟨runs, tokens, lists, areTokens, scanned⟩ :=
    @exists_runs_tokensFrom source [] source #[] .start rfl (.inl atStart) rfl
  rw [List.nil_append] at scanned
  refine ⟨runs, lists.ascending, fun run => (lists.complete run).mpr (Nat.zero_le _), ?_⟩
  rw [tokenize, scanned]
  exact areTokens

end Lexer

end WordTape
