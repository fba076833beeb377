import WordTape.Source
import WordTape.Token.Lexer

/-!
# Words and tokens

Every token is a word without blanks, and what it is depends on the word alone. Words
with a blank between them are split into the same words again.
-/

set_option autoImplicit false

namespace WordTape.Lexer

structure IsWord (word : Bytes) : Prop where
  nonempty : word ≠ []
  solid : ∀ byte ∈ word, isBlank byte = false

theorem IsWord.lineFeed_not_mem {word : Bytes} (isWord : IsWord word) :
    Bytes.lineFeed ∉ word := by
  intro member
  cases isWord.solid Bytes.lineFeed member

/-- The text is empty or goes on with a blank. -/
def StartsBlank (text : Bytes) : Prop :=
  ∀ byte, text.head? = some byte → isBlank byte = true

theorem isWord_of_solid {byte : UInt8} (solid : isBlank byte = false) (rest : Bytes) :
    IsWord (byte :: rest.takeWhile (!isBlank ·)) := by
  refine ⟨List.cons_ne_nil _ _, ?_⟩
  intro other member
  rcases List.mem_cons.mp member with rfl | member
  · exact solid
  · have all := List.all_takeWhile (p := (!isBlank ·)) (l := rest)
    simpa using List.all_eq_true.mp all other member

theorem startsBlank_dropWhile (text : Bytes) : StartsBlank (text.dropWhile (!isBlank ·)) := by
  intro byte first
  have blank := List.head?_dropWhile_not (!isBlank ·) text
  rw [first] at blank
  simpa using blank

theorem StartsBlank.append {text : Bytes} (starts : StartsBlank text) {byte : UInt8}
    (blank : isBlank byte = true) (rest : Bytes) : StartsBlank (text ++ byte :: rest) := by
  intro other first
  cases text with
  | nil =>
      cases first
      exact blank
  | cons head tail => exact starts other first

theorem takeWhile_solid {solid rest : Bytes} (inside : ∀ byte ∈ solid, isBlank byte = false)
    (boundary : StartsBlank rest) : (solid ++ rest).takeWhile (!isBlank ·) = solid := by
  rw [List.takeWhile_append_of_pos (fun byte member => by simp [inside byte member])]
  cases rest with
  | nil => simp
  | cons byte rest => simp [boundary byte rfl]

theorem dropWhile_solid {solid rest : Bytes} (inside : ∀ byte ∈ solid, isBlank byte = false)
    (boundary : StartsBlank rest) : (solid ++ rest).dropWhile (!isBlank ·) = rest := by
  rw [List.dropWhile_append_of_pos (fun byte member => by simp [inside byte member])]
  cases rest with
  | nil => rfl
  | cons byte rest => simp [boundary byte rfl]

theorem tokensFrom_blank {byte : UInt8} (blank : isBlank byte = true) (found : Array Token)
    (position : Position) (rest : Bytes) :
    tokensFrom found position (byte :: rest) = tokensFrom found (position.next byte) rest := by
  rw [tokensFrom]
  simp only [blank, ↓reduceIte]

theorem tokensFrom_solid {byte : UInt8} (solid : isBlank byte = false) (found : Array Token)
    (position : Position) (rest : Bytes) :
    let word := byte :: rest.takeWhile (!isBlank ·)
    tokensFrom found position (byte :: rest) =
      tokensFrom (found.push { value := word, position, kind := classify word })
        (position.advance word) (rest.dropWhile (!isBlank ·)) := by
  rw [tokensFrom]
  simp only [solid, Bool.false_eq_true, ↓reduceIte]

theorem tokensFrom_word {word rest : Bytes} (isWord : IsWord word)
    (boundary : StartsBlank rest) (found : Array Token) (position : Position) :
    tokensFrom found position (word ++ rest) =
      tokensFrom (found.push { value := word, position, kind := classify word })
        (position.advance word) rest := by
  obtain ⟨nonempty, solid⟩ := isWord
  cases word with
  | nil => contradiction
  | cons byte word =>
      have first : isBlank byte = false := solid byte (List.mem_cons_self ..)
      have inside : ∀ byte ∈ word, isBlank byte = false := by
        intro byte member
        exact solid byte (List.mem_cons_of_mem _ member)
      rw [List.cons_append, tokensFrom_solid first, takeWhile_solid inside boundary,
        dropWhile_solid inside boundary]

theorem tokensFrom_last_word {word : Bytes} (isWord : IsWord word) (found : Array Token)
    (position : Position) :
    tokensFrom found position word =
      found.push { value := word, position, kind := classify word } := by
  have boundary : StartsBlank [] := by simp [StartsBlank]
  have read := tokensFrom_word isWord boundary found position
  rwa [List.append_nil, tokensFrom] at read

theorem tokenize_word {word : Bytes} (isWord : IsWord word) :
    tokenize word = #[{ value := word, position := .start, kind := classify word }] :=
  tokensFrom_last_word isWord #[] .start

/-- What is said of a token: it is a word, and its kind is that of the word. -/
def OfWord (token : Token) : Prop :=
  IsWord token.value ∧ token.kind = classify token.value

private theorem ofWord_of_mem_tokensFrom {found : Array Token} {position : Position}
    {source : Bytes}
    (earlier : ∀ token ∈ found, OfWord token) :
    ∀ token ∈ tokensFrom found position source, OfWord token := by
  fun_induction tokensFrom found position source with
  | case1 found position => exact earlier
  | case2 found position byte rest blank ih => exact ih earlier
  | case3 found position byte rest solid word ih =>
      have isWord : IsWord word := isWord_of_solid (by simpa using solid) rest
      apply ih
      intro token member
      rcases Array.mem_push.mp member with before | rfl
      · exact earlier token before
      · exact ⟨isWord, rfl⟩

theorem ofWord_of_mem_tokenize {source : Bytes} {token : Token}
    (member : token ∈ tokenize source) : OfWord token :=
  ofWord_of_mem_tokensFrom (by simp) token member

/-! ## Sources made of words -/

/-- The words with a space between them. -/
def joined : List Bytes → Bytes
  | [] => []
  | [word] => word
  | word :: next :: rest => word ++ 32 :: joined (next :: rest)

/-- What a token is without its place. -/
def view (token : Token) : Bytes × TokenKind :=
  (token.value, token.kind)

private theorem view_tokensFrom_joined {words : List Bytes} (areWords : ∀ word ∈ words, IsWord word)
    (found : Array Token) (position : Position) :
    (tokensFrom found position (joined words)).toList.map view =
      found.toList.map view ++ words.map fun word => (word, classify word) := by
  fun_induction joined words generalizing found position with
  | case1 => simp [tokensFrom]
  | case2 word => simp [tokensFrom_last_word (areWords word (by simp)), view]
  | case3 word next rest ih =>
      have boundary : StartsBlank (32 :: joined (next :: rest)) := by
        intro byte first
        cases first
        rfl
      rw [tokensFrom_word (areWords word (by simp)) boundary, tokensFrom_blank rfl, ih]
      · simp [view]
      · intro other member
        exact areWords other (List.mem_cons_of_mem _ member)

/-- A source made of words has these words as its tokens. -/
theorem view_tokenize_joined {words : List Bytes} (areWords : ∀ word ∈ words, IsWord word) :
    (tokenize (joined words)).toList.map view = words.map fun word => (word, classify word) := by
  have viewed := view_tokensFrom_joined areWords #[] .start
  rw [tokenize, viewed]
  rfl

def WordAt (tokens : Array Token) (position : Nat) (word : Bytes) : Prop :=
  ∃ token, tokens[position]? = some token ∧ token.value = word ∧ token.kind = classify word

theorem wordAt_tokenize_joined {words : List Bytes} (areWords : ∀ word ∈ words, IsWord word)
    {position : Nat} {word : Bytes} (stands : words[position]? = some word) :
    WordAt (tokenize (joined words)) position word := by
  have viewed := congrArg (·[position]?) (view_tokenize_joined areWords)
  simp only [List.getElem?_map, stands, Option.map_some, Option.map_eq_some_iff] at viewed
  obtain ⟨token, found, same⟩ := viewed
  rw [Array.getElem?_toList] at found
  obtain ⟨value, kind⟩ := Prod.mk.inj same
  exact ⟨token, found, value, kind⟩

theorem size_tokenize_joined {words : List Bytes} (areWords : ∀ word ∈ words, IsWord word) :
    (tokenize (joined words)).size = words.length := by
  have viewed := congrArg List.length (view_tokenize_joined areWords)
  simpa only [List.length_map, Array.length_toList] using viewed

theorem classify_spelling (mnemonic : Mnemonic) :
    classify (Bytes.ofString mnemonic.spelling) = .instruction mnemonic := by
  have table : ∀ mnemonic ∈ Mnemonic.all,
      classify (Bytes.ofString mnemonic.spelling) = .instruction mnemonic := by decide +kernel
  exact table mnemonic (Mnemonic.mem_all mnemonic)

theorem isWord_spelling (mnemonic : Mnemonic) : IsWord (Bytes.ofString mnemonic.spelling) := by
  have table : ∀ mnemonic ∈ Mnemonic.all, Bytes.ofString mnemonic.spelling ≠ [] ∧
      ∀ byte ∈ Bytes.ofString mnemonic.spelling, isBlank byte = false := by decide +kernel
  obtain ⟨nonempty, solid⟩ := table mnemonic (Mnemonic.mem_all mnemonic)
  exact ⟨nonempty, solid⟩

end WordTape.Lexer
