import WordTape.Proofs.Text.Lines
import WordTape.Proofs.Token.Concatenation

/-!
# Places of tokens

The position of a token is the place of its first byte: the number of its line, and how
far into this line it begins. Lines are the lines of the bytes of the program, whether
these are well-formed text or not.
-/

set_option autoImplicit false

namespace WordTape

/-- Where a word stands in a program: the text before and behind it, and the lines above
and below its own line, of which the word leaves a left and a right part. -/
structure Place (program word : Bytes) where
  before : Bytes
  after : Bytes
  above : List Bytes
  left : Bytes
  right : Bytes
  below : List Bytes
  program_eq : program = before ++ (word ++ after)
  lines_before : Excerpt.lines before = above ++ [left]
  lines_program : Excerpt.lines program = above ++ (left ++ word ++ right) :: below

namespace Place

variable {program word : Bytes}

/-- The line that the word stands in. -/
def text (place : Place program word) : Bytes :=
  place.left ++ word ++ place.right

/-- The number of the line that the word stands in. -/
def line (place : Place program word) : Nat :=
  place.above.length + 1

/-- The number of the first byte of the word in its line. -/
def column (place : Place program word) : Nat :=
  place.left.length + 1

def position (place : Place program word) : Position where
  line := place.line
  column := place.column

theorem line_le (place : Place program word) :
    place.line ≤ (Excerpt.lines program).length := by
  rw [place.lines_program, List.length_append, List.length_cons, line]
  omega

/-- A word without line feeds has a place wherever it stands. -/
private theorem exists_of_split {before after : Bytes} (split : program = before ++ (word ++ after))
    (solid : Bytes.lineFeed ∉ word) : ∃ place : Place program word, place.before = before := by
  have ends := (List.dropLast_concat_getLast (Excerpt.lines_ne_nil before)).symm
  obtain ⟨right, below, begins⟩ := List.exists_cons_of_ne_nil (Excerpt.lines_ne_nil after)
  have lines := Excerpt.lines_join ends (Excerpt.lines_append_solid solid begins)
  rw [← split, ← List.append_assoc] at lines
  exact ⟨⟨before, after, _, _, right, below, split, ends, lines⟩, rfl⟩

end Place

namespace Position

private theorem advance_solid {text : Bytes} (solid : Bytes.lineFeed ∉ text) (position : Position) :
    position.advance text = { position with column := position.column + text.length } := by
  simp only [advance]
  induction text generalizing position with
  | nil => rfl
  | cons byte rest ih =>
      have other : byte ≠ Bytes.lineFeed := (List.ne_of_not_mem_cons solid).symm
      rw [List.foldl_cons, ih (List.not_mem_of_not_mem_cons solid)]
      simp only [next, other, ↓reduceIte, List.length_cons]
      rw [Nat.add_assoc, Nat.add_comm 1]

/-- Behind a text the line is the last of the text, and the column lies behind it. -/
theorem advance_lines {text left : Bytes} {above : List Bytes}
    (ends : Excerpt.lines text = above ++ [left]) (line : Nat) :
    advance { line, column := 1 } text =
      { line := line + above.length, column := left.length + 1 } := by
  induction text using Excerpt.byLines generalizing above line with
  | last text solid =>
      rw [Excerpt.lines_of_not_mem solid] at ends
      obtain ⟨rfl, rfl⟩ := List.concat_inj.mp (by simpa using ends : [].concat text = _)
      rw [advance_solid solid, Nat.add_comm 1]
      rfl
  | next first rest solid ih =>
      rw [Excerpt.lines_append, Excerpt.lines_of_not_mem solid, List.singleton_append] at ends
      cases above with
      | nil => exact absurd (List.cons.inj ends).2 (Excerpt.lines_ne_nil rest)
      | cons head above =>
          have onward := ih (List.cons.inj ends).2 (line + 1)
          rw [advance_append, advance_solid solid]
          refine onward.trans ?_
          rw [List.length_cons, Nat.add_right_comm, Nat.add_assoc]

end Position

namespace Lexer

private theorem StartsBlank.of_append {text rest : Bytes} (starts : StartsBlank (text ++ rest)) :
    StartsBlank text := by
  intro byte first
  apply starts
  rw [List.head?_append, first, Option.some_or]

private theorem getElem?_tokensFrom {found : Array Token} {index : Nat}
    (earlier : index < found.size)
    (position : Position) (text : Bytes) :
    (tokensFrom found position text)[index]? = found[index]? := by
  have kept := tokensFrom_append_found found #[] position text
  rw [Array.append_empty] at kept
  rw [kept, Array.getElem?_append_left earlier]

/-- A token that is found in a text stands behind as many others as come before it, and
its position is that of its first byte. -/
private theorem split_of_tokensFrom {found : Array Token} {position : Position} {text : Bytes}
    {index : Nat} {token : Token} (new : found.size ≤ index)
    (stands : (tokensFrom found position text)[index]? = some token) :
    ∃ before after, text = before ++ (token.value ++ after) ∧
      (tokensFrom found position before).size = index ∧
      token.position = position.advance before := by
  fun_induction tokensFrom found position text with
  | case1 found position =>
      have here := (Array.getElem?_eq_some_iff.mp stands).1
      omega
  | case2 found position byte rest blank ih =>
      obtain ⟨before, after, split, size, place⟩ := ih new stands
      refine ⟨byte :: before, after, by rw [split, List.cons_append], ?_, place⟩
      rw [tokensFrom_blank blank, size]
  | case3 found position byte rest notBlank word ih =>
      have isWord : IsWord word := isWord_of_solid (by simpa using notBlank) rest
      have whole : byte :: rest = word ++ rest.dropWhile (!isBlank ·) := by
        rw [List.cons_append, List.takeWhile_append_dropWhile]
      by_cases first : index = found.size
      · subst first
        rw [getElem?_tokensFrom (by rw [Array.size_push]; exact Nat.lt_succ_self _),
          Array.getElem?_push_size] at stands
        cases stands
        exact ⟨[], rest.dropWhile (!isBlank ·), whole, by rw [tokensFrom], rfl⟩
      · obtain ⟨before, after, split, size, place⟩ :=
          ih (by rw [Array.size_push]; omega) stands
        have boundary := startsBlank_dropWhile rest
        rw [split] at boundary
        refine ⟨word ++ before, after, ?_, ?_, ?_⟩
        · rw [whole, split, List.append_assoc]
        · rw [tokensFrom_word isWord boundary.of_append, size]
        · rw [place, Position.advance_append]

/-- Every token of a program has a place, behind as many others as its index says. -/
theorem exists_place {program : Bytes} {index : Nat} {token : Token}
    (stands : (tokenize program)[index]? = some token) :
    ∃ place : Place program token.value, (tokenize place.before).size = index ∧
      token.position = place.position := by
  obtain ⟨before, after, split, size, position⟩ :=
    split_of_tokensFrom (Nat.zero_le index) stands
  have isWord : IsWord token.value :=
    (ofWord_of_mem_tokenize (Array.mem_of_getElem? stands)).1
  have solid : Bytes.lineFeed ∉ token.value := by
    intro member
    have notBlank := isWord.solid _ member
    cases notBlank
  obtain ⟨place, rfl⟩ := Place.exists_of_split split solid
  refine ⟨place, size, ?_⟩
  rw [position]
  refine (Position.advance_lines place.lines_before 1).trans ?_
  rw [Nat.add_comm]
  rfl

end Lexer

end WordTape
