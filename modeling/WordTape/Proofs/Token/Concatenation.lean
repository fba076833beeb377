import WordTape.Proofs.Token.Words

/-!
# Tokens of sources one below the other

A line feed divides a source for its tokens: those before it are the tokens of the part
before it, and those behind it are the tokens of the part behind it, on lines further
down.
-/

set_option autoImplicit false

namespace WordTape

namespace Position

/-- The position some lines further down. -/
def below (lines : Nat) (position : Position) : Position :=
  { position with line := position.line + lines }

private theorem next_below (lines : Nat) (position : Position) (byte : UInt8) :
    (position.below lines).next byte = (position.next byte).below lines := by
  by_cases lineFeed : byte = Bytes.lineFeed
  · simp only [next, lineFeed, ↓reduceIte, below]
    rw [Nat.add_right_comm]
  · simp only [next, lineFeed, ↓reduceIte, below]

private theorem advance_below (lines : Nat) (position : Position) (bytes : Bytes) :
    (position.below lines).advance bytes = (position.advance bytes).below lines := by
  simp only [advance]
  induction bytes generalizing position with
  | nil => rfl
  | cons byte rest ih => rw [List.foldl_cons, List.foldl_cons, next_below, ih]

theorem advance_append (position : Position) (bytes rest : Bytes) :
    position.advance (bytes ++ rest) = (position.advance bytes).advance rest :=
  List.foldl_append

theorem line_advance (position : Position) (bytes : Bytes) :
    (position.advance bytes).line = position.line + bytes.count Bytes.lineFeed := by
  simp only [advance]
  induction bytes generalizing position with
  | nil => rfl
  | cons byte rest ih =>
      rw [List.foldl_cons, ih, List.count_cons]
      by_cases lineFeed : byte = Bytes.lineFeed
      · simp only [next, lineFeed, ↓reduceIte, beq_self_eq_true]
        omega
      · simp only [next, lineFeed, ↓reduceIte, beq_iff_eq]
        omega

/-- Behind a line feed a line begins, as many lines down as line feeds have come. -/
theorem next_lineFeed_advance (bytes : Bytes) :
    (start.advance bytes).next Bytes.lineFeed =
      start.below (1 + bytes.count Bytes.lineFeed) := by
  simp only [next, ↓reduceIte, below, line_advance]
  rw [Nat.add_assoc, Nat.add_comm (bytes.count Bytes.lineFeed) 1]
  rfl

end Position

/-- The token some lines further down. -/
def Token.below (lines : Nat) (token : Token) : Token :=
  { token with position := token.position.below lines }

namespace Lexer

theorem tokensFrom_append_found (earlier found : Array Token) (position : Position)
    (source : Bytes) :
    tokensFrom (earlier ++ found) position source =
      earlier ++ tokensFrom found position source := by
  fun_induction tokensFrom found position source with
  | case1 found position => simp [tokensFrom]
  | case2 found position byte rest blank ih => rw [tokensFrom_blank blank, ih]
  | case3 found position byte rest notBlank word ih =>
      have solid : isBlank byte = false := by simpa using notBlank
      rw [tokensFrom_solid solid, ← Array.append_push, ih]

private theorem tokensFrom_below (lines : Nat) (found : Array Token) (position : Position)
    (source : Bytes) :
    tokensFrom (found.map (Token.below lines)) (position.below lines) source =
      (tokensFrom found position source).map (Token.below lines) := by
  fun_induction tokensFrom found position source with
  | case1 found position => simp [tokensFrom]
  | case2 found position byte rest blank ih =>
      rw [tokensFrom_blank blank, Position.next_below, ih]
  | case3 found position byte rest notBlank word ih =>
      have solid : isBlank byte = false := by simpa using notBlank
      rw [tokensFrom_solid solid, Position.advance_below, ← ih, Array.map_push]
      rfl

theorem tokensFrom_append (found : Array Token) (position : Position) (first second : Bytes) :
    tokensFrom found position (first ++ Bytes.lineFeed :: second) =
      tokensFrom (tokensFrom found position first)
        ((position.advance first).next Bytes.lineFeed) second := by
  fun_induction tokensFrom found position first with
  | case1 found position => exact tokensFrom_blank rfl found position second
  | case2 found position byte rest blank ih =>
      rw [List.cons_append, tokensFrom_blank blank, ih]
      rfl
  | case3 found position byte rest notBlank word ih =>
      have isWord : IsWord word := isWord_of_solid (by simpa using notBlank) rest
      have boundary : StartsBlank (rest.dropWhile (!isBlank ·) ++ Bytes.lineFeed :: second) :=
        (startsBlank_dropWhile rest).append rfl second
      have split : byte :: rest = word ++ rest.dropWhile (!isBlank ·) := by
        rw [List.cons_append, List.takeWhile_append_dropWhile]
      rw [split, List.append_assoc, tokensFrom_word isWord boundary, ih, Position.advance_append]

/-- The tokens of a source with another below it. -/
theorem tokenize_append (first second : Bytes) :
    tokenize (first ++ Bytes.lineFeed :: second) =
      tokenize first ++
        (tokenize second).map (Token.below (1 + first.count Bytes.lineFeed)) := by
  have below := tokensFrom_below (1 + first.count Bytes.lineFeed) #[] .start second
  have behind := tokensFrom_append_found (tokenize first) #[]
    (Position.start.below (1 + first.count Bytes.lineFeed)) second
  rw [Array.append_empty] at behind
  rw [Array.map_empty] at below
  rw [tokenize, tokensFrom_append, Position.next_lineFeed_advance]
  exact behind.trans (congrArg (tokenize first ++ ·) below)

end Lexer

end WordTape
