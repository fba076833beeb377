import Mathlib.Tactic.SplitIfs
import WordTape.Proofs.Text.Lines
import WordTape.Text.Utf8

/-!
# Lines of a text with ill-formed parts replaced

A line feed completes no character and is part of no ill-formed piece but a text of its
own. So the lines of a text whose ill-formed parts are replaced are the lines of the text,
each with its own ill-formed parts replaced.
-/

set_option autoImplicit false

namespace WordTape

namespace Utf8

/-! ## Pieces and line feeds -/

private theorem follow?_low {lead low high : UInt8} {more : Nat}
    (follows : follow? lead = some (low, high, more)) : 0x80 ≤ low := by
  unfold follow? at follows
  split_ifs at follows <;> cases follows <;> decide

/-- Continuation bytes are not read beyond a line feed. -/
private theorem continuation_append (taken : Bytes) (count : Nat) (rest after : Bytes) :
    continuation taken count (rest ++ Bytes.lineFeed :: after) =
      ((continuation taken count rest).1,
        (continuation taken count rest).2 ++ Bytes.lineFeed :: after) := by
  induction rest generalizing taken count with
  | nil => cases count <;> rfl
  | cons byte rest ih =>
      cases count with
      | zero => rfl
      | succ count =>
          simp only [List.cons_append, continuation]
          split
          · exact ih (taken ++ [byte]) count
          · rfl

/-- A piece does not reach beyond a line feed behind its first byte. -/
private theorem piece_append (lead : UInt8) (rest after : Bytes) :
    piece lead (rest ++ Bytes.lineFeed :: after) =
      ((piece lead rest).1, (piece lead rest).2 ++ Bytes.lineFeed :: after) := by
  unfold piece
  by_cases ascii : lead < 0x80
  · simp only [ascii, ↓reduceIte]
  simp only [ascii, ↓reduceIte]
  cases follows : follow? lead with
  | none => rfl
  | some wanted =>
      obtain ⟨low, high, more⟩ := wanted
      cases rest with
      | nil =>
          -- a line feed is below every second byte, so that the lead byte stands alone
          have below : ¬low ≤ Bytes.lineFeed := by
            have least := follow?_low follows
            intro reached
            exact absurd (UInt8.le_trans least reached) (by decide)
          simp only [List.nil_append, below, false_and, ↓reduceIte]
      | cons second tail =>
          simp only [List.cons_append]
          split
          · exact continuation_append [lead, second] more tail after
          · rfl

private theorem piecesFrom_append_found (earlier found : Array Piece) (text : Bytes) :
    piecesFrom (earlier ++ found) text = earlier ++ piecesFrom found text := by
  fun_induction piecesFrom found text with
  | case1 found => rw [piecesFrom]
  | case2 found lead rest ih => rw [piecesFrom, ← Array.append_push, ih]

private theorem toList_piecesFrom (found : Array Piece) (text : Bytes) :
    (piecesFrom found text).toList = found.toList ++ pieces text := by
  have apart := piecesFrom_append_found found #[] text
  rw [Array.append_empty] at apart
  rw [apart, Array.toList_append, pieces]

private theorem piecesFrom_append (found : Array Piece) (text after : Bytes) :
    piecesFrom found (text ++ Bytes.lineFeed :: after) =
      piecesFrom ((piecesFrom found text).push (.char [Bytes.lineFeed])) after := by
  fun_induction piecesFrom found text with
  | case1 found =>
      rw [List.nil_append, piecesFrom]
      rfl
  | case2 found lead rest ih => rw [List.cons_append, piecesFrom, piece_append, ih]

/-- A line feed is a piece of its own between those before and behind it. -/
theorem pieces_append (text after : Bytes) :
    pieces (text ++ Bytes.lineFeed :: after) =
      pieces text ++ .char [Bytes.lineFeed] :: pieces after := by
  rw [pieces, piecesFrom_append, toList_piecesFrom, Array.toList_push, List.append_assoc]
  rfl

theorem replaceIllFormed_append (text after : Bytes) :
    replaceIllFormed (text ++ Bytes.lineFeed :: after) =
      replaceIllFormed text ++ Bytes.lineFeed :: replaceIllFormed after := by
  simp only [replaceIllFormed, pieces_append, List.flatMap_append, List.flatMap_cons,
    List.singleton_append]

/-- No replacement makes a line feed. -/
theorem lineFeed_not_mem_replaceIllFormed {text : Bytes} (solid : Bytes.lineFeed ∉ text) :
    Bytes.lineFeed ∉ replaceIllFormed text := by
  intro member
  obtain ⟨part, found, inside⟩ := List.mem_flatMap.mp member
  cases part with
  | illFormed bytes =>
      have none : Bytes.lineFeed ∉ replacement := by decide
      exact none inside
  | char bytes =>
      apply solid
      rw [← flatMap_bytes_pieces text]
      exact List.mem_flatMap.mpr ⟨.char bytes, found, inside⟩

/-- The lines of a text with its ill-formed parts replaced are those of the text, each
with its own ill-formed parts replaced. -/
theorem lines_replaceIllFormed (text : Bytes) :
    Excerpt.lines (replaceIllFormed text) = (Excerpt.lines text).map replaceIllFormed := by
  induction text using Excerpt.byLines with
  | last line solid =>
      rw [Excerpt.lines_of_not_mem solid,
        Excerpt.lines_of_not_mem (lineFeed_not_mem_replaceIllFormed solid), List.map_singleton]
  | next line rest solid ih =>
      rw [replaceIllFormed_append, Excerpt.lines_append, Excerpt.lines_append, List.map_append, ih,
        Excerpt.lines_of_not_mem solid,
        Excerpt.lines_of_not_mem (lineFeed_not_mem_replaceIllFormed solid), List.map_singleton]

/-- A character that a line feed cuts off is replaced in its own line. -/
example : Excerpt.lines (replaceIllFormed [0xE2, 0x82, 10, 0xAC]) =
    [[0xEF, 0xBF, 0xBD], [0xEF, 0xBF, 0xBD]] := by
  decide +kernel

end Utf8

end WordTape
