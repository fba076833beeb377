import WordTape.Text.Excerpt

/-!
# Lines

Texts are taken line by line: a text is one line without line feeds, or such a line, a
line feed and another text.
-/

set_option autoImplicit false

namespace WordTape.Excerpt

/-- Induction on the lines of a text. -/
@[elab_as_elim]
theorem byLines {motive : Bytes → Prop}
    (last : ∀ line, Bytes.lineFeed ∉ line → motive line)
    (next : ∀ line rest, Bytes.lineFeed ∉ line → motive rest →
      motive (line ++ Bytes.lineFeed :: rest))
    (text : Bytes) : motive text := by
  by_cases member : Bytes.lineFeed ∈ text
  · obtain ⟨line, rest, split, solid⟩ := List.eq_append_cons_of_mem member
    rw [split]
    exact next line rest solid (byLines last next rest)
  · exact last text member
termination_by text.length
decreasing_by
  rw [split, List.length_append, List.length_cons]
  omega

theorem lines_append (text after : Bytes) :
    lines (text ++ Bytes.lineFeed :: after) = lines text ++ lines after := by
  simp only [lines, List.splitOn_eq_splitOnP]
  exact List.splitOnP_append_cons text after (beq_self_eq_true Bytes.lineFeed)

theorem lines_of_not_mem {text : Bytes} (solid : Bytes.lineFeed ∉ text) :
    lines text = [text] := by
  rw [lines, List.splitOn_eq_splitOnP]
  apply List.splitOnP_eq_singleton
  intro byte member
  rw [beq_eq_false_iff_ne]
  rintro rfl
  exact solid member

theorem lines_ne_nil (text : Bytes) : lines text ≠ [] := by
  rw [lines, List.splitOn_eq_splitOnP]
  exact List.splitOnP_ne_nil _ _

theorem lines_append_solid {text after first : Bytes} {rest : List Bytes}
    (solid : Bytes.lineFeed ∉ text) (split : lines after = first :: rest) :
    lines (text ++ after) = (text ++ first) :: rest := by
  rw [lines, List.splitOn_eq_splitOnP] at split ⊢
  induction text with
  | nil => exact split
  | cons byte text ih =>
      have other := List.ne_of_not_mem_cons solid
      have apart : (byte == Bytes.lineFeed) = false := beq_eq_false_iff_ne.mpr other.symm
      rw [List.cons_append, List.splitOnP_cons_eq_if_modifyHead, apart,
        ih (List.not_mem_of_not_mem_cons solid)]
      rfl

/-- The last line of a text and the first line of what is put behind it become one. -/
theorem lines_join {text after left right : Bytes} {above below : List Bytes}
    (ends : lines text = above ++ [left]) (begins : lines after = right :: below) :
    lines (text ++ after) = above ++ (left ++ right) :: below := by
  induction text using byLines generalizing above with
  | last line solid =>
      rw [lines_of_not_mem solid] at ends
      obtain ⟨rfl, rfl⟩ := List.concat_inj.mp (by simpa using ends : [].concat line = _)
      exact lines_append_solid solid begins
  | next line rest solid ih =>
      rw [lines_append, lines_of_not_mem solid, List.singleton_append] at ends
      cases above with
      | nil => exact absurd (List.cons.inj ends).2 (lines_ne_nil rest)
      | cons first above =>
          obtain ⟨rfl, onward⟩ := List.cons.inj ends
          rw [List.append_assoc, List.cons_append, lines_append, lines_of_not_mem solid, ih onward]
          rfl

/-- There is no line feed in a line of a text. -/
theorem lineFeed_not_mem_of_mem_lines {text line : Bytes} (member : line ∈ lines text) :
    Bytes.lineFeed ∉ line := by
  induction text using byLines with
  | last whole solid =>
      rw [lines_of_not_mem solid, List.mem_singleton] at member
      exact member ▸ solid
  | next first rest solid ih =>
      rw [lines_append, lines_of_not_mem solid, List.singleton_append] at member
      cases member with
      | head => exact solid
      | tail _ member => exact ih member

/-- Lines with line feeds between them are split again into the same lines. -/
theorem lines_intercalate {rows : List Bytes} (nonempty : rows ≠ [])
    (solid : ∀ row ∈ rows, Bytes.lineFeed ∉ row) :
    lines ([Bytes.lineFeed].intercalate rows) = rows :=
  List.splitOn_intercalate Bytes.lineFeed solid nonempty

end WordTape.Excerpt
