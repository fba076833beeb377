import WordTape.Proofs.Numeric.Figures
import WordTape.Proofs.Text.Lines
import WordTape.Report

/-!
# Windows of a text

An excerpt is a window of the text: consecutive lines around a centre, which is the line
that was asked for or the nearest one that the text has. A row can be read back, into its
mark, its number and its line, and the rows of an excerpt give back the lines of the window.
-/

set_option autoImplicit false

namespace WordTape

namespace Excerpt

/-! ## Rows -/

/-- Reads a row: whether it is marked, the number in it, and the line behind the number. -/
def readRow? : Bytes → Option (Bool × Nat × Bytes)
  | mark :: 32 :: columns =>
      let (digits, rest) := (columns.dropWhile (· = 32)).span Decimal.isDigit
      match rest with
      | 32 :: 124 :: 32 :: line => some (mark = 62, Decimal.value digits, line)
      | _ => none
  | _ => none

private theorem row_eq (marked : Bool) (number : Nat) (line : Bytes) :
    row marked number line =
      (if marked then 62 else 32) :: 32 ::
        (List.replicate (4 - (Decimal.ofNat number).length) 32 ++
          (Decimal.ofNat number ++ 32 :: 124 :: 32 :: line)) := by
  have bar : Bytes.ofString " | " = [32, 124, 32] := rfl
  cases marked with
  | true => simp [row, Bytes.padLeft, bar, show Bytes.ofString "> " = [62, 32] from rfl]
  | false => simp [row, Bytes.padLeft, bar, show Bytes.ofString "  " = [32, 32] from rfl]

/-- A number behind blanks is found behind them. -/
private theorem dropWhile_blank (count number : Nat) (rest : Bytes) :
    (List.replicate count 32 ++ (Decimal.ofNat number ++ rest)).dropWhile (· = 32) =
      Decimal.ofNat number ++ rest := by
  rw [List.dropWhile_append_of_pos fun byte member => by simp [List.eq_of_mem_replicate member]]
  cases digits : Decimal.ofNat number with
  | nil => exact absurd digits (Decimal.ofNat_ne_nil number)
  | cons digit more =>
      have isDigit : Decimal.isDigit digit = true :=
        Decimal.isDigit_of_mem_ofNat (digits ▸ List.mem_cons_self)
      have notBlank : digit ≠ 32 := by
        rintro rfl
        cases isDigit
      simp [notBlank]

/-- A row is read as what it was made of. -/
private theorem readRow?_row (marked : Bool) (number : Nat) (line : Bytes) :
    readRow? (row marked number line) = some (marked, number, line) := by
  have digits : (Decimal.ofNat number ++ 32 :: 124 :: 32 :: line).span Decimal.isDigit =
      (Decimal.ofNat number, 32 :: 124 :: 32 :: line) := by
    apply Figures.span_isDigit (Decimal.all_isDigit_ofNat number)
    intro byte first
    cases first
    rfl
  rw [row_eq, readRow?, dropWhile_blank, digits]
  cases marked with
  | true => simp [Decimal.value_ofNat]
  | false => simp [Decimal.value_ofNat]

private theorem lineFeed_not_mem_row {line : Bytes} (solid : Bytes.lineFeed ∉ line) (marked : Bool)
    (number : Nat) : Bytes.lineFeed ∉ row marked number line := by
  have digits : Bytes.lineFeed ∉ Decimal.ofNat number :=
    (Decimal.isWord_ofInt number).lineFeed_not_mem
  cases marked with
  | true => simpa [row_eq, Bytes.lineFeed, List.mem_replicate] using And.intro digits solid
  | false => simpa [row_eq, Bytes.lineFeed, List.mem_replicate] using And.intro digits solid

/-! ## Windows -/

private theorem filter_zipIdx_ge (texts : List Bytes) (first least : Nat) :
    (texts.zipIdx first).filter (fun numbered => decide (least ≤ numbered.2)) =
      (texts.zipIdx first).drop (least - first) := by
  induction texts generalizing first with
  | nil => rw [List.zipIdx_nil, List.filter_nil, List.drop_nil]
  | cons text rest ih =>
      by_cases reached : least ≤ first
      · rw [Nat.sub_eq_zero_of_le reached, List.drop_zero, List.filter_eq_self]
        intro numbered member
        exact decide_eq_true (Nat.le_trans reached (List.le_snd_of_mem_zipIdx member))
      · have further : least - first = least - (first + 1) + 1 := by omega
        rw [List.zipIdx_cons, further, List.drop_succ_cons, ← ih]
        exact List.filter_cons_of_neg (by simpa using reached)

private theorem filter_zipIdx_le (texts : List Bytes) (first most : Nat) :
    (texts.zipIdx first).filter (fun numbered => decide (numbered.2 ≤ most)) =
      (texts.zipIdx first).take (most + 1 - first) := by
  induction texts generalizing first with
  | nil => rw [List.zipIdx_nil, List.filter_nil, List.take_nil]
  | cons text rest ih =>
      by_cases reached : first ≤ most
      · have further : most + 1 - first = most + 1 - (first + 1) + 1 := by omega
        rw [List.zipIdx_cons, further, List.take_succ_cons, ← ih]
        exact List.filter_cons_of_pos (by simpa using reached)
      · rw [Nat.sub_eq_zero_of_le (by omega), List.take_zero, List.filter_eq_nil_iff]
        intro numbered member
        have beyond := List.le_snd_of_mem_zipIdx member
        simp only [decide_eq_true_eq]
        omega

private theorem drop_zipIdx (texts : List Bytes) (first count : Nat) :
    (texts.zipIdx first).drop count = (texts.drop count).zipIdx (first + count) := by
  apply List.ext_getElem?
  intro index
  simp only [List.getElem?_drop, List.getElem?_zipIdx, Nat.add_assoc]

section

variable {lines : List Bytes} {line : Int}

theorem centre_of_within {count line : Nat} (positive : 1 ≤ line) (within : line ≤ count) :
    centre count line = line := by
  unfold centre
  omega

/-- The centre of an excerpt is a line of the text. -/
private theorem exists_centre (nonempty : lines ≠ []) (line : Int) :
    ∃ middle : Nat, centre lines.length line = middle ∧ 1 ≤ middle ∧ middle ≤ lines.length := by
  have positive : 0 < lines.length := List.length_pos_iff.mpr nonempty
  obtain ⟨middle, same⟩ : ∃ middle : Nat, centre lines.length line = middle := by
    apply Int.eq_ofNat_of_zero_le
    unfold centre
    omega
  refine ⟨middle, same, ?_⟩
  unfold centre at same
  omega

variable {middle first : Nat} (here : centre lines.length line = middle)

include here

/-- An excerpt is the rows of its window. -/
theorem around_eq (radius : Int) :
    around lines line radius = [Bytes.lineFeed].intercalate
      ((window lines line radius).map fun numbered =>
        row (decide (numbered.2 = middle)) numbered.2 numbered.1) := by
  simp only [around, here, Nat.cast_inj]

variable {radius : Nat} (starts : first = max 1 (middle - radius))

include starts

/-- A window is a stretch of the lines with consecutive numbers. -/
theorem window_eq :
    window lines line radius =
      ((lines.drop (first - 1)).zipIdx first).take (middle + radius + 1 - first) := by
  have skipped : 1 + (first - 1) = first := by omega
  have least : (lines.drop (first - 1)).zipIdx first =
      (lines.zipIdx 1).filter fun numbered => decide (first ≤ numbered.2) := by
    rw [filter_zipIdx_ge, drop_zipIdx, skipped]
  rw [← filter_zipIdx_le, least, List.filter_filter, window, here]
  apply List.filter_congr
  intro numbered member
  have positive := List.le_snd_of_mem_zipIdx member
  simp only [← Bool.decide_and, decide_eq_decide]
  omega

theorem length_window (positive : 1 ≤ middle) (within : middle ≤ lines.length) :
    (window lines line radius).length = min lines.length (middle + radius) - first + 1 := by
  rw [window_eq here starts, List.length_take, List.length_zipIdx, List.length_drop]
  omega

/-- The lines of an excerpt are the rows of its window. -/
theorem lines_around (positive : 1 ≤ middle) (within : middle ≤ lines.length)
    (solid : ∀ text ∈ lines, Bytes.lineFeed ∉ text) :
    Excerpt.lines (around lines line radius) =
      (window lines line radius).map fun numbered =>
        row (decide (numbered.2 = middle)) numbered.2 numbered.1 := by
  rw [around_eq here, lines_intercalate]
  · have length : (window lines line radius).length = _ :=
      length_window here starts positive within
    rw [← List.length_pos_iff, List.length_map, length]
    exact Nat.succ_pos _
  · intro shown member
    obtain ⟨⟨text, number⟩, inside, rfl⟩ := List.mem_map.mp member
    have listed : (text, number) ∈ lines.zipIdx 1 := (List.mem_filter.mp inside).1
    exact lineFeed_not_mem_row (solid text (List.fst_mem_of_mem_zipIdx listed)) _ _

/-- At an offset a window has the line that is so far behind its first one. -/
theorem getElem?_window (positive : 1 ≤ middle) (within : middle ≤ lines.length) {offset : Nat}
    (inside : offset < (window lines line radius).length) :
    1 ≤ first + offset ∧ first + offset ≤ min lines.length (middle + radius) ∧
      ∃ text, lines[first + offset - 1]? = some text ∧
        (window lines line radius)[offset]? = some (text, first + offset) := by
  have length : (window lines line radius).length = _ :=
    length_window here starts positive within
  have place : first - 1 + offset = first + offset - 1 := by omega
  have found : first + offset - 1 < lines.length := by omega
  refine ⟨by omega, by omega, lines[first + offset - 1], List.getElem?_eq_getElem found, ?_⟩
  rw [window_eq here starts, List.getElem?_take_of_lt (by omega), List.getElem?_zipIdx,
    List.getElem?_drop, place, List.getElem?_eq_getElem found, Option.map_some]

end

/-! ## Excerpts around a line of a text -/

section

variable (above : List Bytes) (text : Bytes) (below : List Bytes) (radius : Nat)

private theorem centre_middle :
    centre (above ++ text :: below).length (above.length + 1 : Nat) =
      (above.length + 1 : Nat) := by
  apply centre_of_within (Nat.le_add_left 1 _)
  simp only [List.length_append, List.length_cons]
  omega

/-- The window at a line of a text is the nearest lines above it, the line itself, and the
nearest lines below it, each with its own number. -/
theorem window_middle :
    window (above ++ text :: below) (above.length + 1 : Nat) radius =
      (above.zipIdx 1).drop (above.length - radius) ++
        (text, above.length + 1) :: (below.zipIdx (above.length + 2)).take radius := by
  let upper := above.drop (above.length - radius)
  have starts : above.length - radius + 1 = max 1 (above.length + 1 - radius) := by omega
  have skipped : (above ++ text :: below).drop (above.length - radius) = upper ++ text :: below :=
    List.drop_append_of_le_length (Nat.sub_le _ _)
  have length : upper.length = above.length - (above.length - radius) := List.length_drop
  have reached : above.length - radius + 1 + upper.length = above.length + 1 := by omega
  have count : above.length + 1 + radius + 1 - (above.length - radius + 1) =
      (upper.zipIdx (above.length - radius + 1)).length + (radius + 1) := by
    rw [List.length_zipIdx]
    omega
  rw [window_eq (centre_middle above text below) starts, Nat.add_sub_cancel, skipped,
    List.zipIdx_append, List.zipIdx_cons, reached, count, List.take_length_add_append,
    List.take_succ_cons, drop_zipIdx, Nat.add_comm 1]

/-- The row of a line that an excerpt does not mark. -/
def plainRow (numbered : Bytes × Nat) : Bytes :=
  row false numbered.2 numbered.1

private theorem plainRow_eq {line : Nat} {numbered : Bytes × Nat} (other : numbered.2 ≠ line) :
    row (decide (numbered.2 = line)) numbered.2 numbered.1 = plainRow numbered := by
  rw [decide_eq_false other, plainRow]

/-- An excerpt around a line of a text is that line marked, between the nearest lines
above and below it. -/
theorem around_middle :
    around (above ++ text :: below) (above.length + 1 : Nat) radius =
      [Bytes.lineFeed].intercalate
        (((above.zipIdx 1).drop (above.length - radius)).map plainRow ++
          row true (above.length + 1) text ::
            ((below.zipIdx (above.length + 2)).take radius).map plainRow) := by
  have upper : ∀ numbered ∈ (above.zipIdx 1).drop (above.length - radius),
      row (decide (numbered.2 = above.length + 1)) numbered.2 numbered.1 = plainRow numbered := by
    intro numbered member
    have before := List.snd_lt_of_mem_zipIdx (List.mem_of_mem_drop member)
    exact plainRow_eq (by omega)
  have lower : ∀ numbered ∈ (below.zipIdx (above.length + 2)).take radius,
      row (decide (numbered.2 = above.length + 1)) numbered.2 numbered.1 = plainRow numbered := by
    intro numbered member
    have behind := List.le_snd_of_mem_zipIdx (List.mem_of_mem_take member)
    exact plainRow_eq (Nat.ne_of_gt behind)
  rw [around_eq (centre_middle above text below), window_middle, List.map_append, List.map_cons,
    List.map_congr_left upper, List.map_congr_left lower, decide_eq_true rfl]

end

end Excerpt

/-- The excerpt of a report shows the lines of the source that are at most two lines away from
the middle, and no others. The middle is the line asked for, or the first or the last line of
the source if that one is outside. Each row reads back as a line with its own number, and the
row of the middle is the only one that is marked. -/
theorem report_shows_window (kind : ReportKind) (description source : Bytes) (line : Int)
    (column : Option Int) :
    let lines := Excerpt.lines source
    let report := Report.make kind description (some source) (some line) column
    let rows := Excerpt.lines report.excerpt
    ∃ middle : Nat, (middle : Int) = min (max 1 line) lines.length ∧
      1 ≤ middle ∧ middle ≤ lines.length ∧
      let first := max 1 (middle - 2)
      let last := min lines.length (middle + 2)
      rows.length = last - first + 1 ∧
      ∀ offset, offset < rows.length →
        1 ≤ first + offset ∧ first + offset ≤ last ∧
        ∃ row text, rows[offset]? = some row ∧ lines[first + offset - 1]? = some text ∧
          Excerpt.readRow? row = some (decide (first + offset = middle), first + offset, text) := by
  intro lines report rows
  obtain ⟨middle, here, positive, within⟩ :=
    Excerpt.exists_centre (Excerpt.lines_ne_nil source) line
  refine ⟨middle, here.symm, positive, within, ?_⟩
  intro first last
  let window := Excerpt.window lines line (2 : Nat)
  have length : window.length = last - first + 1 :=
    Excerpt.length_window here rfl positive within
  have shown : rows = window.map fun numbered =>
      Excerpt.row (decide (numbered.2 = middle)) numbered.2 numbered.1 :=
    Excerpt.lines_around here rfl positive within fun _ => Excerpt.lineFeed_not_mem_of_mem_lines
  have count : rows.length = window.length := by
    rw [shown, List.length_map]
  refine ⟨count.trans length, ?_⟩
  intro offset inside
  obtain ⟨least, most, text, found, listed⟩ :=
    Excerpt.getElem?_window here rfl positive within (count ▸ inside)
  refine ⟨least, most, _, text, ?_, found, Excerpt.readRow?_row _ _ _⟩
  rw [shown, List.getElem?_map, listed, Option.map_some]

/-- A line past the end of a source counts as the last one. -/
example : (Report.make .io [] (some (Bytes.ofString "lop\npol")) (some 9) none).excerpt =
    Bytes.ofString "     1 | lop\n>    2 | pol" := by
  decide +kernel

end WordTape
