import Mathlib.Algebra.Order.Floor.Div
import WordTape.CommandLine.Dump
import WordTape.Proofs.Numeric.Literal
import WordTape.Proofs.Text.Lines
import WordTape.Proofs.Token.Spacing

/-!
# Dumps are read back

A dump is read line by line: the word in front is the label of the row, and the words behind
it are the values of its cells. However wide labels and values are, this gives back the cells
that were to be shown, in their order, with the index of the first cell of each row.
-/

set_option autoImplicit false

namespace WordTape

/-- Reads a decimal number, perhaps with a sign. -/
def Decimal.toInt? (text : Bytes) : Option Int :=
  let (negative, digits) := Literal.splitSign true text
  if Literal.isDigitRun digits then
    some (if negative then -(Decimal.value digits : Nat) else (Decimal.value digits : Nat))
  else none

theorem Decimal.toInt?_ofInt (number : Int) : toInt? (ofInt number) = some number := by
  have split : Literal.splitSign true (ofInt number) =
      (decide (number < 0), ofNat number.natAbs) := by
    rw [ofInt_eq]
    exact Figures.splitSign_signed _ fun _ => rfl
  rw [toInt?, split]
  simp only [isDigitRun_ofNat, ↓reduceIte, value_ofNat, Option.some.injEq, decide_eq_true_eq]
  split <;> omega

namespace Dump

/-! ## Reading -/

/-- Reads the label of a row: an index and a colon. -/
def readLabel? (word : Bytes) : Option Nat :=
  if word.getLast? = some 58 ∧ Literal.isDigitRun word.dropLast then
    some (Decimal.value word.dropLast)
  else none

/-- Reads a row: its label, and the values of its cells. -/
def readRow? (line : Bytes) : Option (Nat × List Int) :=
  match (Lexer.tokenize line).toList.map Token.value with
  | [] => none
  | label :: values =>
      match readLabel? label, values.mapM Decimal.toInt? with
      | some index, some cells => some (index, cells)
      | _, _ => none

/-- The lines of a dump. An empty text has none. -/
def lines (text : Bytes) : List Bytes :=
  if text = [] then [] else Excerpt.lines text

def read? (text : Bytes) : Option (List (Nat × List Int)) :=
  (lines text).mapM readRow?

/-! ## Rows -/

/-- The word that labels a row. -/
def label (index : Nat) : Bytes :=
  Decimal.ofNat index ++ [58]

private theorem isWord_label (index : Nat) : Lexer.IsWord (label index) where
  nonempty := List.append_ne_nil_of_right_ne_nil _ (List.cons_ne_nil _ _)
  solid := by
    intro byte member
    rcases List.mem_append.mp member with digit | colon
    · exact (Figures.of_isDigit (Decimal.isDigit_of_mem_ofNat digit)).1
    · rw [List.mem_singleton.mp colon]
      rfl

private theorem readLabel?_label (index : Nat) : readLabel? (label index) = some index := by
  simp [readLabel?, label, Decimal.isDigitRun_ofNat, Decimal.value_ofNat]

/-- Words with blanks between them, with the first one padded. -/
theorem laysOut_padLeft {words : List Bytes} {text rest : Bytes} (width : Nat)
    (spaced : Lexer.Spaced words (text ++ rest)) :
    Lexer.LaysOut words (Bytes.padLeft width 32 text ++ rest) := by
  have blank : Lexer.AllBlank (List.replicate (width - text.length) 32) := by
    intro byte member
    rw [List.eq_of_mem_replicate member]
    rfl
  rw [Bytes.padLeft, List.append_assoc]
  exact .intro blank spaced

theorem laysOut_values (cells : List Int) :
    Lexer.LaysOut (cells.map Decimal.ofInt)
      ([32].intercalate (cells.map fun cell => Bytes.padLeft 3 32 (Decimal.ofInt cell))) := by
  induction cells with
  | nil => exact @Lexer.LaysOut.intro [] [] [] nofun .none
  | cons cell rest ih =>
      cases rest with
      | nil =>
          have alone : Lexer.Spaced [Decimal.ofInt cell] (Decimal.ofInt cell ++ []) :=
            .last nofun
          simpa only [List.map_cons, List.map_nil, List.intercalate_singleton,
            List.append_nil] using laysOut_padLeft 3 alone
      | cons next rest =>
          have several := ih.spaced_cons (Decimal.ofInt cell)
          simpa only [List.map_cons, List.intercalate_cons_cons, List.append_assoc,
            List.singleton_append] using laysOut_padLeft 3 several

/-- A row is read as its index and its cells. -/
private theorem readRow?_row (index : Nat) (cells : List Int) :
    readRow? (row index cells) = some (index, cells) := by
  have areWords : ∀ word ∈ label index :: cells.map Decimal.ofInt, Lexer.IsWord word := by
    intro word member
    rcases List.mem_cons.mp member with rfl | member
    · exact isWord_label index
    · obtain ⟨cell, -, rfl⟩ := List.mem_map.mp member
      exact Decimal.isWord_ofInt cell
  have lays : Lexer.LaysOut (label index :: cells.map Decimal.ofInt) (row index cells) := by
    have spaced := (laysOut_values cells).spaced_cons (label index)
    rw [label, List.append_assoc] at spaced
    rw [row, List.append_assoc]
    exact laysOut_padLeft 5 spaced
  have words : (Lexer.tokenize (row index cells)).toList.map Token.value =
      label index :: cells.map Decimal.ofInt := by
    have viewed := congrArg (List.map Prod.fst) (Lexer.view_tokenize_of_laysOut lays areWords)
    simpa [Function.comp_def, Lexer.view] using viewed
  have values : (cells.map Decimal.ofInt).mapM Decimal.toInt? = some cells := by
    have each : Decimal.toInt? ∘ Decimal.ofInt = fun cell => pure (id cell) :=
      funext Decimal.toInt?_ofInt
    rw [List.mapM_map, each, List.mapM_pure, List.map_id]
    rfl
  rw [readRow?, words]
  simp only [readLabel?_label, values]

private theorem row_ne_nil (index : Nat) (cells : List Int) : row index cells ≠ [] := by
  have colon : Bytes.ofString ": " ≠ [] := by decide
  rw [row]
  exact List.append_ne_nil_of_left_ne_nil (List.append_ne_nil_of_right_ne_nil _ colon) _

private theorem lineFeed_not_mem_padLeft (width : Nat) {text : Bytes}
    (solid : Bytes.lineFeed ∉ text) :
    Bytes.lineFeed ∉ Bytes.padLeft width 32 text := by
  intro member
  rcases List.mem_append.mp member with blank | member
  · cases List.eq_of_mem_replicate blank
  · exact solid member

private theorem lineFeed_not_mem_intercalate {texts : List Bytes}
    (solid : ∀ text ∈ texts, Bytes.lineFeed ∉ text) :
    Bytes.lineFeed ∉ [32].intercalate texts := by
  induction texts with
  | nil => exact List.not_mem_nil
  | cons text rest ih =>
      have first : Bytes.lineFeed ∉ text := solid text List.mem_cons_self
      have others := ih fun other member => solid other (List.mem_cons_of_mem _ member)
      cases rest with
      | nil => rwa [List.intercalate_singleton]
      | cons next rest =>
          rw [List.intercalate_cons_cons, List.mem_append, List.mem_append]
          rintro ((member | blank) | member)
          · exact first member
          · cases List.mem_singleton.mp blank
          · exact others member

/-- A row is one line. -/
private theorem lineFeed_not_mem_row (index : Nat) (cells : List Int) :
    Bytes.lineFeed ∉ row index cells := by
  have digits : Bytes.lineFeed ∉ Decimal.ofNat index :=
    (Decimal.isWord_ofInt index).lineFeed_not_mem
  have values : ∀ text ∈ cells.map fun cell => Bytes.padLeft 3 32 (Decimal.ofInt cell),
      Bytes.lineFeed ∉ text := by
    intro text member
    obtain ⟨cell, -, rfl⟩ := List.mem_map.mp member
    exact lineFeed_not_mem_padLeft 3 (Decimal.isWord_ofInt cell).lineFeed_not_mem
  rw [row, List.mem_append, List.mem_append]
  rintro ((member | colon) | member)
  · exact lineFeed_not_mem_padLeft 5 digits member
  · exact absurd colon (by decide)
  · exact lineFeed_not_mem_intercalate values member

/-! ## Texts -/

private theorem lines_intercalate {rows : List Bytes} (nonempty : ∀ row ∈ rows, row ≠ [])
    (solid : ∀ row ∈ rows, Bytes.lineFeed ∉ row) :
    lines ([Bytes.lineFeed].intercalate rows) = rows := by
  cases rows with
  | nil => rfl
  | cons row rest =>
      have split := Excerpt.lines_intercalate (List.cons_ne_nil row rest) solid
      have written : [Bytes.lineFeed].intercalate (row :: rest) ≠ [] := by
        intro none
        rw [none] at split
        exact nonempty row List.mem_cons_self (List.cons.inj split).1.symm
      rw [lines, if_neg written, split]

private theorem lines_eq_nil_iff {text : Bytes} : lines text = [] ↔ text = [] := by
  rw [lines]
  split
  · rename_i empty
    exact iff_of_true rfl empty
  · rename_i written
    exact iff_of_false (Excerpt.lines_ne_nil text) written

/-- The cells of a row. -/
def stretch (perRow line : Nat) (cells : List Int) : List Int :=
  (cells.drop (line * perRow)).take perRow

private theorem ceilDiv_of_pos {count perRow : Nat} (positive : 0 < perRow) (nonempty : 0 < count) :
    count ⌈/⌉ perRow = (count - perRow) ⌈/⌉ perRow + 1 := by
  apply eq_of_forall_ge_iff
  intro bound
  cases bound with
  | zero =>
      rw [ceilDiv_le_iff_le_mul positive]
      omega
  | succ bound =>
      rw [Nat.add_le_add_iff_right, ceilDiv_le_iff_le_mul positive,
        ceilDiv_le_iff_le_mul positive, Nat.mul_succ, Nat.sub_le_iff_le_add]

/-- The rows from an index on, by their number. -/
private theorem rowsFrom_eq (more index : Nat) (cells : List Int) :
    rowsFrom more index cells =
      (List.range (cells.length ⌈/⌉ (more + 1))).map fun line =>
        row (index + line * (more + 1)) (stretch (more + 1) line cells) := by
  fun_induction rowsFrom more index cells with
  | case1 index => simp
  | case2 index first rest ih =>
      have count : (first :: rest).length ⌈/⌉ (more + 1) =
          (rest.drop more).length ⌈/⌉ (more + 1) + 1 := by
        rw [List.length_cons, List.length_drop, ceilDiv_of_pos (Nat.zero_lt_succ more)
          (Nat.zero_lt_succ rest.length), Nat.succ_sub_succ]
      have onward (line : Nat) : stretch (more + 1) (line + 1) (first :: rest) =
          stretch (more + 1) line (rest.drop more) := by
        have place : (line + 1) * (more + 1) = more + line * (more + 1) + 1 := by
          rw [Nat.succ_mul]
          omega
        rw [stretch, stretch, List.drop_drop, place, List.drop_succ_cons]
      have further (line : Nat) : index + more + 1 + line * (more + 1) =
          index + (line + 1) * (more + 1) := by
        rw [Nat.succ_mul]
        omega
      rw [ih, count, List.range_succ_eq_map, List.map_cons, List.map_map]
      simp only [Function.comp_def, Nat.succ_eq_add_one, onward, further]
      simp [stretch]

/-- The rows have all cells, and each of them once. -/
private theorem flatMap_stretch (perRow count : Nat) (cells : List Int) :
    ((List.range count).flatMap fun line => stretch perRow line cells) =
      cells.take (count * perRow) := by
  induction count with
  | zero => simp
  | succ count ih =>
      rw [List.range_succ, List.flatMap_append, ih, Nat.succ_mul, List.take_add]
      simp [stretch]

/-- A row that is not the last one is full. -/
private theorem length_stretch {perRow line : Nat} (positive : 0 < perRow) {cells : List Int}
    (before : line + 1 < cells.length ⌈/⌉ perRow) :
    (stretch perRow line cells).length = perRow := by
  have room : perRow * (line + 1) < cells.length := by
    rw [← Nat.not_le, ← ceilDiv_le_iff_le_mul positive]
    exact Nat.not_le.mpr before
  rw [stretch, List.length_take, List.length_drop]
  rw [Nat.mul_succ, Nat.mul_comm] at room
  omega

/-- The rows of a dump, each with the index of its first cell. -/
def table (perRow : Nat) (cells : List Int) : List (Nat × List Int) :=
  (List.range (cells.length ⌈/⌉ perRow)).map fun line =>
    (line * perRow, stretch perRow line cells)

private theorem length_table (perRow : Nat) (cells : List Int) :
    (table perRow cells).length = cells.length ⌈/⌉ perRow := by
  rw [table, List.length_map, List.length_range]

section

variable {perRow : Nat} (positive : 0 < perRow)

include positive

private theorem flatten_table (cells : List Int) :
    ((table perRow cells).map Prod.snd).flatten = cells := by
  have whole : cells.length ≤ cells.length ⌈/⌉ perRow * perRow := by
    rw [Nat.mul_comm, ← ceilDiv_le_iff_le_mul positive]
  rw [table, List.map_map, ← List.flatMap_def]
  exact (flatMap_stretch perRow _ cells).trans (List.take_of_length_le whole)

private theorem of_getElem?_table {cells row : List Int} {line index : Nat}
    (found : (table perRow cells)[line]? = some (index, row)) :
    index = line * perRow ∧ (line + 1 < (table perRow cells).length → row.length = perRow) := by
  rw [length_table]
  rw [table, List.getElem?_map, Option.map_eq_some_iff] at found
  obtain ⟨number, ranged, same⟩ := found
  obtain ⟨_, rfl⟩ := List.getElem?_eq_some_iff.mp ranged
  rw [List.getElem_range] at same
  cases same
  exact ⟨rfl, length_stretch positive⟩

/-- A dump is the rows of its table, one in each line. -/
theorem text?_eq (count : Nat) (cells : List Int) :
    text? cells count perRow =
      some ([Bytes.lineFeed].intercalate
        ((table perRow (cells.take count)).map fun labelled => row labelled.1 labelled.2)) := by
  obtain ⟨more, rfl⟩ := Nat.exists_eq_succ_of_ne_zero (Nat.ne_of_gt positive)
  have selected : select count cells = cells.take count := by
    simp [select]
  show some _ = some _
  rw [selected, rowsFrom_eq, table, List.map_map]
  simp only [Nat.zero_add]
  rfl

end

private theorem lines_rows (table : List (Nat × List Int)) :
    lines ([Bytes.lineFeed].intercalate
      (table.map fun labelled => row labelled.1 labelled.2)) =
        table.map fun labelled => row labelled.1 labelled.2 := by
  apply lines_intercalate
  · intro line member
    obtain ⟨⟨index, cells⟩, -, rfl⟩ := List.mem_map.mp member
    exact row_ne_nil index cells
  · intro line member
    obtain ⟨⟨index, cells⟩, -, rfl⟩ := List.mem_map.mp member
    exact lineFeed_not_mem_row index cells

private theorem mapM_readRow? (table : List (Nat × List Int)) :
    (table.map fun labelled => row labelled.1 labelled.2).mapM readRow? = some table := by
  have each : (readRow? ∘ fun labelled : Nat × List Int => row labelled.1 labelled.2) =
      fun labelled => pure (id labelled) :=
    funext fun labelled => readRow?_row labelled.1 labelled.2
  rw [List.mapM_map, each, List.mapM_pure, List.map_id]
  rfl

/-- A dump reads back as its table. -/
theorem read?_of_text? {perRow : Nat} (positive : 0 < perRow) {count : Nat} {cells : List Int}
    {text : Bytes} (written : text? cells count perRow = some text) :
    read? text = some (table perRow (cells.take count)) := by
  rw [text?_eq positive] at written
  cases written
  rw [read?, lines_rows, mapM_readRow?]

/-- What the command line shows of the cells reads back as the first cells in rows of the default
length. -/
theorem read?_text (cells : List Int) (count : Nat) :
    read? (text cells count) = some (table defaultPerRow (cells.take count)) :=
  read?_of_text? (by decide) (text?_defaultPerRow cells count)

private theorem ceilDiv_eq_zero {count perRow : Nat} (positive : 0 < perRow) :
    count ⌈/⌉ perRow = 0 ↔ count = 0 := by
  rw [← Nat.le_zero, ceilDiv_le_iff_le_mul positive, Nat.mul_zero, Nat.le_zero]

end Dump

/-- A dump with rows of a positive length reads back, line by line, as the first cells in their
order. Each line is labelled with the index of its first cell, and each but the last is full. -/
theorem dump_reads_back (cells : List Int) (count perRow : Nat) (positive : 0 < perRow) :
    let shown := min count cells.length
    ∃ text table, Dump.text? cells count perRow = some text ∧ Dump.read? text = some table ∧
      (shown = 0 ↔ text = []) ∧
      (Dump.lines text).length = shown ⌈/⌉ perRow ∧ table.length = shown ⌈/⌉ perRow ∧
      (∀ line index row, table[line]? = some (index, row) →
        index = line * perRow ∧ (line + 1 < table.length → row.length = perRow)) ∧
      (table.map Prod.snd).flatten = cells.take shown := by
  intro shown
  let table := Dump.table perRow (cells.take count)
  have lines := Dump.lines_rows table
  have length : table.length = shown ⌈/⌉ perRow := by
    rw [Dump.length_table, List.length_take]
  have all : cells.take count = cells.take shown := by
    rw [List.take_eq_take_min]
  have written := Dump.text?_eq positive count cells
  refine ⟨_, table, written, Dump.read?_of_text? positive written, ?_, ?_, length, ?_, ?_⟩
  · rw [← Dump.ceilDiv_eq_zero positive, ← length, List.length_eq_zero_iff,
      ← Dump.lines_eq_nil_iff, lines, List.map_eq_nil_iff]
  · rw [lines, List.length_map, length]
  · intro line index row found
    exact Dump.of_getElem?_table positive found
  · rw [← all]
    exact Dump.flatten_table positive (cells.take count)

theorem wide_cells_read_back :
    0 < 2 ∧ ∃ text table, Dump.text? [7, 1000, -5, 255, 3] 9 2 = some text ∧
      Dump.read? text = some table ∧ (Dump.lines text).length = 3 ∧
      (∀ line index row, table[line]? = some (index, row) →
        index = line * 2 ∧ (line + 1 < table.length → row.length = 2)) ∧
      (table.map Prod.snd).flatten = [7, 1000, -5, 255, 3] := by
  have positive : 0 < 2 := by decide
  obtain ⟨text, table, written, read, -, count, -, rows, flattened⟩ :=
    dump_reads_back [7, 1000, -5, 255, 3] 9 2 positive
  exact ⟨positive, text, table, written, read, count, rows, flattened⟩

example : (Dump.text? [7, 1000, -5, 255, 3] 9 2).bind Dump.read? =
    some [(0, [7, 1000]), (2, [-5, 255]), (4, [3])] := by decide +kernel

end WordTape
