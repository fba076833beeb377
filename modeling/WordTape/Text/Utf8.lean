import WordTape.Bytes

/-!
# UTF-8 with ill-formed parts

`Utf8.pieces` splits a byte string into well-formed characters and maximal
ill-formed subparts, the division that Unicode recommends for substitution. A
text is decoded with a replacement character for each ill-formed piece, or shown
with an escape for each ill-formed byte.
-/

set_option autoImplicit false

namespace WordTape.Utf8

inductive Piece where
  | char (bytes : Bytes)
  /-- A maximal subpart of a character that is not completed. -/
  | illFormed (bytes : Bytes)
deriving DecidableEq, Repr

def Piece.bytes : Piece → Bytes
  | .char bytes => bytes
  | .illFormed bytes => bytes

/-- What a lead byte asks for: the range of the second byte and the number of
further continuation bytes after it. A lead byte of no character has none. -/
def follow? (lead : UInt8) : Option (UInt8 × UInt8 × Nat) :=
  if 0xC2 ≤ lead ∧ lead ≤ 0xDF then some (0x80, 0xBF, 0)
  else if lead = 0xE0 then some (0xA0, 0xBF, 1)
  else if lead = 0xED then some (0x80, 0x9F, 1)
  else if 0xE1 ≤ lead ∧ lead ≤ 0xEF then some (0x80, 0xBF, 1)
  else if lead = 0xF0 then some (0x90, 0xBF, 2)
  else if 0xF1 ≤ lead ∧ lead ≤ 0xF3 then some (0x80, 0xBF, 2)
  else if lead = 0xF4 then some (0x80, 0x8F, 2)
  else none

/-- Reads the given number of continuation bytes after the bytes already taken.
The rest is what was not read. -/
def continuation (taken : Bytes) : Nat → Bytes → Piece × Bytes
  | 0, rest => (.char taken, rest)
  | _ + 1, [] => (.illFormed taken, [])
  | count + 1, byte :: rest =>
      if 0x80 ≤ byte ∧ byte ≤ 0xBF then continuation (taken ++ [byte]) count rest
      else (.illFormed taken, byte :: rest)

def piece (lead : UInt8) (rest : Bytes) : Piece × Bytes :=
  if lead < 0x80 then (.char [lead], rest)
  else
    match follow? lead, rest with
    | some (low, high, more), second :: tail =>
        if low ≤ second ∧ second ≤ high then continuation [lead, second] more tail
        else (.illFormed [lead], rest)
    | _, _ => (.illFormed [lead], rest)

theorem length_continuation (taken : Bytes) (count : Nat) (rest : Bytes) :
    (continuation taken count rest).2.length ≤ rest.length := by
  induction rest generalizing taken count with
  | nil => cases count <;> simp [continuation]
  | cons byte rest ih =>
      cases count with
      | zero => simp [continuation]
      | succ count =>
          simp only [continuation]
          split
          · exact Nat.le_succ_of_le (ih _ _)
          · exact Nat.le_refl _

theorem length_piece (lead : UInt8) (rest : Bytes) :
    (piece lead rest).2.length ≤ rest.length := by
  simp only [piece]
  split
  · exact Nat.le_refl _
  · split
    · split
      · exact Nat.le_succ_of_le (length_continuation _ _ _)
      · exact Nat.le_refl _
    · exact Nat.le_refl _

def piecesFrom (found : Array Piece) : Bytes → Array Piece
  | [] => found
  | lead :: rest => piecesFrom (found.push (piece lead rest).1) (piece lead rest).2
termination_by text => text.length
decreasing_by exact Nat.lt_succ_of_le (length_piece lead rest)

def pieces (text : Bytes) : List Piece :=
  (piecesFrom #[] text).toList

def replacement : Bytes := [0xEF, 0xBF, 0xBD]

/-- The text with each ill-formed piece replaced by U+FFFD. -/
def replaceIllFormed (text : Bytes) : Bytes :=
  (pieces text).flatMap fun
    | .char bytes => bytes
    | .illFormed _ => replacement

def hexDigits (byte : UInt8) : Bytes :=
  let digit (value : UInt8) : UInt8 := if value < 10 then 48 + value else 87 + value
  [digit (byte / 16), digit (byte % 16)]

/-- The text with each byte of an ill-formed piece written as the escape of the
lone surrogate that stands for it: a backslash, `udc` and two digits. -/
def escapeIllFormed (text : Bytes) : Bytes :=
  (pieces text).flatMap fun
    | .char bytes => bytes
    | .illFormed bytes => bytes.flatMap fun byte => Bytes.ofString "\\udc" ++ hexDigits byte

theorem bytes_continuation (taken : Bytes) (count : Nat) (rest : Bytes) :
    (continuation taken count rest).1.bytes ++ (continuation taken count rest).2 =
      taken ++ rest := by
  induction rest generalizing taken count with
  | nil => cases count <;> simp [continuation, Piece.bytes]
  | cons byte rest ih =>
      cases count with
      | zero => simp [continuation, Piece.bytes]
      | succ count =>
          simp only [continuation]
          split
          · rw [ih]; simp
          · rfl

theorem bytes_piece (lead : UInt8) (rest : Bytes) :
    (piece lead rest).1.bytes ++ (piece lead rest).2 = lead :: rest := by
  simp only [piece]
  split
  · rfl
  · split
    · split
      · rw [bytes_continuation]; rfl
      · rfl
    · rfl

theorem flatMap_bytes_pieces (text : Bytes) : (pieces text).flatMap Piece.bytes = text := by
  have continued : ∀ found : Array Piece,
      (piecesFrom found text).toList.flatMap Piece.bytes =
        found.toList.flatMap Piece.bytes ++ text := by
    intro found
    fun_induction piecesFrom found text with
    | case1 found => simp
    | case2 found lead rest ih =>
        rw [ih, Array.toList_push, List.flatMap_append, List.append_assoc]
        simp only [List.flatMap_cons, List.flatMap_nil, List.append_nil]
        rw [bytes_piece]
  simpa [pieces] using continued #[]

end WordTape.Utf8
