import WordTape.Numeric.Decimal

/-!
# Cell dumps

A dump shows the first cells of a tape in rows. Each row has the index of its first
cell in five columns, and then the values in three columns each.
-/

set_option autoImplicit false

namespace WordTape.Dump

/-- The cells that a count selects from the start. A negative count leaves out that
many cells at the end. -/
def select (count : Int) (cells : List Int) : List Int :=
  if 0 ≤ count then cells.take count.toNat
  else cells.take (cells.length - (-count).toNat)

def row (index : Nat) (cells : List Int) : Bytes :=
  Bytes.padLeft 5 32 (Decimal.ofNat index) ++ Bytes.ofString ": " ++
    [32].intercalate (cells.map fun cell => Bytes.padLeft 3 32 (Decimal.ofInt cell))

/-- The rows of at most `more + 1` cells each, from an index on. -/
def rowsFrom (more index : Nat) : List Int → List Bytes
  | [] => []
  | first :: rest =>
      row index (first :: rest.take more) ::
        rowsFrom more (index + more + 1) (rest.drop more)
termination_by cells => cells.length
decreasing_by simp only [List.length_drop, List.length_cons]; omega

/-- The first cells in rows of the given length, or nothing if the length is zero. A
negative length gives no row. -/
def text? (cells : List Int) (count perRow : Int) : Option Bytes :=
  match perRow with
  | .ofNat 0 => none
  | .ofNat (more + 1) =>
      some ([Bytes.lineFeed].intercalate (rowsFrom more 0 (select count cells)))
  | .negSucc _ => some []

def zeroRowMessage : Bytes :=
  Bytes.ofString "range() arg 3 must not be zero"

def defaultPerRow : Nat := 8

/-- The first cells in rows of the default length. -/
def text (cells : List Int) (count : Nat) : Bytes :=
  (text? cells count defaultPerRow).getD []

/-- The default length is not zero, so that there always is such a text. -/
theorem text?_defaultPerRow (cells : List Int) (count : Nat) :
    text? cells count defaultPerRow = some (text cells count) := rfl

end WordTape.Dump
