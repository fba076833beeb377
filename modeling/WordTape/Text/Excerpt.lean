import WordTape.Numeric.Decimal

/-!
# Excerpts of a source

The lines of a text are what stands between its line feeds. An excerpt shows the
lines around a given one, each after its number, with the given line marked.
-/

set_option autoImplicit false

namespace WordTape.Excerpt

/-- The lines of a text, split at line feeds only. -/
def lines (text : Bytes) : List Bytes :=
  text.splitOn Bytes.lineFeed

/-- A line of an excerpt: a mark or a blank, the line number in four columns, and
the line itself. -/
def row (marked : Bool) (number : Nat) (line : Bytes) : Bytes :=
  (if marked then Bytes.ofString "> " else Bytes.ofString "  ") ++
    Bytes.padLeft 4 32 (Decimal.ofNat number) ++ Bytes.ofString " | " ++ line

/-- The line number that an excerpt is centred on: the given one, or the nearest
that the text has. -/
def centre (count : Nat) (line : Int) : Int :=
  min (max 1 line) count

def window (lines : List Bytes) (line radius : Int) : List (Bytes × Nat) :=
  let centre := centre lines.length line
  (lines.zipIdx 1).filter fun (_, number) =>
    decide (centre - radius ≤ number) && decide ((number : Int) ≤ centre + radius)

/-- The rows around a line. A line number outside the text counts as the nearest
one inside, and an empty list of lines has an empty excerpt. -/
def around (lines : List Bytes) (line : Int) (radius : Int) : Bytes :=
  [Bytes.lineFeed].intercalate <| (window lines line radius).map fun (text, number) =>
    row (decide ((number : Int) = centre lines.length line)) number text

def reportRadius : Int := 2

end WordTape.Excerpt
