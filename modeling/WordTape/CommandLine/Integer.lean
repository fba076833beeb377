import WordTape.Numeric.Literal
import WordTape.Text.DecimalDigit

/-!
# Integers on the command line

An integer is written with digits of any script and an optional sign. Single
underscores may stand between digits, and blanks around the whole.
-/

set_option autoImplicit false

namespace WordTape.CommandLine

/-- Whether a character is a blank: ASCII white space, or a space or line separator
beyond ASCII. -/
def isBlank (character : Char) : Bool :=
  let code := character.toNat
  9 ≤ code && code ≤ 13 || code = 32 || code = 0x85 || code = 0xA0 || code = 0x1680 ||
    0x2000 ≤ code && code ≤ 0x200A || code = 0x2028 || code = 0x2029 || code = 0x202F ||
    code = 0x205F || code = 0x3000

def strip (text : List Char) : List Char :=
  ((text.dropWhile isBlank).reverse.dropWhile isBlank).reverse

def digitValues? : List Char → Option (List Nat)
  | [] => none
  | [last] => (DecimalDigit.value? last).map ([·])
  | digit :: '_' :: rest => do
      let value ← DecimalDigit.value? digit
      let values ← digitValues? rest
      pure (value :: values)
  | digit :: rest => do
      let value ← DecimalDigit.value? digit
      let values ← digitValues? rest
      pure (value :: values)

def magnitude? (text : List Char) : Option Nat := do
  let values ← digitValues? text
  if Literal.digitLimit < values.length then none
  else pure (values.foldl (fun total value => 10 * total + value) 0)

def integer? (text : List Char) : Option Int :=
  match strip text with
  | '+' :: digits => (magnitude? digits).map fun magnitude => (magnitude : Int)
  | '-' :: digits => (magnitude? digits).map fun magnitude => -(magnitude : Int)
  | digits => (magnitude? digits).map fun magnitude => (magnitude : Int)

end WordTape.CommandLine
