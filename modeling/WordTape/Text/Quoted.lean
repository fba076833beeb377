import WordTape.Text.Printable

/-!
# Quoted texts

A text is quoted by single quotes, or by double quotes if it holds a single quote
and no double one. Inside, the quote itself, backslashes and characters that are
not printable are escaped.
-/

set_option autoImplicit false

namespace WordTape.Quoted

/-- The hexadecimal digits of a number in small letters, at least as many as given. -/
def hexadecimal (width number : Nat) : List Char :=
  let digits := Nat.toDigits 16 number
  List.replicate (width - digits.length) '0' ++ digits

def escape (quote character : Char) : List Char :=
  if character = quote || character = '\\' then ['\\', character]
  else if character = '\n' then ['\\', 'n']
  else if character = '\r' then ['\\', 'r']
  else if character = '\t' then ['\\', 't']
  else if Printable.isPrintable character then [character]
  else
    let code := character.toNat
    if code ≤ 0xFF then '\\' :: 'x' :: hexadecimal 2 code
    else if code ≤ 0xFFFF then '\\' :: 'u' :: hexadecimal 4 code
    else '\\' :: 'U' :: hexadecimal 8 code

def quoteFor (text : List Char) : Char :=
  if text.contains '\'' && !text.contains '"' then '"' else '\''

def quote (text : List Char) : List Char :=
  let mark := quoteFor text
  mark :: (text.flatMap (escape mark) ++ [mark])

end WordTape.Quoted
