import WordTape.Token

/-!
# Splitting a source into tokens

The tokens of a source are its maximal runs of bytes that are not blank. What a
token is depends on the whole run for mnemonics, and else on its first byte read
as a Latin-1 character.
-/

set_option autoImplicit false

namespace WordTape.Lexer

/-- The blank bytes: the Latin-1 characters that are white space. -/
def isBlank (byte : UInt8) : Bool :=
  9 ≤ byte && byte ≤ 13 || byte = 32 || byte = 0x85 || byte = 0xA0

def isLetter (byte : UInt8) : Bool :=
  65 ≤ byte && byte ≤ 90 || 97 ≤ byte && byte ≤ 122 ||
    byte = 0xAA || byte = 0xB5 || byte = 0xBA ||
    0xC0 ≤ byte && byte ≠ 0xD7 && byte ≠ 0xF7

/-- The Latin-1 digits, superscripts and fractions. -/
def isNumeric (byte : UInt8) : Bool :=
  Decimal.isDigit byte || byte = 0xB2 || byte = 0xB3 || byte = 0xB9 ||
    0xBC ≤ byte && byte ≤ 0xBE

def isPunctuation (byte : UInt8) : Bool :=
  33 ≤ byte && byte ≤ 47 || 58 ≤ byte && byte ≤ 64 ||
    91 ≤ byte && byte ≤ 96 || 123 ≤ byte && byte ≤ 126

def classify : Bytes → TokenKind
  | [] => .unknown
  | first :: rest =>
      if isLetter first then
        match Mnemonic.ofWord? (first :: rest) with
        | some mnemonic => .instruction mnemonic
        | none => .unknown
      else if isNumeric first || isPunctuation first then .number
      else .unknown

/-- The tokens found so far, followed by those of the rest of a source that starts
at a position. -/
def tokensFrom (found : Array Token) (position : Position) : Bytes → Array Token
  | [] => found
  | byte :: rest =>
      if isBlank byte then tokensFrom found (position.next byte) rest
      else
        let word := byte :: rest.takeWhile (!isBlank ·)
        tokensFrom (found.push { value := word, position, kind := classify word })
          (position.advance word) (rest.dropWhile (!isBlank ·))
termination_by text => text.length
decreasing_by
  · exact Nat.lt_succ_self _
  · exact Nat.lt_succ_of_le (List.dropWhile_sublist _).length_le

def tokenize (source : Bytes) : Array Token :=
  tokensFrom #[] .start source

end WordTape.Lexer
