/-!
# Byte strings

Programs, token values, messages and output are byte strings. A text is held by
its UTF-8 bytes, and bytes that are not UTF-8 are carried through unchanged.
-/

set_option autoImplicit false

namespace WordTape

abbrev Bytes := List UInt8

namespace Bytes

def ofChars (text : List Char) : Bytes :=
  text.flatMap String.utf8EncodeChar

def ofString (text : String) : Bytes :=
  ofChars text.toList

def lineFeed : UInt8 := 10

/-- The text with a fill byte put in front until it has the given width; a text
that is already as wide is unchanged. -/
def padLeft (width : Nat) (fill : UInt8) (text : Bytes) : Bytes :=
  List.replicate (width - text.length) fill ++ text

def inQuotes (text : Bytes) : Bytes :=
  39 :: text ++ [39]

end Bytes

end WordTape
