import WordTape.Bytes

/-!
# Sources of programs

A program is given as its bytes, or as something that may fail to deliver them.
-/

set_option autoImplicit false

namespace WordTape

inductive Source where
  /-- The bytes of a program, or a text by its UTF-8 bytes. -/
  | contents (bytes : Bytes)
  | unreadable (reason : Bytes)
  /-- An object that holds no program at all, named by what it is. -/
  | foreign (typeName : String)
deriving DecidableEq, Repr

inductive SourceError where
  | io (reason : Bytes)
  | foreign (typeName : String)
deriving DecidableEq, Repr

namespace SourceError

def message : SourceError → Bytes
  | io reason => reason
  | foreign typeName => Bytes.ofString "Cannot read TRNG source from " ++ Bytes.ofString typeName

end SourceError

def Source.read : Source → Except SourceError Bytes
  | contents bytes => .ok bytes
  | unreadable reason => .error (.io reason)
  | foreign typeName => .error (.foreign typeName)

end WordTape
