import WordTape.Bytes
import WordTape.Text.Quoted

/-!
# Files

A path is a sequence of names, read without empty names and names for the place
itself. A file tree says what the names lead to, and looking a path up in it gives
the contents of a file or the reason why there is none.
-/

set_option autoImplicit false

namespace WordTape

structure Path where
  /-- The slashes that an absolute path starts with, none for a relative one. -/
  root : List Char
  /-- The names on the way, none of them empty or a single dot. -/
  names : List (List Char)
deriving DecidableEq, Repr

namespace Path

def isName (part : List Char) : Bool :=
  !part.isEmpty && part != ['.']

/-- The path that a text stands for. Exactly two slashes at the start are kept as
they are, and any other number of them counts as one. -/
def ofChars (text : List Char) : Path where
  root :=
    match text.takeWhile (· == '/') with
    | [] => []
    | ['/', '/'] => ['/', '/']
    | _ => ['/']
  names := (text.splitOn '/').filter isName

/-- The text of a path. The path without names is written as a dot. -/
def toChars (path : Path) : List Char :=
  if path.root.isEmpty && path.names.isEmpty then ['.']
  else path.root ++ ['/'].intercalate path.names

end Path

structure FileFault where
  code : Nat
  reason : String
deriving DecidableEq, Repr

namespace FileFault

def missing : FileFault := { code := 2, reason := "No such file or directory" }

/-- A name on the way leads to a file and is used as a directory. -/
def notDirectory : FileFault := { code := 20, reason := "Not a directory" }

def isDirectory : FileFault := { code := 21, reason := "Is a directory" }

/-- A name on the way, or the whole path, has too many bytes. -/
def nameTooLong : FileFault := { code := 36, reason := "File name too long" }

def description (fault : FileFault) (path : Path) : Bytes :=
  Bytes.ofString s!"[Errno {fault.code}] {fault.reason}: " ++
    Bytes.ofChars (Quoted.quote path.toChars)

end FileFault

inductive OpenError where
  | nullInPath
  | unreadable (path : Path) (fault : FileFault)
deriving DecidableEq, Repr

def OpenError.message : OpenError → Bytes
  | nullInPath => Bytes.ofString "embedded null byte"
  | unreadable path fault => fault.description path

/-- Files and directories, by their names from the current directory on. -/
structure FileTree where
  files : List (List (List Char) × Bytes) := []
  directories : List (List (List Char)) := []

namespace FileTree

inductive Place where
  | directory (names : List (List Char))
  /-- A directory so many levels above the tree. -/
  | above (levels : Nat)
  | root
  | file (contents : Bytes)

/-- Whether names lead to a directory: one that is listed, or one on the way to
something that is. -/
def isDirectory (tree : FileTree) (names : List (List Char)) : Bool :=
  tree.directories.any names.isPrefixOf ||
    tree.files.any fun (file, _) => names.isPrefixOf file && names != file

def nameLimit : Nat := 255

def pathLimit : Nat := 4095

def follow (tree : FileTree) (place : Place) (name : List Char) : Except FileFault Place :=
  match place with
  | .file _ => .error .notDirectory
  | .root => if name = ['.', '.'] then .ok .root else absent
  | .above levels => if name = ['.', '.'] then .ok (.above (levels + 1)) else absent
  | .directory names =>
      if name = ['.', '.'] then
        .ok (if names.isEmpty then .above 1 else .directory names.dropLast)
      else if nameLimit < (Bytes.ofChars name).length then .error .nameTooLong
      else enter (names ++ [name])
where
  /-- The answer at a place that is outside of the tree. -/
  absent : Except FileFault Place :=
    .error (if nameLimit < (Bytes.ofChars name).length then .nameTooLong else .missing)
  /-- The place of names that start in the current directory. -/
  enter (names : List (List Char)) : Except FileFault Place :=
    match tree.files.lookup names with
    | some contents => .ok (.file contents)
    | none => if tree.isDirectory names then .ok (.directory names) else .error .missing

def read (tree : FileTree) (path : Path) : Except FileFault Bytes :=
  let start := if path.root.isEmpty then Place.directory [] else Place.root
  if pathLimit < (Bytes.ofChars path.toChars).length then .error .nameTooLong
  else
    match path.names.foldlM (fun place name => tree.follow place name) start with
    | .error fault => .error fault
    | .ok (.file contents) => .ok contents
    | .ok (.directory _) | .ok (.above _) | .ok .root => .error .isDirectory

def readAt (tree : FileTree) (text : List Char) : Except OpenError Bytes :=
  if text.contains '\x00' then .error .nullInPath
  else
    let path := Path.ofChars text
    match tree.read path with
    | .ok contents => .ok contents
    | .error fault => .error (.unreadable path fault)

end FileTree

end WordTape
