import WordTape.Files
import WordTape.Session

/-!
# Programs in files

A run of a program that was looked up by its path. A file that cannot be read is
reported like a program that cannot be read, in the words of the file system.
-/

set_option autoImplicit false

namespace WordTape.Session

def unreadableFile (path : Path) (fault : FileFault) : Report :=
  .make .io (fault.description path) none none none

/-- Runs the program that was looked up, if there is one. A path that no file can have
is an error of its own. -/
def runOpened (bound : Nat) (program : Except OpenError Bytes) (session : Session) :
    Except OpenError SessionRun :=
  match program with
  | .ok contents => .ok (session.run bound (.contents contents))
  | .error (.unreadable path fault) =>
      .ok (.failed session (.reported (unreadableFile path fault)))
  | .error .nullInPath => .error .nullInPath

end WordTape.Session
