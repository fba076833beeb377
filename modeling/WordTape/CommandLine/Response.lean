import WordTape.Brainfuck.Translation
import WordTape.CommandLine.Dump
import WordTape.CommandLine.Help
import WordTape.Files
import WordTape.Session
import WordTape.TapeSize

/-!
# Answers of the command line

What is written to the two output streams, and the exit code. Programs are run on
the tape size that was asked for, and messages show bytes that are not UTF-8 by
escapes.
-/

set_option autoImplicit false

namespace WordTape.CommandLine

structure Response where
  exitCode : Nat := 0
  output : Bytes := []
  diagnostics : Bytes := []
deriving DecidableEq, Repr

def line (text : Bytes) : Bytes :=
  text ++ [Bytes.lineFeed]

def helpResponse (part : Part) : Response where
  output := part.help

def refusal (part : Part) (error : UsageError) : Response where
  exitCode := 2
  diagnostics := error.report part

def isStandardInput (path : List Char) : Bool :=
  path == ['-']

def unreadable (path : Path) (fault : FileFault) : Response where
  exitCode := 1
  diagnostics :=
    line (Bytes.ofString "Couldn't read program: " ++ fault.description path)

def eventLine (event : Event) : Bytes :=
  line (Bytes.ofString "DEBUG trng.interpreter: " ++ event.message)

def elapsedLine (milliseconds : Bytes) : Bytes :=
  line (Bytes.ofString "INFO trng: Execution took " ++ milliseconds ++ Bytes.ofString " ms")

def errorLine (error : RunError) : Bytes :=
  line (Utf8.escapeIllFormed error.message)

def dumpLines (count : Nat) (tape : Tape) : Bytes :=
  if count = 0 then []
  else
    line (Bytes.ofString "\n================") ++
      line (Bytes.ofString "pointer: " ++ Decimal.ofInt tape.pointer) ++
      line (Dump.text (tape.cells.toList.map fun cell => (cell.toNat : Int)) count)

def exitCode (error : Option RunError) : Nat :=
  if error.isSome then 1 else 0

def runResponse (verbose : Bool) (dump : Nat) (milliseconds : Bytes) (run : SessionRun) :
    Response where
  exitCode := exitCode run.error?
  output := run.session.machine.device.output.text
  diagnostics :=
    (if verbose then run.session.machine.events.toList.flatMap eventLine else []) ++
      (match run.error? with
        | some error => errorLine error
        | none => []) ++
      (if verbose then elapsedLine milliseconds else []) ++
      dumpLines dump run.session.machine.device.tape

def translationResponse (program : Bytes) : Response :=
  match Brainfuck.translate (.contents program) with
  | .ok text => { output := line text }
  | .error (.reported report) =>
      { exitCode := 1, diagnostics := line (Utf8.escapeIllFormed report.message) }
  | .error (.foreignSource typeName) =>
      { exitCode := 1, diagnostics := line (SourceError.foreign typeName).message }

/-- Why a command line that is not refused has no answer. -/
inductive Breakdown where
  | nullInPath
  /-- The program was read, and there is no tape to run it on. -/
  | noTapeSize
deriving DecidableEq, Repr

/-- The answer to a command line where the files and the standard input are given. A
run dispatches at most as many instructions as the bound says. -/
def respond (bound : Nat) (milliseconds : Bytes) (files : FileTree) (standardInput : Bytes)
    (arguments : List (List Char)) : Except Breakdown Response :=
  let request := Request.ofArguments TapeSize.standard arguments
  let read (path : List Char) (answer : Bytes → Except Breakdown Response) :
      Except Breakdown Response :=
    if isStandardInput path then answer standardInput
    else
      match files.readAt path with
      | .ok program => answer program
      | .error .nullInPath => .error .nullInPath
      | .error (.unreadable path fault) => .ok (unreadable path fault)
  match request with
  | .help part => .ok (helpResponse part)
  | .refused part error => .ok (refusal part error)
  | .run verbose path tapeSize dump =>
      let remaining := if isStandardInput path then [] else standardInput
      read path fun program =>
        match tapeSize with
        | none => .error .noTapeSize
        | some size =>
            .ok <| runResponse verbose dump milliseconds <|
              (Session.start size (Input.ofBytes remaining.toArray) {}).run bound
                (.contents program)
  | .translate path => read path fun program => .ok (translationResponse program)

end WordTape.CommandLine
