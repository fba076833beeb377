import WordTape.CommandLine.Response

/-!
# The program

Reads the arguments, the program and the standard input, and writes the answer.
While a program runs, its output and log appear after every slice of instructions,
so that a program that never ends can be watched.
-/

set_option autoImplicit false

namespace WordTape.CommandLine

def writeBytes (stream : IO.FS.Stream) (bytes : Bytes) : IO Unit := do
  unless bytes.isEmpty do
    stream.write (ByteArray.mk bytes.toArray)
    stream.flush

/-- The number of instructions between two looks at the output. -/
def sliceLength : Nat := 100000

/-- The number of an error of the operating system, which may come negated. -/
def errorNumber (code : UInt32) : Nat :=
  if code < 0x80000000 then code.toNat else (0 - code).toNat

def faultOfCode (code : UInt32) (details : String) : FileFault :=
  let number := errorNumber code
  let known : List FileFault :=
    [.missing, .notDirectory, .isDirectory, .nameTooLong,
      { code := 13, reason := "Permission denied" }]
  (known.find? fun fault => fault.code = number).getD { code := number, reason := details }

def faultOf : IO.Error → FileFault
  | .noFileOrDirectory .. => .missing
  | .inappropriateType _ code details | .permissionDenied _ code details
  | .resourceExhausted _ code details | .invalidArgument _ code details =>
      faultOfCode code details
  | .otherError code details => faultOfCode code details
  | error => { code := 5, reason := toString error }

def readFile (text : List Char) : IO (Except OpenError Bytes) := do
  if text.contains '\x00' then return .error .nullInPath
  let path := Path.ofChars text
  match ← (IO.FS.readBinFile (String.ofList path.toChars)).toBaseIO with
  | .ok contents => return .ok contents.toList
  | .error error => return .error (.unreadable path (faultOf error))

def readStandardInput : IO ByteArray := do
  (← IO.getStdin).readBinToEnd

def readProgram (path : List Char) : IO (Except OpenError Bytes) := do
  if isStandardInput path then return .ok (← readStandardInput).toList
  readFile path

def readsInput (tokens : Array Token) : Bool :=
  tokens.any fun token =>
    token.kind = .instruction .readByte || token.kind = .instruction .readLine

/-- Writes what a machine has put out since the last time, and forgets it. -/
def publish (verbose : Bool) (session : Session) : IO Session := do
  let machine := session.machine
  writeBytes (← IO.getStdout) machine.device.output.text
  if verbose then
    writeBytes (← IO.getStderr) (machine.events.toList.flatMap eventLine)
  let device := { machine.device with output := { machine.device.output with chunks := #[] } }
  return { session with machine := { machine with device, events := #[] } }

partial def runSlices (verbose : Bool) (program : Bytes) (position : Nat)
    (session : Session) : IO SessionRun := do
  match session.resume sliceLength program position with
  | .suspended session position =>
      runSlices verbose program position (← publish verbose session)
  | .completed session => return .completed (← publish verbose session)
  | .failed session error => return .failed (← publish verbose session) error

/-- A number of nanoseconds as milliseconds with two decimal places. -/
def milliseconds (nanoseconds : Nat) : Bytes :=
  let hundredths := roundHalfEven nanoseconds 10000
  Decimal.ofNat (hundredths / 100) ++ Bytes.ofString "." ++
    Bytes.padLeft 2 48 (Decimal.ofNat (hundredths % 100))

def writeResponse (response : Response) : IO UInt32 := do
  writeBytes (← IO.getStdout) response.output
  writeBytes (← IO.getStderr) response.diagnostics
  return UInt32.ofNat response.exitCode

def withProgram (path : List Char) (answer : Bytes → IO UInt32) : IO UInt32 := do
  match ← readProgram path with
  | .ok program => answer program
  | .error (.unreadable path fault) => writeResponse (unreadable path fault)
  | .error .nullInPath =>
      writeResponse
        { exitCode := 1, diagnostics := line OpenError.nullInPath.message }

def answer (arguments : List String) : IO UInt32 := do
  match Request.ofArguments TapeSize.standard (arguments.map String.toList) with
  | .help part => writeResponse (helpResponse part)
  | .refused part error => writeResponse (refusal part error)
  | .translate path =>
      withProgram path fun program => writeResponse (translationResponse program)
  | .run _ path none _ =>
      withProgram path fun _ =>
        writeResponse
          { exitCode := 1, diagnostics := line (Bytes.ofString "the tape has no size") }
  | .run verbose path (some size) dump =>
      withProgram path fun program => do
        let loaded := (Session.start size (Input.ofBytes #[]) {}).load program
        let input ←
          if readsInput loaded.tokens && !isStandardInput path then readStandardInput
          else pure ByteArray.empty
        let device := { loaded.machine.device with input := Input.ofBytes input.data }
        let session := { loaded with machine := { loaded.machine with device } }
        let start ← IO.monoNanosNow
        let run ← runSlices verbose program 0 session
        let elapsed := (← IO.monoNanosNow) - start
        writeResponse (runResponse verbose dump (milliseconds elapsed) run)

end WordTape.CommandLine

def main (arguments : List String) : IO UInt32 :=
  WordTape.CommandLine.answer arguments
