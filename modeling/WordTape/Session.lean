import WordTape.Machine
import WordTape.Source
import WordTape.Text.Utf8
import WordTape.Token.Lexer

/-!
# Sessions

A session runs programs one after another on the same tape and streams. Each run
starts with no open loop; the tape and the streams are as the last run left them.
A run flushes the output at its end, also after a fault.
-/

set_option autoImplicit false

namespace WordTape

structure Session where
  machine : Machine
  tokens : Array Token := #[]

inductive RunError where
  | reported (report : Report)
  | foreignSource (typeName : String)
  | codec (error : CodecError)
deriving DecidableEq, Repr

namespace RunError

def message : RunError → Bytes
  | reported report => report.message
  | foreignSource typeName => (SourceError.foreign typeName).message
  | codec error => error.message

end RunError

inductive SessionRun where
  | completed (session : Session)
  | failed (session : Session) (error : RunError)
  | suspended (session : Session) (position : Nat)

namespace SessionRun

def session : SessionRun → Session
  | completed session => session
  | failed session _ => session
  | suspended session _ => session

def error? : SessionRun → Option RunError
  | failed _ error => some error
  | completed _ | suspended _ _ => none

end SessionRun

namespace Session

def start (size : Nat) (input : Input) (output : Output) : Session where
  machine := { device := { tape := .blank size, input, output } }

/-- Zeroes the tape and forgets the last run. -/
def reset : Session → Session
  | { machine := { device := { tape, input, output }, loops := _, index := _, events }
      tokens := _ } =>
      { machine :=
          { device := { tape := tape.reset, input, output }
            events := events.push (.tapeReset tape.size) } }

/-- Takes the bytes of a program and forgets the loops of the last run. -/
def load (program : Bytes) : Session → Session
  | { machine := { device, loops := _, index := _, events }, tokens := _ } =>
      let tokens := Lexer.tokenize program
      { machine :=
          { device, events := events.push (.runStarted tokens.size device.tape.size) }
        tokens }

/-- Flushes the output at the end of a run. A flush that fails is reported in place
of what the run itself has come to, and without a place in the source. -/
def conclude (tokens : Array Token) (machine : Machine) (error? : Option RunError) :
    SessionRun :=
  match machine with
  | { device, loops, index, events } =>
      match device.flush with
      | .done device =>
          match error? with
          | some error => .failed { machine := { device, loops, index, events }, tokens } error
          | none =>
              .completed
                { machine :=
                    { device, loops, index
                      events := events.push (.runFinished loops.length) }
                  tokens }
      | .stopped device cause =>
          let error := match cause with
            | .fault fault => .reported (.ofFault fault)
            | .codec error => .codec error
          .failed { machine := { device, loops, index, events }, tokens } error

def resume (bound : Nat) (program : Bytes) (position : Nat) : Session → SessionRun
  | { machine, tokens } =>
      match machine.execute tokens bound position with
      | .suspended position machine => .suspended { machine, tokens } position
      | .finished machine => conclude tokens machine none
      | .faulted machine fault =>
          conclude tokens machine <| some <|
            match fault.report (Utf8.replaceIllFormed program) with
            | .ok report => .reported report
            | .error error => .codec error

/-- Runs a source, dispatching at most as many instructions as the bound says. A
source that cannot be read changes nothing. -/
def run (bound : Nat) (source : Source) (session : Session) : SessionRun :=
  match source.read with
  | .error (.io reason) =>
      .failed session (.reported (.make .io reason none none none))
  | .error (.foreign typeName) => .failed session (.foreignSource typeName)
  | .ok program => (session.load program).resume bound program 0

end Session

end WordTape
