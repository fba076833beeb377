import WordTape.Text.Excerpt
import WordTape.Tape.Fault

/-!
# Reports of failed runs

A report says what stopped a run. It has a kind, a description and, if the cause
has a place in the source, that place with an excerpt of the lines around it. Its
message puts these together and ends with a hint for most kinds.
-/

set_option autoImplicit false

namespace WordTape

/-- The text of a place: a line without a column is shown with a word for nothing,
and a column without a line is not shown. -/
def placeText (line column : Option Int) : Bytes :=
  match line with
  | none => []
  | some line =>
      Bytes.ofString " - ln: " ++ Decimal.ofInt line ++ Bytes.ofString ", col: " ++
        match column with
        | some column => Decimal.ofInt column
        | none => Bytes.ofString "None"

inductive ReportKind where
  | index
  | overflow
  | io
  | unknownToken
  | malformedOperand
  | loopStackUnderflow
deriving DecidableEq, Repr

namespace ReportKind

def ofFault : FaultKind → ReportKind
  | .index => .index
  | .overflow => .overflow
  | .io => .io

def hint? : ReportKind → Option String
  | index =>
      some "The pointer must stay on the tape. Check pfw/pbw distances, multi-byte widths and the tape size."
  | overflow => some "Cells hold values 0..255 and never wrap around."
  | io => none
  | unknownToken =>
      some "Mnemonics are case-sensitive (pfw, pbw, inc, dec, wrt, set, lop, pol, ...). Check the spelling."
  | malformedOperand =>
      some "pfw, pbw, inc, dec and the typed set instructions need a numeric operand. Example: inc 72"
  | loopStackUnderflow => some "Every 'pol' needs an earlier 'lop'."

end ReportKind

structure Report where
  kind : ReportKind
  description : Bytes
  line : Option Int := none
  column : Option Int := none
  excerpt : Bytes := []
deriving DecidableEq, Repr

namespace Report

/-- The report of a cause, with an excerpt if both the source and the line are known. -/
def make (kind : ReportKind) (description : Bytes) (source : Option Bytes)
    (line column : Option Int) : Report where
  kind := kind
  description := description
  line := line
  column := column
  excerpt :=
    match source, line with
    | some source, some line =>
        Excerpt.around (Excerpt.lines source) line Excerpt.reportRadius
    | _, _ => []

def ofFaultKind (kind : FaultKind) (description : Bytes) (source : Option Bytes)
    (line column : Option Int) : Report :=
  make (.ofFault kind) (kind.message description) source line column

def ofFault (fault : Fault) : Report :=
  ofFaultKind fault.kind fault.description none none none

def message (report : Report) : Bytes :=
  Bytes.ofString "Interpreter Error: " ++ report.description ++
    placeText report.line report.column ++
    (if report.excerpt.isEmpty then [] else Bytes.lineFeed :: report.excerpt) ++
    match report.kind.hint? with
    | some hint => Bytes.ofString "\nHint: " ++ Bytes.ofString hint
    | none => []

end Report

end WordTape
