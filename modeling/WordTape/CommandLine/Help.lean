import WordTape.CommandLine.Arguments

/-!
# Usage and help

The texts that explain the command line, and the words for what is wrong with one.
-/

set_option autoImplicit false

namespace WordTape.CommandLine

namespace Part

def title : Part → String
  | general => "trng"
  | run => "trng run"
  | translate => "trng translate"

def usage : Part → String
  | general => "usage: trng [-h] [-v] \x7brun,translate\x7d ...\n"
  | run => "usage: trng run [-h] [--tape-size TAPE_SIZE] [--dump N] file\n"
  | translate => "usage: trng translate [-h] file\n"

def explanation : Part → List String
  | general =>
      ["TRNG interpreter - Brainfuck's pretty sister.",
        "",
        "positional arguments:",
        "  \x7brun,translate\x7d",
        "    run            Execute a TRNG program",
        "    translate      Translate a TRNG program to Brainfuck",
        "",
        "options:",
        "  -h, --help       show this help message and exit",
        "  -v, --verbose    Enable debug logging"]
  | run =>
      ["positional arguments:",
        "  file                  TRNG source file ('-' reads stdin)",
        "",
        "options:",
        "  -h, --help            show this help message and exit",
        "  --tape-size TAPE_SIZE",
        "                        Number of tape cells (default 30000)",
        "  --dump N              Print the pointer and the first N cells to stderr",
        "                        after the run"]
  | translate =>
      ["positional arguments:",
        "  file        TRNG source file ('-' reads stdin)",
        "",
        "options:",
        "  -h, --help  show this help message and exit"]

def help (part : Part) : Bytes :=
  Bytes.ofString part.usage ++
    ("" :: part.explanation).flatMap fun line => Bytes.ofString line ++ [Bytes.lineFeed]

end Part

namespace UsageError

def aboutOption (option : OptionKey) (text : Bytes) : Bytes :=
  Bytes.ofString "argument " ++ Bytes.ofString option.label ++ Bytes.ofString ": " ++ text

def integerName : OptionKey → String
  | .tapeSize => "_positive_int"
  | .dump | .help | .verbose => "_non_negative_int"

def rangeName : OptionKey → String
  | .tapeSize => "must be positive"
  | .dump | .help | .verbose => "must not be negative"

def message : UsageError → Bytes
  | ambiguous argument candidates =>
      Bytes.ofString "ambiguous option: " ++ Bytes.ofChars argument ++
        Bytes.ofString " could match " ++
        (Bytes.ofString ", ").intercalate (candidates.map Bytes.ofChars)
  | ignoredValue option value =>
      aboutOption option <|
        Bytes.ofString "ignored explicit argument " ++ Bytes.ofChars (Quoted.quote value)
  | missingValue option => aboutOption option (Bytes.ofString "expected one argument")
  | notInteger option value =>
      aboutOption option <|
        Bytes.ofString "invalid " ++ Bytes.ofString (integerName option) ++
          Bytes.ofString " value: " ++ Bytes.ofChars (Quoted.quote value)
  | outOfRange option value =>
      aboutOption option <|
        Bytes.ofString (rangeName option) ++ Bytes.ofString ", got " ++ Decimal.ofInt value
  | missingCommand => Bytes.ofString "the following arguments are required: command"
  | unknownCommand name =>
      Bytes.ofString "argument command: invalid choice: " ++
        Bytes.ofChars (Quoted.quote name) ++
        Bytes.ofString " (choose from 'run', 'translate')"
  | missingFile => Bytes.ofString "the following arguments are required: file"
  | unrecognized arguments =>
      Bytes.ofString "unrecognized arguments: " ++
        (Bytes.ofString " ").intercalate (arguments.map Bytes.ofChars)

def report (part : Part) (error : UsageError) : Bytes :=
  Bytes.ofString part.usage ++ Bytes.ofString part.title ++ Bytes.ofString ": error: " ++
    error.message ++ [Bytes.lineFeed]

end UsageError

end WordTape.CommandLine
