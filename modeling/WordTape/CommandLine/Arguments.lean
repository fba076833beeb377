import WordTape.CommandLine.Integer
import WordTape.Text.Quoted

/-!
# Reading command-line arguments

The command line has a general part and one part for each command, each with its
own options. All arguments of a part are first sorted into options, operands and
the separator after which everything is an operand; then they are read from left to
right. Long options may be shortened and may hold their value after an equals sign,
and short ones may be written together.
-/

set_option autoImplicit false

namespace WordTape.CommandLine

inductive Part where
  | general
  | run
  | translate
deriving DecidableEq, Repr

inductive OptionKey where
  | help
  | verbose
  | tapeSize
  | dump
deriving DecidableEq, Repr

namespace OptionKey

def label : OptionKey → String
  | help => "-h/--help"
  | verbose => "-v/--verbose"
  | tapeSize => "--tape-size"
  | dump => "--dump"

def takesValue : OptionKey → Bool
  | help | verbose => false
  | tapeSize | dump => true

end OptionKey

/-- The spellings of the options of a part, in the order in which they are declared. -/
def Part.options : Part → List (List Char × OptionKey)
  | general =>
      [("-h".toList, .help), ("--help".toList, .help), ("-v".toList, .verbose),
        ("--verbose".toList, .verbose)]
  | run =>
      [("-h".toList, .help), ("--help".toList, .help), ("--tape-size".toList, .tapeSize),
        ("--dump".toList, .dump)]
  | translate => [("-h".toList, .help), ("--help".toList, .help)]

inductive UsageError where
  /-- A shortened option could be any of several. -/
  | ambiguous (argument : List Char) (candidates : List (List Char))
  | ignoredValue (option : OptionKey) (value : List Char)
  | missingValue (option : OptionKey)
  | notInteger (option : OptionKey) (value : List Char)
  | outOfRange (option : OptionKey) (value : Int)
  | missingCommand
  | unknownCommand (name : List Char)
  | missingFile
  | unrecognized (arguments : List (List Char))
deriving DecidableEq, Repr

inductive Item where
  | operand (text : List Char)
  /-- The mark after which all arguments are operands. -/
  | separator
  /-- An option, with what is attached to it in the same argument. It is short if a
  single dash stands before it. -/
  | option (key : OptionKey) (isShort : Bool) (attached : Option (List Char))
  /-- What looks like an option and is none. -/
  | unknown (text : List Char)
deriving DecidableEq, Repr

def isShortSpelling (spelling : List Char) : Bool :=
  !"--".toList.isPrefixOf spelling

def Item.ofSpelling (spelling : List Char) (key : OptionKey)
    (attached : Option (List Char)) : Item :=
  .option key (isShortSpelling spelling) attached

def splitEquals (text : List Char) : List Char × Option (List Char) :=
  match text.span (· != '=') with
  | (before, []) => (before, none)
  | (before, _ :: after) => (before, some after)

/-- The options that an argument can be short for, each with its spelling. -/
def abbreviated (options : List (List Char × OptionKey)) (argument : List Char) :
    List (List Char × Item) :=
  if isShortSpelling argument then
    options.filterMap fun (spelling, key) =>
      if spelling == argument.take 2 then
        some (spelling, .ofSpelling spelling key (some (argument.drop 2)))
      else if argument.isPrefixOf spelling then
        some (spelling, .ofSpelling spelling key none)
      else none
  else
    let (before, after) := splitEquals argument
    options.filterMap fun (spelling, key) =>
      if before.isPrefixOf spelling then some (spelling, .ofSpelling spelling key after)
      else none

def isDigits (text : List Char) : Bool :=
  text.all fun character => (DecimalDigit.value? character).isSome

/-- Whether an argument is a negative number: a dash and digits, which may have a point
among them but not at their end. A line feed may follow. -/
def isNegativeNumber (argument : List Char) : Bool :=
  let body := if argument.getLast? = some '\n' then argument.dropLast else argument
  match body with
  | '-' :: number =>
      match number.span (· != '.') with
      | (whole, []) => !whole.isEmpty && isDigits whole
      | (whole, _ :: fraction) => isDigits whole && !fraction.isEmpty && isDigits fraction
  | _ => false

def classify (options : List (List Char × OptionKey)) (argument : List Char) :
    Except UsageError Item :=
  if argument.head? != some '-' then .ok (.operand argument)
  else
    match options.lookup argument with
    | some key => .ok (.ofSpelling argument key none)
    | none =>
        if argument.length = 1 then .ok (.operand argument)
        else
          let (before, after) := splitEquals argument
          match options.lookup before, after with
          | some key, some text => .ok (.ofSpelling before key (some text))
          | _, _ =>
              match abbreviated options argument with
              | [(_, item)] => .ok item
              | first :: second :: rest =>
                  .error (.ambiguous argument ((first :: second :: rest).map (·.1)))
              | [] =>
                  if isNegativeNumber argument || argument.contains ' ' then
                    .ok (.operand argument)
                  else .ok (.unknown argument)

def classifyAll (options : List (List Char × OptionKey)) :
    List (List Char) → Except UsageError (List Item)
  | [] => .ok []
  | argument :: rest =>
      if argument = "--".toList then .ok (.separator :: rest.map .operand)
      else
        match classify options argument with
        | .error error => .error error
        | .ok item =>
            match classifyAll options rest with
            | .error error => .error error
            | .ok items => .ok (item :: items)

/-- The flags that are written together: one flag, and the letters attached to it,
each of which has to be a short flag, too. -/
def readFlags (options : List (List Char × OptionKey)) (key : OptionKey) :
    List Char → Except UsageError (List OptionKey)
  | [] => .ok [key]
  | letter :: rest =>
      match options.lookup ['-', letter] with
      | none => .error (.ignoredValue key (letter :: rest))
      | some next => (readFlags options next rest).map (key :: ·)

/-- The flags of an argument that starts with a flag. Only a short flag can have others
attached, and an empty attachment is refused. -/
def flagGroup (options : List (List Char × OptionKey)) (key : OptionKey) (isShort : Bool)
    (attached : Option (List Char)) : Except UsageError (List OptionKey) :=
  match attached with
  | none => .ok [key]
  | some text =>
      if isShort && !text.isEmpty then readFlags options key text
      else .error (.ignoredValue key text)

inductive Request where
  | help (part : Part)
  /-- To be told what is wrong, in words of a part. -/
  | refused (part : Part) (error : UsageError)
  /-- To run the program at a path. The tape may be left without a size. -/
  | run (verbose : Bool) (path : List Char) (tapeSize : Option Nat) (dump : Nat)
  | translate (path : List Char)
deriving DecidableEq, Repr

structure Reading where
  file : Option (List Char) := none
  tapeSize : Option Nat
  dump : Nat := 0
  unrecognized : List (List Char) := []

namespace Reading

/-- Takes the value of an option. A separator is skipped wherever it stands, so that as
a value it leaves the option empty: no cell is dumped, or the tape has no size. -/
def setOption (key : OptionKey) (text : List Char) (reading : Reading) :
    Except UsageError Reading :=
  if text = "--".toList then
    match key with
    | .tapeSize => .ok { reading with tapeSize := none }
    | .dump | .help | .verbose => .ok { reading with dump := 0 }
  else
    match integer? text with
    | none => .error (.notInteger key text)
    | some value =>
        match key with
        | .tapeSize =>
            if 0 < value then .ok { reading with tapeSize := some value.toNat }
            else .error (.outOfRange key value)
        | .dump | .help | .verbose =>
            if 0 ≤ value then .ok { reading with dump := value.toNat }
            else .error (.outOfRange key value)

def leave (arguments : List (List Char)) (reading : Reading) : Reading :=
  { reading with unrecognized := reading.unrecognized ++ arguments }

end Reading

inductive PartResult where
  | help
  | refused (error : UsageError)
  | read (reading : Reading)

def operands : List Item → List (List Char)
  | [] => []
  | .operand text :: rest => text :: operands rest
  | _ :: rest => operands rest

/-- Reads the items of the part of a command. The first operand is the file; a
separator next to it, before or behind, is skipped, and any other is left over. -/
def readItems (options : List (List Char × OptionKey)) (afterFile : Bool)
    (reading : Reading) : List Item → PartResult
  | [] => .read reading
  | .operand text :: rest =>
      match reading.file with
      | none => readItems options true { reading with file := some text } rest
      | some _ => readItems options false (reading.leave [text]) rest
  | .separator :: rest =>
      match reading.file, operands rest with
      | none, file :: others => .read ({ reading with file := some file }.leave others)
      | none, [] => .read (reading.leave ["--".toList])
      | some _, others =>
          .read (reading.leave (if afterFile then others else "--".toList :: others))
  | .unknown text :: rest => readItems options false (reading.leave [text]) rest
  | .option key isShort attached :: rest =>
      if key.takesValue then
        match attached, rest with
        | some text, rest =>
            match reading.setOption key text with
            | .error error => .refused error
            | .ok reading => readItems options false reading rest
        | none, .operand text :: rest =>
            match reading.setOption key text with
            | .error error => .refused error
            | .ok reading => readItems options false reading rest
        | none, _ => .refused (.missingValue key)
      else
        match flagGroup options key isShort attached with
        | .error error => .refused error
        | .ok keys =>
            if keys.contains .help then .help else readItems options false reading rest

def readPart (part : Part) (defaultTapeSize : Nat) (arguments : List (List Char)) :
    PartResult :=
  match classifyAll part.options arguments with
  | .error error => .refused error
  | .ok items =>
      match readItems part.options false { tapeSize := some defaultTapeSize } items with
      | .read reading => if reading.file.isSome then .read reading else .refused .missingFile
      | result => result

def readCommand (verbose : Bool) (leftOver : List (List Char)) (defaultTapeSize : Nat)
    (part : Part) (arguments : List (List Char)) : Request :=
  match readPart part defaultTapeSize arguments with
  | .help => .help part
  | .refused error => .refused part error
  | .read { file, tapeSize, dump, unrecognized } =>
      match leftOver ++ unrecognized, file with
      | [], some path =>
          match part with
          | .run => .run verbose path tapeSize dump
          | .general | .translate => .translate path
      | [], none => .refused part .missingFile
      | unrecognized, _ => .refused .general (.unrecognized unrecognized)

/-- Reads the general part. The items stand for the first of the arguments each, and
the first operand is the command, which has all the arguments behind it. -/
def readGeneral (defaultTapeSize : Nat) (verbose : Bool) (leftOver : List (List Char)) :
    List Item → List (List Char) → Request
  | .operand name :: _, _ :: arguments =>
      if name = "run".toList then
        readCommand verbose leftOver defaultTapeSize .run arguments
      else if name = "translate".toList then
        readCommand verbose leftOver defaultTapeSize .translate arguments
      else .refused .general (.unknownCommand name)
  | .separator :: _ :: _, _ => .refused .general (.unknownCommand "--".toList)
  | .unknown text :: items, _ :: arguments =>
      readGeneral defaultTapeSize verbose (leftOver ++ [text]) items arguments
  | .option key isShort attached :: items, _ :: arguments =>
      match flagGroup Part.general.options key isShort attached with
      | .error error => .refused .general error
      | .ok keys =>
          if keys.contains .help then .help .general
          else readGeneral defaultTapeSize true leftOver items arguments
  | _, _ => .refused .general .missingCommand

def Request.ofArguments (defaultTapeSize : Nat) (arguments : List (List Char)) : Request :=
  match classifyAll Part.general.options arguments with
  | .error error => .refused .general error
  | .ok items => readGeneral defaultTapeSize false [] items arguments

end WordTape.CommandLine
