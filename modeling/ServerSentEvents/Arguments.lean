import ServerSentEvents.Delay
import ServerSentEvents.Overflow
import ServerSentEvents.Printing
import ServerSentEvents.Text.Decimal

/-!
# Command-line arguments

Arguments are read from left to right.  An option that still waits for its value, or holds a value
that nobody has looked at yet, is settled when the next argument begins; so of two faults the one
that is settled first is reported.  What the arguments may not do together is checked at the end.
-/

namespace ServerSentEvents

/-- What can be given on the command line. -/
inductive ArgumentName where
  /-- The input, which is not named. -/
  | input
  | url
  | lastEventId
  | config
  | maxLineSize
  | overflow
  | deadLetterDir
  | format
  | logFormat
  deriving DecidableEq, Repr

/-- Why arguments are not accepted, or not run. -/
inductive ArgumentError where
  /-- A size or a policy cannot be read. -/
  | valueValidation
  /-- A value is missing, or is none of those that are allowed. -/
  | invalidValue
  | unknownArgument
  /-- An argument was given twice, or beside one that excludes it. -/
  | argumentConflict
  | missingRequiredArgument
  | tooManyValues
  | displayHelp
  | displayVersion
  deriving DecidableEq, Repr

/-- The exit code after an argument error: asking for help or for the version is no failure. -/
def ArgumentError.exitCode : ArgumentError → Nat
  | .displayHelp | .displayVersion => 0
  | _ => 2

def ArgumentError.message : ArgumentError → String
  | .valueValidation => "a value cannot be read"
  | .invalidValue => "a value is missing or not allowed"
  | .unknownArgument => "unexpected argument"
  | .argumentConflict => "arguments exclude each other"
  | .missingRequiredArgument => "a required argument is missing"
  | .tooManyValues => "a flag takes no value"
  | .displayHelp => "help was asked for"
  | .displayVersion => "the version was asked for"

/-- The arguments of one run. -/
structure Arguments where
  input : Option String := none
  url : Option String := none
  lastEventId : Option String := none
  config : Option String := none
  maxLineSize : Option Nat := none
  overflow : Option OverflowPolicy := none
  deadLetterDir : Option String := none
  format : Option PrintFormat := none
  logFormat : Option PrintFormat := none
  deriving DecidableEq, Repr

/-- Where the stream comes from. -/
inductive InputSource where
  | stdin
  | file (path : String)
  | url (url : String)
  deriving DecidableEq, Repr

namespace Arguments

/-- The input that the arguments choose.  A dash stands for the standard input. -/
def source (a : Arguments) : InputSource :=
  match a.url, a.input with
  | some url, _ => .url url
  | none, none => .stdin
  | none, some path => if path = "-" then .stdin else .file path

/-! ### Values -/

/-- The size that a value denotes: digits, perhaps behind a plus sign. -/
def readSize (value : String) : Except ArgumentError Nat :=
  let digits := match value.toList with
    | '+' :: rest => rest
    | cs => cs
  match Decimal.ofChars? digits with
  | some n => if n < wordLimit then .ok n else .error .valueValidation
  | none => .error .valueValidation

def readPolicy (value : String) : Except ArgumentError OverflowPolicy :=
  match OverflowPolicy.ofText? value with
  | some policy => .ok policy
  | none => .error .valueValidation

/-- A path is any text that is not empty. -/
def readPath (value : String) : Except ArgumentError String :=
  if value.isEmpty then .error .invalidValue else .ok value

def readFormat (value : String) : Except ArgumentError PrintFormat :=
  match PrintFormat.ofName? value with
  | some format => .ok format
  | none => .error .invalidValue

def has (a : Arguments) : ArgumentName → Bool
  | .input => a.input.isSome
  | .url => a.url.isSome
  | .lastEventId => a.lastEventId.isSome
  | .config => a.config.isSome
  | .maxLineSize => a.maxLineSize.isSome
  | .overflow => a.overflow.isSome
  | .deadLetterDir => a.deadLetterDir.isSome
  | .format => a.format.isSome
  | .logFormat => a.logFormat.isSome

def set (a : Arguments) (name : ArgumentName) (value : String) : Except ArgumentError Arguments :=
  match name with
  | .input => return { a with input := some (← readPath value) }
  | .url => return { a with url := some value }
  | .lastEventId => return { a with lastEventId := some value }
  | .config => return { a with config := some (← readPath value) }
  | .maxLineSize => return { a with maxLineSize := some (← readSize value) }
  | .overflow => return { a with overflow := some (← readPolicy value) }
  | .deadLetterDir => return { a with deadLetterDir := some (← readPath value) }
  | .format => return { a with format := some (← readFormat value) }
  | .logFormat => return { a with logFormat := some (← readFormat value) }

/-- Gives an argument its value, or none if none came: every argument needs a value, may be given
once, and has its value read, in that order. -/
def give (a : Arguments) (name : ArgumentName) : Option String → Except ArgumentError Arguments
  | none => .error .invalidValue
  | some value => if a.has name then .error .argumentConflict else a.set name value

/-! ### Reading -/

def usage : String :=
  "\n".intercalate [
    "Decode a Server-Sent Events stream with a bounded line buffer.",
    "",
    "Usage: [OPTIONS] [INPUT]",
    "",
    "  [INPUT]                  File to decode, or - for stdin (the default)",
    "      --url <URL>          Fetch the stream instead of reading a file",
    "      --last-event-id <ID> The id to go on from when fetching",
    "  -c, --config <FILE>      YAML settings file; options override its values",
    "      --max-line-size <BYTES>   Longest accepted line in bytes",
    "      --overflow <MODE>    fail-stream, log-and-skip, truncate or dead-letter",
    "      --dead-letter-dir <DIR>   Directory receiving dead-lettered lines",
    "      --format <FORMAT>    Event output format: json or text",
    "      --log-format <FORMAT>     Log output format: json or text",
    "  -h, --help               Print help",
    "  -V, --version            Print version"]

def version : String :=
  "0.1.0"

def longName : ArgumentName → String
  | .input => ""
  | .url => "url"
  | .lastEventId => "last-event-id"
  | .config => "config"
  | .maxLineSize => "max-line-size"
  | .overflow => "overflow"
  | .deadLetterDir => "dead-letter-dir"
  | .format => "format"
  | .logFormat => "log-format"

def options : List ArgumentName :=
  [.url, .lastEventId, .config, .maxLineSize, .overflow, .deadLetterDir, .format, .logFormat]

def ofLongName? (name : String) : Option ArgumentName :=
  options.find? (longName · == name)

/-- How one argument looks. -/
inductive Shape where
  /-- A value or an input. -/
  | plain
  /-- Two dashes: what follows is all input. -/
  | separator
  /-- A long name, perhaps with a value attached. -/
  | long (name : String) (value : Option String)
  /-- A letter, and what is attached to it. -/
  | short (letter : Char) (attached : List Char)
  deriving DecidableEq, Repr

/-- The shape of an argument.  A dash alone is a value. -/
def shape (argument : String) : Shape :=
  match argument.toList with
  | ['-', '-'] => .separator
  | '-' :: '-' :: cs =>
    let name := String.ofList (cs.takeWhile (· != '='))
    match cs.dropWhile (· != '=') with
    | [] => .long name none
    | _ :: value => .long name (some (String.ofList value))
  | '-' :: letter :: attached => .short letter attached
  | _ => .plain

/-- How far the reading has come. -/
structure Reading where
  given : Arguments := {}
  /-- The argument that is not settled, and its value if that has come. -/
  open? : Option (ArgumentName × Option String) := none
  /-- Whether two dashes have come. -/
  afterSeparator : Bool := false
  hasInput : Bool := false

namespace Reading

def settle (r : Reading) : Except ArgumentError Reading :=
  match r.open? with
  | none => .ok r
  | some (name, value) => return { r with given := ← r.given.give name value, open? := none }

/-- Takes in an option with or without an attached value. -/
def takeOption (r : Reading) (name : ArgumentName) (value : Option String) :
    Except ArgumentError Reading := do
  let r ← r.settle
  match value with
  | none => return { r with open? := some (name, none) }
  | some value => return { r with given := ← r.given.give name (some value) }

/-- Takes in a flag that ends the reading. -/
def takeFlag (r : Reading) (ending : ArgumentError) : Except ArgumentError Reading := do
  let _ ← r.settle
  .error ending

/-- Takes in an argument that is no option: there is one input. -/
def takeInput (r : Reading) (argument : String) : Except ArgumentError Reading :=
  if r.hasInput then .error .unknownArgument
  else do
    let r ← r.settle
    return { r with open? := some (.input, some argument), hasInput := true }

/-- Takes in an option by its long name. -/
def takeLong (r : Reading) (name : String) (value : Option String) :
    Except ArgumentError Reading :=
  match ofLongName? name with
  | some option => r.takeOption option value
  | none =>
    if name = "help" ∨ name = "version" then
      if value.isSome then .error .tooManyValues
      else r.takeFlag (if name = "help" then .displayHelp else .displayVersion)
    else .error .unknownArgument

/-- Takes in an option by its letter.  An equals sign may stand before an attached value. -/
def takeShort (r : Reading) (letter : Char) (attached : List Char) :
    Except ArgumentError Reading :=
  match letter with
  | 'c' =>
    r.takeOption .config <|
      match attached with
      | [] => none
      | '=' :: value => some (String.ofList value)
      | value => some (String.ofList value)
  | 'h' => r.takeFlag .displayHelp
  | 'V' => r.takeFlag .displayVersion
  | _ => .error .unknownArgument

def take (r : Reading) (argument : String) : Except ArgumentError Reading :=
  if r.afterSeparator then r.takeInput argument
  else
    match shape argument with
    | .separator => .ok { r with afterSeparator := true }
    | .long name value => r.takeLong name value
    | .short letter attached => r.takeShort letter attached
    | .plain =>
      match r.open? with
      | some (name, none) => .ok { r with open? := some (name, some argument) }
      | _ => r.takeInput argument

end Reading

/-- What arguments may not do together: the input excludes a URL, and an id to go on from needs a
URL, unless an input is given, which excludes the URL. -/
def check (a : Arguments) : Except ArgumentError Arguments :=
  if a.input.isSome && a.url.isSome then .error .argumentConflict
  else if a.lastEventId.isSome && a.url.isNone && a.input.isNone then
    .error .missingRequiredArgument
  else .ok a

def parse (arguments : List String) : Except ArgumentError Arguments := do
  let reading ← arguments.foldlM Reading.take {}
  (← reading.settle).given.check

end Arguments

end ServerSentEvents
