import ServerSentEvents.Event
import ServerSentEvents.Json.Value
import ServerSentEvents.Text.Pieces
import ServerSentEvents.Text.Utf8

/-!
# Printing events

Events are printed as JSON, one object to a line, or in the form of an event stream.  What comes out
of a stream can be printed in that form and read again.
-/

namespace ServerSentEvents

/-- The forms in which events are printed. -/
inductive PrintFormat where
  | json
  | text
  deriving DecidableEq, Repr, Inhabited

namespace PrintFormat

def name : PrintFormat → String
  | json => "json"
  | text => "text"

def ofName? (name : String) : Option PrintFormat :=
  [json, text].find? (·.name == name)

end PrintFormat

namespace Event

/-- The delay of an event in milliseconds. -/
def retryMillis (e : Event) : Option Nat :=
  e.retry.map Delay.toMillis

/-- The object that stands for an event on a line of its own. -/
def toPrintedJson (e : Event) : JsonValue :=
  .ofFields [
    ("event", e.event.map .ofString),
    ("id", e.id.map .ofString),
    ("retry_ms", e.retryMillis.map .ofNat),
    ("data", some (.ofString e.data))]

def fieldLine (name : String) (value : List Char) : List Char :=
  name.toList ++ ':' :: ' ' :: (value ++ ['\n'])

/-- An event in the form of an event stream, closed by a blank line. -/
def toStream (e : Event) : List Char :=
  (e.event.map fun name => fieldLine "event" name.toList).getD [] ++
    (e.id.map fun id => fieldLine "id" id.toList).getD [] ++
    (e.retryMillis.map fun millis => fieldLine "retry" (toString millis).toList).getD [] ++
    (Text.pieces '\n' e.data.toList).flatMap (fieldLine "data") ++
    ['\n']

/-- The text that is printed for an event. -/
def printed (e : Event) : PrintFormat → String
  | .json => String.ofList (e.toPrintedJson.compactChars ++ ['\n'])
  | .text => String.ofList e.toStream

end Event

/-! ### Writing -/

/-- A place to write to. -/
structure Device where
  taken : Array UInt8 := #[]
  /-- How many more bytes fit, if there is a limit. -/
  room : Option Nat := none
  /-- Whether flushing succeeds. -/
  flushes : Bool := true

/-- Why an event could not be printed. -/
inductive PrintError where
  | write (cause : String)
  | flush (cause : String)
  deriving DecidableEq, Repr

/-- The wording of an output error, without its cause. -/
def PrintError.message : PrintError → String
  | .write _ => "failed to write event"
  | .flush _ => "failed to flush output"

def PrintError.cause : PrintError → String
  | .write cause => cause
  | .flush cause => cause

namespace Device

/-- Writes bytes, as many of them as fit. -/
def write (d : Device) (bytes : Bytes) : Device × Option PrintError :=
  match d.room with
  | none => ({ d with taken := d.taken ++ bytes }, none)
  | some room =>
    let fitting := bytes.take room
    ({ d with taken := d.taken ++ fitting, room := some (room - fitting.length) },
      if bytes.length ≤ room then none else some (.write "no room"))

def flush (d : Device) : Option PrintError :=
  if d.flushes then none else some (.flush "no flush")

def print (d : Device) (format : PrintFormat) (e : Event) : Device × Option PrintError :=
  match d.write (Utf8.encode (e.printed format)) with
  | (d, some error) => (d, some error)
  | (d, none) => (d, d.flush)

/-- Prints events up to the first failure. -/
def printAll (d : Device) (format : PrintFormat) : List Event → Device × Option PrintError
  | [] => (d, none)
  | e :: es =>
    match d.print format e with
    | (d, some error) => (d, some error)
    | (d, none) => d.printAll format es

end Device

end ServerSentEvents
