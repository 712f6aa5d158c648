import ServerSentEvents.Bytes
import ServerSentEvents.Delay
import ServerSentEvents.Text.Decimal
import ServerSentEvents.Text.Utf8

/-!
# Fields

A line is classified by its bytes: the name ends at the first colon, and only the value is read as
text, so that bytes that are no UTF-8 can spoil a value but never a name.
-/

namespace ServerSentEvents

/-- The meaning of one line. -/
inductive Field where
  | data (text : String)
  | event (name : String)
  | id (value : String)
  /-- The delay before a client connects again. -/
  | retry (delay : Delay)
  | comment (text : String)
  | blank
  deriving DecidableEq, Repr

namespace Field

/-- The names that fields may have. -/
inductive Name where
  | data
  | event
  | id
  | retry
  deriving DecidableEq, Repr

/-- The spelling of a field name. -/
def Name.text : Name → String
  | .data => "data"
  | .event => "event"
  | .id => "id"
  | .retry => "retry"

def Name.bytes (name : Name) : Bytes :=
  Utf8.encode name.text

def Name.ofBytes? (bytes : Bytes) : Option Name :=
  [Name.data, .event, .id, .retry].find? (·.bytes == bytes)

/-- A value without the one space that may stand before it. -/
def dropSpace : Bytes → Bytes
  | b :: rest => if b = Bytes.space then rest else b :: rest
  | [] => []

/-- The name and the value of a line: what stands before the first colon and what stands after
it, less one space.  A line without a colon is all name. -/
def split (line : Bytes) : Bytes × Bytes :=
  (line.takeWhile (· != Bytes.colon),
    dropSpace ((line.dropWhile (· != Bytes.colon)).drop 1))

/-- The delay of a `retry` value: digits that denote a number of milliseconds below `wordLimit`. -/
def retryDelay? (value : Bytes) : Option Delay :=
  match Decimal.ofBytes? value with
  | none => none
  | some millis => if h : millis < wordLimit then some (.ofMillis millis h) else none

/-- The field of a name and a value.  An id that holds a NUL is no field. -/
def ofName (name : Name) (value : Bytes) : Option Field :=
  match name with
  | .data => some (.data (Utf8.decode value))
  | .event => some (.event (Utf8.decode value))
  | .id => if value.contains 0 then none else some (.id (Utf8.decode value))
  | .retry => (retryDelay? value).map .retry

/-- The field of a line without its terminator; `none` for a line that the grammar ignores. -/
def ofLine? : Bytes → Option Field
  | [] => some .blank
  | b :: rest =>
    if b = Bytes.colon then some (.comment (Utf8.decode (dropSpace rest)))
    else
      match split (b :: rest) with
      | (name, value) => (Name.ofBytes? name).bind (ofName · value)

end Field

end ServerSentEvents
