import ServerSentEvents.Event
import ServerSentEvents.Json.Reader

/-!
# Events in JSON

An event is written as an object with its data, and with its name, id and delay where it has them.
What is absent is left out.  Read events may also have it as `null`, and may be an array of the four
values in the order in which they are written.
-/

namespace ServerSentEvents

/-- The number of values of a 32-bit half word. -/
def halfWordLimit : Nat := 0x100000000

/-- The delay that a JSON value describes: an object with seconds and nanoseconds and nothing
else, or an array of both. -/
def Delay.ofJson? : JsonValue → Option Delay
  | .object members => do
    if members.any (fun member => member.1 ≠ some "secs" ∧ member.1 ≠ some "nanos") then none
    let seconds ← (← JsonValue.member? "secs" members).bind (JsonValue.toNat? wordLimit)
    let nanos ← (← JsonValue.member? "nanos" members).bind (JsonValue.toNat? halfWordLimit)
    Delay.ofParts? seconds nanos
  | .array [seconds, nanos] => do
    Delay.ofParts? (← seconds.toNat? wordLimit) (← nanos.toNat? halfWordLimit)
  | _ => none

def Delay.toJson (d : Delay) : JsonValue :=
  .ofFields [("secs", some (.ofNat d.seconds)), ("nanos", some (.ofNat d.nanos))]

namespace Event

/-- What a value describes that may be `null`. -/
def nullable? {α : Type} (read? : JsonValue → Option α) : JsonValue → Option (Option α)
  | .null => some none
  | value => (read? value).map some

/-- The value of a key that may be missing or `null`. -/
def optional? {α : Type} (read? : JsonValue → Option α) (key : String)
    (members : List (Option String × JsonValue)) : Option (Option α) := do
  match ← JsonValue.member? key members with
  | none => return none
  | some value => nullable? read? value

/-- The event that a JSON value describes. -/
def ofJson? : JsonValue → Option Event
  | .object members => do
    if members.any (·.1.isNone) then none
    let event ← optional? JsonValue.text? "event" members
    let id ← optional? JsonValue.text? "id" members
    let retry ← optional? Delay.ofJson? "retry" members
    let data ← (← JsonValue.member? "data" members).bind JsonValue.text?
    return { event, id, retry, data }
  | .array [event, id, retry, data] => do
    let event ← nullable? JsonValue.text? event
    let id ← nullable? JsonValue.text? id
    let retry ← nullable? Delay.ofJson? retry
    let data ← data.text?
    return { event, id, retry, data }
  | _ => none

/-- The event that a JSON text describes. -/
def parseJson? (text : String) : Option Event :=
  (JsonValue.parse? text).bind ofJson?

def toJson (e : Event) : JsonValue :=
  .ofFields [
    ("event", e.event.map .ofString),
    ("id", e.id.map .ofString),
    ("retry", e.retry.map Delay.toJson),
    ("data", some (.ofString e.data))]

end Event

end ServerSentEvents
