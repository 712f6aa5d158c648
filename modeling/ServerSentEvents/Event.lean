import ServerSentEvents.Delay

/-!
# Events

An event carries its data, and may carry a name, an id and a delay.
-/

namespace ServerSentEvents

/-- One event of a stream. -/
structure Event where
  event : Option String := none
  id : Option String := none
  retry : Option Delay := none
  data : String
  deriving DecidableEq, Repr

/-- The name of an event: an event that carries none is a message. -/
def Event.type (e : Event) : String :=
  e.event.getD "message"

end ServerSentEvents
