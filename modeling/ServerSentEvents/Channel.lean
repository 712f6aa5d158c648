import ServerSentEvents.Line

/-!
# Bounded channels

A channel holds a fixed number of diagnostics in the order in which they were sent.  Sending never
waits: what finds the channel full, or nobody left to receive, is refused.
-/

namespace ServerSentEvents

/-- Why a channel refused a diagnostic. -/
inductive Refusal where
  | full
  | closed
  deriving DecidableEq, Repr

/-- Why there is no channel of a capacity. -/
inductive CapacityError where
  | zero
  | tooLarge
  deriving DecidableEq, Repr

def CapacityError.message : CapacityError → String
  | .zero => "mpsc bounded channel requires buffer > 0"
  | .tooLarge => "a semaphore may not have more than MAX_PERMITS permits (2305843009213693951)"

/-- A channel between a decoder and a receiver. -/
structure Channel where
  capacity : Nat
  capacity_pos : 0 < capacity
  /-- The diagnostics sent and not yet received, the oldest first. -/
  waiting : List Diagnostic := []
  /-- Whether the receiver is gone. -/
  closed : Bool := false

namespace Channel

def maxCapacity : Nat :=
  0x1fffffffffffffff

/-- A channel with room for so many diagnostics. -/
def ofCapacity (capacity : Nat) : Except CapacityError Channel :=
  if h : capacity = 0 then .error .zero
  else if maxCapacity < capacity then .error .tooLarge
  else .ok { capacity, capacity_pos := Nat.pos_of_ne_zero h }

def send (c : Channel) (d : Diagnostic) : Except Refusal Channel :=
  if c.closed then .error .closed
  else if c.waiting.length < c.capacity then .ok { c with waiting := c.waiting ++ [d] }
  else .error .full

def receiveAll (c : Channel) : Channel × List Diagnostic :=
  ({ c with waiting := [] }, c.waiting)

/-- The receiver goes away, and what waits for it is lost. -/
def close (c : Channel) : Channel :=
  { c with waiting := [], closed := true }

end Channel

end ServerSentEvents
