/-!
# Delays

A delay is what a `retry` field asks for: whole seconds and nanoseconds below one second.  Both
bounds are part of the type, so every delay can be written and read back.
-/

namespace ServerSentEvents

/-- The number of values of a 64-bit word. -/
abbrev wordLimit : Nat := 0x10000000000000000

/-- A length of time. -/
structure Delay where
  seconds : Nat
  nanos : Nat
  seconds_lt : seconds < wordLimit
  nanos_lt : nanos < 1000000000
  deriving DecidableEq, Repr

namespace Delay

def ofMillis (millis : Nat) (h : millis < wordLimit) : Delay where
  seconds := millis / 1000
  nanos := millis % 1000 * 1000000
  seconds_lt := Nat.lt_of_le_of_lt (Nat.div_le_self ..) h
  nanos_lt := by omega

/-- The delay of so many seconds and nanoseconds, whole seconds among the nanoseconds carried
over, if the seconds then still fit. -/
def ofParts? (seconds nanos : Nat) : Option Delay :=
  if h : seconds + nanos / 1000000000 < wordLimit then
    some ⟨seconds + nanos / 1000000000, nanos % 1000000000, h, Nat.mod_lt _ (by decide)⟩
  else none

def wholeMillis (d : Delay) : Nat :=
  d.seconds * 1000 + d.nanos / 1000000

/-- The whole milliseconds of a delay, at most the greatest 64-bit number. -/
def toMillis (d : Delay) : Nat :=
  min d.wholeMillis (wordLimit - 1)

/-- Milliseconds survive the way into a delay and back. -/
theorem toMillis_ofMillis (millis : Nat) (h : millis < wordLimit) :
    (ofMillis millis h).toMillis = millis := by
  have hwhole : (ofMillis millis h).wholeMillis = millis := by
    simp only [wholeMillis, ofMillis]
    omega
  rw [toMillis, hwhole]
  omega

end Delay

end ServerSentEvents
