/-!
# Byte strings

Streams arrive as bytes and are cut into lines before any of them is read as text.  A byte string
is a list, so that cutting and joining are the list operations and nothing else.
-/

namespace ServerSentEvents

/-- A string of bytes, in the order in which they arrive. -/
abbrev Bytes := List UInt8

namespace Bytes

def lineFeed : UInt8 := 0x0a

def carriageReturn : UInt8 := 0x0d

def space : UInt8 := 0x20

def colon : UInt8 := 0x3a

/-- A byte ends a line if it is a line feed or a carriage return. -/
def isTerminator (b : UInt8) : Bool :=
  b == lineFeed || b == carriageReturn

theorem lineFeed_ne_carriageReturn : lineFeed ≠ carriageReturn := by
  decide

theorem isTerminator_eq_true_iff {b : UInt8} :
    isTerminator b = true ↔ b = lineFeed ∨ b = carriageReturn := by
  simp [isTerminator]

theorem isTerminator_eq_false_iff {b : UInt8} :
    isTerminator b = false ↔ b ≠ lineFeed ∧ b ≠ carriageReturn := by
  simp [isTerminator]

end Bytes

end ServerSentEvents
