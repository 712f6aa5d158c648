import ServerSentEvents.Overflow
import ServerSentEvents.Text.Utf8

/-!
# Lines and their counters

A line is what stands between two terminators.  Its number counts every line of the stream from 1,
those that were never handed out included.
-/

namespace ServerSentEvents

/-- One line without its terminator. -/
structure Line where
  bytes : Bytes
  number : Nat
  /-- Whether the line is the head of an oversized one. -/
  truncated : Bool := false
  deriving DecidableEq, Repr

/-- The text of a line, with replacements. -/
def Line.text (line : Line) : String :=
  Utf8.decode line.bytes

/-- What has become of the lines of one stream. -/
structure LineCounts where
  /-- Lines handed out, truncated ones included. -/
  lines : Nat := 0
  dropped : Nat := 0
  truncated : Nat := 0
  rerouted : Nat := 0
  deriving DecidableEq, Repr

/-- The number of lines that outgrew the limit. -/
def LineCounts.oversized (counts : LineCounts) : Nat :=
  counts.dropped + counts.truncated + counts.rerouted

/-- The report on one oversized line. -/
structure Diagnostic where
  policy : OverflowPolicy
  lineNumber : Nat
  lineLength : Nat
  /-- The bytes that were kept of the line, if any were. -/
  bytes : Option Bytes
  deriving DecidableEq, Repr

end ServerSentEvents
