import ServerSentEvents.Log
import ServerSentEvents.StreamError
import ServerSentEvents.Transducer

/-!
# Splitting a stream into lines

A line ends at a line feed, at a carriage return, or at a carriage return and the line feed right
after it.  The splitter looks for the terminators of a chunk and reads the stretches between them
whole.  It holds no more of an open line than the limit allows, except where the whole line was
asked for.
-/

namespace ServerSentEvents

/-- How the rest of an oversized line is read. -/
inductive Handling where
  | skip
  /-- The head is kept and stands for the line. -/
  | truncate (head : Bytes)
  /-- Everything is collected for the diagnostic. -/
  | capture (bytes : Array UInt8)
  deriving DecidableEq, Repr

namespace Handling

def absorb (h : Handling) (more : Bytes) : Handling :=
  match h with
  | capture bytes => capture (bytes ++ more.toArray)
  | kept => kept

/-- The bytes that are handed out as the line. -/
def line? : Handling → Option Bytes
  | skip => none
  | truncate head => some head
  | capture _ => none

/-- The bytes that go into the diagnostic. -/
def captured? : Handling → Option Bytes
  | skip => none
  | truncate head => some head
  | capture bytes => some bytes.toList

/-- Counts a line that was read to its end this way. -/
def tally (h : Handling) (counts : LineCounts) : LineCounts :=
  match h with
  | skip => { counts with dropped := counts.dropped + 1 }
  | truncate _ => { counts with lines := counts.lines + 1, truncated := counts.truncated + 1 }
  | capture _ => { counts with rerouted := counts.rerouted + 1 }

end Handling

/-- The line that is being read. -/
inductive OpenLine where
  /-- All of it so far is within the limit; at a line's start there is nothing of it. -/
  | fitting (bytes : Array UInt8)
  /-- It has outgrown the limit, and `length` bytes of it have been read. -/
  | oversized (handling : Handling) (length : Nat)
  /-- It has outgrown the limit and failed the stream. -/
  | rejected
  deriving DecidableEq, Repr

/-- What the splitter emits, in order. -/
inductive Signal where
  | line (line : Line)
  | notice (notice : Notice)
  deriving DecidableEq, Repr

namespace Signal

/-- The line of a signal that is one. -/
def line? : Signal → Option Line
  | line l => some l
  | notice _ => none

/-- The notice of a signal that is one. -/
def notice? : Signal → Option Notice
  | line _ => none
  | notice n => some n

def lines (signals : List Signal) : List Line :=
  signals.filterMap line?

def notices (signals : List Signal) : List Notice :=
  signals.filterMap notice?

def diagnostics (signals : List Signal) : List Diagnostic :=
  Notice.diagnostics (notices signals)

@[simp] theorem lines_nil : lines [] = [] := rfl

@[simp] theorem lines_cons_line (l : Line) (rest : List Signal) :
    lines (.line l :: rest) = l :: lines rest := rfl

@[simp] theorem lines_cons_notice (n : Notice) (rest : List Signal) :
    lines (.notice n :: rest) = lines rest := rfl

@[simp] theorem lines_append (a b : List Signal) : lines (a ++ b) = lines a ++ lines b :=
  List.filterMap_append

@[simp] theorem notices_nil : notices [] = [] := rfl

@[simp] theorem notices_cons_line (l : Line) (rest : List Signal) :
    notices (.line l :: rest) = notices rest := rfl

@[simp] theorem notices_cons_notice (n : Notice) (rest : List Signal) :
    notices (.notice n :: rest) = n :: notices rest := rfl

@[simp] theorem notices_append (a b : List Signal) :
    notices (a ++ b) = notices a ++ notices b :=
  List.filterMap_append

@[simp] theorem diagnostics_nil : diagnostics [] = [] := rfl

@[simp] theorem diagnostics_cons_line (l : Line) (rest : List Signal) :
    diagnostics (.line l :: rest) = diagnostics rest := rfl

@[simp] theorem diagnostics_cons_diagnostic (d : Diagnostic) (rest : List Signal) :
    diagnostics (.notice (.diagnostic d) :: rest) = d :: diagnostics rest := rfl

@[simp] theorem diagnostics_cons_record (r : LogRecord) (rest : List Signal) :
    diagnostics (.notice (.record r) :: rest) = diagnostics rest := rfl

@[simp] theorem diagnostics_append (a b : List Signal) :
    diagnostics (a ++ b) = diagnostics a ++ diagnostics b := by
  simp [diagnostics]

end Signal

/-- The state of splitting one stream. -/
structure Splitter where
  limits : LineLimits
  limit_pos : 0 < limits.maxSize
  current : OpenLine := .fitting #[]
  /-- Whether the last byte was a carriage return, whose line feed may still follow. -/
  afterReturn : Bool := false
  /-- How many lines have ended. -/
  ended : Nat := 0
  counts : LineCounts := {}

namespace Splitter

/-- A splitter at the start of a stream. -/
def start (limits : LineLimits) (limit_pos : 0 < limits.maxSize) : Splitter :=
  { limits, limit_pos }

/-- The splitter for limits.  Limits that are not fit for use have none. -/
def ofLimits (limits : LineLimits) : Except LimitsError Splitter :=
  if h : 0 < limits.maxSize then .ok (start limits h) else .error .zeroSize

def limit (s : Splitter) : Nat :=
  s.limits.maxSize

def policy (s : Splitter) : OverflowPolicy :=
  s.limits.overflow

/-- The number of bytes held of a line that is not being collected. -/
def held (s : Splitter) : Nat :=
  match s.current with
  | .fitting bytes => bytes.size
  | .oversized (.truncate head) _ => head.length
  | .oversized .. => 0
  | .rejected => 0

def hasFailed (s : Splitter) : Bool :=
  match s.current with
  | .rejected => true
  | _ => false

/-- The error that ended the stream, once one has. -/
def error? (s : Splitter) : Option StreamError :=
  if s.hasFailed then some (.lineTooLong s.limit (s.ended + 1)) else none

/-- Ends the open line and hands out what its handling leaves of it. -/
def endLine (s : Splitter) : Splitter × List Signal :=
  let number := s.ended + 1
  match s.current with
  | .fitting bytes =>
    ({ s with
        current := .fitting #[]
        afterReturn := false
        ended := number
        counts := { s.counts with lines := s.counts.lines + 1 } },
      [.line ⟨bytes.toList, number, false⟩])
  | .oversized handling length =>
    ({ s with
        current := .fitting #[]
        afterReturn := false
        ended := number
        counts := handling.tally s.counts },
      .notice (.diagnostic ⟨s.policy, number, length, handling.captured?⟩) ::
        handling.line?.toList.map fun bytes => .line ⟨bytes, number, true⟩)
  | .rejected => (s, [])

/-- Reads a stretch with which the open line outgrows the limit: `head` is all that the limit
allows of the line, and `rest` is what goes beyond it. -/
def outgrow (s : Splitter) (head rest : Bytes) : Splitter × List Signal :=
  let next (handling : Handling) : Splitter :=
    { s with current := .oversized (handling.absorb rest) (s.limit + rest.length) }
  match s.policy.disposition head with
  | .abort =>
    ({ s with current := .rejected, afterReturn := false },
      [.notice (.record (.lineTooLong (s.ended + 1) s.limit))])
  | .drop => (next .skip, [])
  | .truncate length => (next (.truncate (head.take length)), [])
  | .reroute bytes => (next (.capture bytes.toArray), [])

/-- Reads a stretch of the open line, in which there is no terminator. -/
def append (s : Splitter) (stretch : Bytes) : Splitter × List Signal :=
  match s.current with
  | .fitting bytes =>
    let room := s.limit - bytes.size
    if stretch.length ≤ room then ({ s with current := .fitting (bytes ++ stretch.toArray) }, [])
    else s.outgrow (bytes.toList ++ stretch.take room) (stretch.drop room)
  | .oversized handling length =>
    ({ s with current := .oversized (handling.absorb stretch) (length + stretch.length) }, [])
  | .rejected => (s, [])

/-- What is left of a chunk after a carriage return, and whether the line feed of this carriage
return may still come, which is so at the end of the chunk. -/
def passFeed : Bytes → Bytes × Bool
  | [] => ([], true)
  | b :: rest => if b = Bytes.lineFeed then (rest, false) else (b :: rest, false)

/-- What is left of a chunk after the terminator `b`. -/
def passTerminator (b : UInt8) (rest : Bytes) : Bytes × Bool :=
  if b = Bytes.carriageReturn then passFeed rest else (rest, false)

theorem passTerminator_length_le (b : UInt8) (rest : Bytes) :
    (passTerminator b rest).1.length ≤ rest.length := by
  unfold passTerminator
  split
  · cases rest with
    | nil => simp [passFeed]
    | cons c rest =>
      simp only [passFeed]
      split <;> simp
  · simp

/-- Reads a chunk from one terminator to the next, and puts what is emitted before `out`, which
holds the latest signal first.  A line that fails the stream ends the reading. -/
def scan (s : Splitter) (chunk : Bytes) (out : List Signal) : Splitter × List Signal :=
  match _h : chunk.dropWhile (!Bytes.isTerminator ·) with
  | [] =>
    match s.append chunk with
    | (s, new) => (s, new.reverse ++ out)
  | b :: rest =>
    match s.append (chunk.takeWhile (!Bytes.isTerminator ·)) with
    | (s, new) =>
      if s.hasFailed then (s, new.reverse ++ out)
      else
        match s.endLine with
        | (s, line) =>
          { s with afterReturn := (passTerminator b rest).2 }.scan (passTerminator b rest).1
            (line.reverse ++ new.reverse ++ out)
termination_by chunk.length
decreasing_by
  have hdropped := (List.dropWhile_suffix (!Bytes.isTerminator ·) (l := chunk)).length_le
  have hpassed := passTerminator_length_le b rest
  rw [_h, List.length_cons] at hdropped
  omega

/-- Comes to a new chunk, and passes over the line feed of a carriage return that ended the chunk
before. -/
def resume (s : Splitter) : Bytes → Splitter × Bytes
  | [] => (s, [])
  | b :: rest =>
    ({ s with afterReturn := false },
      if s.afterReturn && b == Bytes.lineFeed then rest else b :: rest)

/-- Reads a chunk.  If the stream fails in it, the lines that ended before are still emitted.
After a failure nothing is read any more. -/
def read (s : Splitter) (chunk : Bytes) : Splitter × List Signal :=
  if s.hasFailed then (s, [])
  else
    match s.resume chunk with
    | (s, rest) =>
      match s.scan rest [] with
      | (s, out) => (s, out.reverse)

def readAll (s : Splitter) (chunks : List Bytes) : Splitter × List Signal :=
  Transducer.run read s chunks

/-- Ends the stream: an open line that holds anything is resolved as if it had been terminated. -/
def close (s : Splitter) : Splitter × List Signal :=
  match s.current with
  | .fitting bytes =>
    if bytes.isEmpty then ({ s with afterReturn := false }, []) else s.endLine
  | .oversized .. => s.endLine
  | .rejected => ({ s with afterReturn := false }, [])

/-- Forgets the open line.  A failure is not forgotten. -/
def forget (s : Splitter) : Splitter :=
  match s.current with
  | .rejected => { s with afterReturn := false }
  | _ => { s with current := .fitting #[], afterReturn := false }

/-- Whether the open line has outgrown the limit and is still being read. -/
def isOversized (s : Splitter) : Bool :=
  match s.current with
  | .oversized .. => true
  | _ => false

/-- The splitter's state in one line of text, for people who look for faults. -/
def summary (s : Splitter) : String :=
  let aborted := if s.hasFailed then s!"Some({s.ended + 1})" else "None"
  String.join [
    "LineAccumulator \x7b max_line_size: ", toString s.limit,
    ", mode: ", s.policy.capitalName,
    ", buffered: ", toString s.held,
    ", oversized: ", toString s.isOversized,
    ", line_number: ", toString s.ended,
    ", aborted: ", aborted,
    ", stats: LineStats \x7b lines: ", toString s.counts.lines,
    ", dropped: ", toString s.counts.dropped,
    ", truncated: ", toString s.counts.truncated,
    ", rerouted: ", toString s.counts.rerouted,
    " \x7d \x7d"]

end Splitter

end ServerSentEvents
