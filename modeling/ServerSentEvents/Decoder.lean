import ServerSentEvents.BlockReader
import ServerSentEvents.Splitter

/-!
# The push decoder

A caller who has the bytes hands them in as they come and gets the events that they complete.  The
decoder is a splitter whose lines go to a block reader.
-/

namespace ServerSentEvents

/-- The state of decoding one stream that is handed in. -/
structure Decoder where
  splitter : Splitter
  blocks : BlockReader := {}

namespace Decoder

/-- A decoder at the start of a stream. -/
def start (limits : LineLimits) (limit_pos : 0 < limits.maxSize) : Decoder :=
  { splitter := .start limits limit_pos }

/-- The decoder for limits.  Limits that are not fit for use have none. -/
def ofLimits (limits : LineLimits) : Except LimitsError Decoder :=
  (Splitter.ofLimits limits).map fun splitter => { splitter }

/-- The error that ended the stream, once one has. -/
def error? (d : Decoder) : Option StreamError :=
  d.splitter.error?

def counts (d : Decoder) : LineCounts :=
  d.splitter.counts

/-- The id of the last event that carried one. -/
def lastEventId (d : Decoder) : Option String :=
  d.blocks.lastEventId

/-- Reads a chunk and returns the events it completes.  If the stream fails in it, the events that
were complete before are still returned, and the open block is thrown away. -/
def read (d : Decoder) (chunk : Bytes) : Decoder × List Event × List Notice :=
  match d.splitter.read chunk with
  | (splitter, signals) =>
    match d.blocks.takeAll (Signal.lines signals) with
    | (blocks, events) =>
      ({ splitter, blocks := if splitter.hasFailed then blocks.abandon else blocks },
        events, Signal.notices signals)

def readAll (d : Decoder) : List Bytes → Decoder × List Event × List Notice
  | [] => (d, [], [])
  | chunk :: chunks =>
    match d.read chunk with
    | (d, events, notices) =>
      match d.readAll chunks with
      | (last, laterEvents, laterNotices) => (last, events ++ laterEvents, notices ++ laterNotices)

/-- Ends the stream.  An open line could not close a block, so only its diagnostic matters. -/
def close (d : Decoder) : Decoder × List Notice :=
  match d.splitter.close, d.blocks.close with
  | (splitter, signals), (blocks, notices) =>
    ({ splitter, blocks }, Signal.notices signals ++ notices)

end Decoder

end ServerSentEvents
