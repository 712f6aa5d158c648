import ServerSentEvents.Event
import ServerSentEvents.Field
import ServerSentEvents.Log
import ServerSentEvents.Transducer

/-!
# Reading blocks

Lines form blocks, and a blank line closes a block.  A block that holds a field becomes an event; a
block of remarks and unknown lines becomes nothing.  The id of the last event that carried one is
remembered across blocks.
-/

namespace ServerSentEvents

/-- The fields of the block that is being read. -/
structure Block where
  event : Option String := none
  id : Option String := none
  retry : Option Delay := none
  /-- The data lines so far, joined by line feeds. -/
  data : Option String := none
  /-- Whether a field has come. -/
  hasFields : Bool := false
  deriving DecidableEq, Repr

namespace Block

/-- A block is empty until a field has come. -/
def isEmpty (b : Block) : Bool :=
  !b.hasFields

/-- The data of a block with one more line of it. -/
def joinData (data : Option String) (line : String) : String :=
  match data with
  | some lines => lines ++ "\n" ++ line
  | none => line

/-- Takes in a field: data lines add up, and of every other field the last one counts. -/
def add (b : Block) : Field → Block
  | .data text => { b with data := some (joinData b.data text), hasFields := true }
  | .event name => { b with event := some name, hasFields := true }
  | .id value => { b with id := some value, hasFields := true }
  | .retry delay => { b with retry := some delay, hasFields := true }
  | .comment _ => b
  | .blank => b

/-- The event of a block.  Without a data line its data is empty. -/
def toEvent (b : Block) : Event where
  event := b.event
  id := b.id
  retry := b.retry
  data := b.data.getD ""

end Block

/-- The state of reading the blocks of one stream. -/
structure BlockReader where
  block : Block := {}
  /-- Whether a line has come. -/
  begun : Bool := false
  lastEventId : Option String := none
  deriving DecidableEq, Repr

namespace BlockReader

/-- The byte-order mark in UTF-8. -/
def byteOrderMark : Bytes :=
  [0xef, 0xbb, 0xbf]

/-- A line without a byte-order mark at its start. -/
def stripMark (line : Bytes) : Bytes :=
  if byteOrderMark.isPrefixOf line then line.drop byteOrderMark.length else line

/-- Whether the open block holds a field. -/
def holdsField (r : BlockReader) : Bool :=
  !r.block.isEmpty

def closeBlock (r : BlockReader) : BlockReader × Option Event :=
  if r.block.isEmpty then (r, none)
  else
    ({ r with block := {}, lastEventId := r.block.id.or r.lastEventId }, some r.block.toEvent)

/-- Takes in a classified line, and returns the event it completes. -/
def takeField (r : BlockReader) : Option Field → BlockReader × Option Event
  | none => (r, none)
  | some .blank => r.closeBlock
  | some field => ({ r with block := r.block.add field }, none)

/-- Takes in a line.  The first line may begin with a byte-order mark. -/
def take (r : BlockReader) (line : Bytes) : BlockReader × Option Event :=
  if r.begun then r.takeField (Field.ofLine? line)
  else { r with begun := true }.takeField (Field.ofLine? (stripMark line))

/-- Takes in lines, and returns the events they complete, in order. -/
def takeAll (r : BlockReader) (lines : List Line) : BlockReader × List Event :=
  Transducer.run
    (fun r line =>
      match r.take line.bytes with
      | (next, event) => (next, event.toList))
    r lines

def abandon (r : BlockReader) : BlockReader :=
  { r with block := {} }

/-- Ends the stream: a block that is still open is thrown away, which is told if it holds a
field. -/
def close (r : BlockReader) : BlockReader × List Notice :=
  (r.abandon, if r.holdsField then [.record .blockDiscarded] else [])

end BlockReader

end ServerSentEvents
