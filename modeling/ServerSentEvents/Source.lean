import ServerSentEvents.Bytes

/-!
# Chunk sources

A source is polled for chunks.  It answers with a chunk, with a failure, with the word that nothing
is there yet, and, when it has nothing more, with its end.
-/

namespace ServerSentEvents

/-- What a source has in store. -/
inductive SourceItem where
  | chunk (bytes : Bytes)
  | failure (cause : String)
  /-- The source has nothing at this moment, and answers so once. -/
  | pending
  deriving DecidableEq, Repr

namespace SourceItem

/-- The chunks that come before the source fails. -/
def chunks : List SourceItem → List Bytes
  | [] => []
  | chunk bytes :: rest => bytes :: chunks rest
  | failure _ :: _ => []
  | pending :: rest => chunks rest

/-- The cause with which the source fails, if it does. -/
def failure? : List SourceItem → Option String
  | [] => none
  | chunk _ :: rest => failure? rest
  | failure cause :: _ => some cause
  | pending :: rest => failure? rest

end SourceItem

end ServerSentEvents
