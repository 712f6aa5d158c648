import ServerSentEvents.Source
import ServerSentEvents.Splitter

/-!
# Polled lines

A source is polled only when every line that the bytes so far have completed has been handed out,
so that whoever takes the lines sets the pace.  Lines completed before a failure go out first, and
after its ending the stream answers nothing but its end.
-/

namespace ServerSentEvents

/-- The answer of a stream to one poll. -/
inductive PollAnswer (α : Type) where
  | item (value : α)
  | failed (error : StreamError)
  /-- Nothing is there yet. -/
  | pending
  | ended
  deriving DecidableEq, Repr

/-- Whether a stream that gives this answer has nothing more to give. -/
def PollAnswer.isFinal {α : Type} : PollAnswer α → Bool
  | .item _ => false
  | .failed _ => true
  | .pending => false
  | .ended => true

/-- How far a stream has come. -/
inductive StreamPhase where
  | reading
  /-- A line was too long, which is told once the lines before it are out. -/
  | failing (error : StreamError)
  | over
  deriving DecidableEq, Repr

/-- The state of a stream of lines. -/
structure PolledLines where
  /-- What the source has not given yet. -/
  source : List SourceItem
  splitter : Splitter
  /-- The lines that are complete and not handed out. -/
  ready : List Line := []
  phase : StreamPhase := .reading
  /-- How often the source has been polled. -/
  sourcePolls : Nat := 0

namespace PolledLines

def counts (s : PolledLines) : LineCounts :=
  s.splitter.counts

def supply (s : PolledLines) (items : List SourceItem) : PolledLines :=
  { s with source := s.source ++ items }

/-- Ends the stream before its time: what was not handed out is lost. -/
def stop (s : PolledLines) : PolledLines :=
  { s with phase := .over, splitter := s.splitter.forget, ready := [] }

def takeChunk (s : PolledLines) (chunk : Bytes) : PolledLines × List Notice :=
  match s.splitter.read chunk with
  | (splitter, signals) =>
    ({ s with
        splitter
        ready := s.ready ++ Signal.lines signals
        phase :=
          match splitter.error? with
          | some error => .failing error
          | none => s.phase },
      Signal.notices signals)

/-- Takes in the end of the source, which is told before the open line is resolved. -/
def takeEnd (s : PolledLines) : PolledLines × PollAnswer Line × List Notice :=
  let told : Notice := .record (.sourceEnded s.counts.lines s.counts.oversized)
  match s.splitter.close with
  | (splitter, signals) =>
    ({ s with splitter, phase := .over },
      match (Signal.lines signals).head? with
      | some line => .item line
      | none => .ended,
      told :: Signal.notices signals)

def poll (s : PolledLines) : PolledLines × PollAnswer Line × List Notice :=
  match s.ready with
  | line :: ready => ({ s with ready }, .item line, [])
  | [] =>
    match s.phase with
    | .failing error => (s.stop, .failed error, [])
    | .over => (s, .ended, [])
    | .reading =>
      match _hsource : s.source with
      | [] => { s with sourcePolls := s.sourcePolls + 1 }.takeEnd
      | .pending :: source =>
        ({ s with source, sourcePolls := s.sourcePolls + 1 }, .pending, [])
      | .failure cause :: source =>
        ({ s with source, sourcePolls := s.sourcePolls + 1 }.stop,
          .failed (.transport cause), [])
      | .chunk bytes :: source =>
        match _htaken : { s with source, sourcePolls := s.sourcePolls + 1 }.takeChunk bytes with
        | (taken, notices) =>
          match taken.poll with
          | (next, answer, later) => (next, answer, notices ++ later)
termination_by s.source.length
decreasing_by
  have hkept : taken.source = source := by
    have hrest := congrArg (·.1.source) _htaken
    simpa [takeChunk] using hrest.symm
  simp [hkept, _hsource]

end PolledLines

end ServerSentEvents
