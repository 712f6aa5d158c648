import ServerSentEvents.BlockReader
import ServerSentEvents.PolledLines

/-!
# Polled events

Polled events poll their lines until these complete an event, or until there is something else to
answer.  The lines still to come grow fewer with every line taken, which is `PolledLines.poll_lt`,
so one poll always comes to an answer.
-/

namespace ServerSentEvents

namespace PolledLines

/-- What is left to be handed out, as far as it can be known without reading it: the items of the
source, then the lines that are ready, then the line that the end of the source may leave. -/
def outlook (s : PolledLines) : Nat × Nat × Nat :=
  (s.source.length, s.ready.length, if s.phase = .over then 0 else 1)

/-- Outlooks are compared by their first difference. -/
abbrev OutlookLt : Nat × Nat × Nat → Nat × Nat × Nat → Prop :=
  Prod.Lex (· < ·) (Prod.Lex (· < ·) (· < ·))

theorem OutlookLt.trans {a b c : Nat × Nat × Nat} (hab : OutlookLt a b) (hbc : OutlookLt b c) :
    OutlookLt a c := by
  simp only [OutlookLt, Prod.lex_def] at *
  omega

theorem outlook_takeEnd_lt (s : PolledLines) (hready : s.ready = [])
    (hreading : s.phase = .reading) (hsource : s.source = []) :
    OutlookLt s.takeEnd.1.outlook s.outlook := by
  simp only [takeEnd, outlook, hready, hreading, hsource]
  exact .right _ (.right _ (by simp))

/-- A poll that does not end the stream leaves less to be handed out. -/
theorem poll_lt (s : PolledLines) (hgoing : s.poll.2.1.isFinal = false) :
    OutlookLt s.poll.1.outlook s.outlook := by
  fun_induction poll s with
  | case1 s first rest hready =>
    simp only [outlook, hready]
    exact .right _ (.left _ _ (by simp))
  | case2 => simp [PollAnswer.isFinal] at hgoing
  | case3 => simp [PollAnswer.isFinal] at hgoing
  | case4 s hready hreading hsource => exact outlook_takeEnd_lt _ hready hreading hsource
  | case5 s hready hreading source hsource =>
    simp only [outlook, hsource]
    exact .left _ _ (by simp)
  | case6 => simp [PollAnswer.isFinal] at hgoing
  | case7 s hready hreading bytes source hsource taken notices htaken next answer later hnext ih =>
    simp only [hnext] at ih
    have hkept : taken.source = source := by
      have hrest := congrArg (·.1.source) htaken
      simpa [takeChunk] using hrest.symm
    have hstart : OutlookLt taken.outlook s.outlook := by
      simp only [outlook, hkept, hsource]
      exact .left _ _ (by simp)
    exact (ih hgoing).trans hstart

end PolledLines

/-- The state of a stream of events. -/
structure PolledEvents where
  lines : PolledLines
  blocks : BlockReader := {}
  /-- How many events have been handed out. -/
  events : Nat := 0

namespace PolledEvents

def counts (s : PolledEvents) : LineCounts :=
  s.lines.counts

/-- The id of the last event that carried one. -/
def lastEventId (s : PolledEvents) : Option String :=
  s.blocks.lastEventId

def supply (s : PolledEvents) (items : List SourceItem) : PolledEvents :=
  { s with lines := s.lines.supply items }

def poll (s : PolledEvents) : PolledEvents × PollAnswer Event × List Notice :=
  match _hpoll : s.lines.poll with
  | (lines, .item line, notices) =>
    match s.blocks.take line.bytes with
    | (blocks, some event) =>
      ({ lines, blocks, events := s.events + 1 }, .item event, notices)
    | (blocks, none) =>
      match poll { s with lines, blocks } with
      | (next, answer, later) => (next, answer, notices ++ later)
  | (lines, .failed error, notices) =>
    ({ s with lines, blocks := s.blocks.abandon }, .failed error, notices)
  | (lines, .pending, notices) => ({ s with lines }, .pending, notices)
  | (lines, .ended, notices) =>
    match s.blocks.close with
    | (blocks, told) => ({ s with lines, blocks }, .ended, notices ++ told)
termination_by s.lines.outlook
decreasing_by
  have hless := s.lines.poll_lt (by rw [_hpoll]; rfl)
  simpa [_hpoll] using hless

/-- A poll that does not end the stream leaves less to be handed out. -/
theorem poll_lt (s : PolledEvents) (hgoing : s.poll.2.1.isFinal = false) :
    PolledLines.OutlookLt s.poll.1.lines.outlook s.lines.outlook := by
  fun_induction poll s with
  | case1 s lines line notices hpolled =>
    have hless := s.lines.poll_lt (by rw [hpolled]; rfl)
    simpa [hpolled] using hless
  | case2 s lines line notices hpolled blocks htaken next answer later hrest ih =>
    simp only [hrest] at ih
    have hless := s.lines.poll_lt (by rw [hpolled]; rfl)
    exact (ih hgoing).trans (by simpa [hpolled] using hless)
  | case3 => simp [PollAnswer.isFinal] at hgoing
  | case4 s lines notices hpolled =>
    have hless := s.lines.poll_lt (by rw [hpolled]; rfl)
    simpa [hpolled] using hless
  | case5 => simp [PollAnswer.isFinal] at hgoing

end PolledEvents

end ServerSentEvents
