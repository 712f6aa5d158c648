import Mathlib.Data.List.ReduceOption
import ServerSentEvents.Proofs.BlockGrammar
import ServerSentEvents.Proofs.Polling.Events

/-!
# What stands before a block reader

A decoder is a splitter before a block reader, and a stream of events is a stream of lines before
one.  Both ask their block reader for nothing but lines that have come out, for the end of a block
that is thrown away, and for its close; what they ask is computed here from the splitter or from the
answers of the lines alone.  So what is true of every block reader, whatever is asked of it, is
true of both.
-/

namespace ServerSentEvents

namespace BlockReader

theorem respondAll_singleton (r : BlockReader) (request : Request) :
    r.respondAll [request] = ((r.respond request).1, [(r.respond request).2]) :=
  rfl

/-- What is asked leaves the block reader in the next state and completes these events. -/
structure Completes (r : BlockReader) (requests : List Request) (next : BlockReader)
    (events : List Event) : Prop where
  next_eq : (r.respondAll requests).1 = next
  events_eq : (r.respondAll requests).2.reduceOption = events

namespace Completes

variable {r next last : BlockReader} {requests more : List Request} {events later : List Event}

theorem refl (r : BlockReader) : r.Completes [] r [] :=
  ⟨rfl, rfl⟩

theorem trans (first : r.Completes requests next events) (second : next.Completes more last later) :
    r.Completes (requests ++ more) last (events ++ later) := by
  constructor
  · rw [respondAll_append, first.next_eq, second.next_eq]
  · rw [respondAll_append, first.next_eq, List.reduceOption_append, first.events_eq,
      second.events_eq]

/-- What is asked decides the state and the events. -/
theorem unique {other : BlockReader} {completed : List Event}
    (h : r.Completes requests next events) (h' : r.Completes requests other completed) :
    next = other ∧ events = completed :=
  ⟨h.next_eq.symm.trans h'.next_eq, h.events_eq.symm.trans h'.events_eq⟩

theorem of_respond {r next : BlockReader} (request : Request) {completed : Option Event}
    (hresponded : r.respond request = (next, completed)) :
    r.Completes [request] next completed.toList := by
  constructor
  · rw [respondAll_singleton, hresponded]
  · rw [respondAll_singleton, hresponded]
    cases completed <;> rfl

theorem takeAll (r : BlockReader) (lines : List Line) :
    r.Completes (lines.map fun line => .take line.bytes) (r.takeAll lines).1
      (r.takeAll lines).2 := by
  induction lines generalizing r with
  | nil => exact .refl r
  | cons line lines ih =>
      rw [takeAll_cons]
      exact (of_respond (.take line.bytes) rfl).trans (ih _)

end Completes

end BlockReader

namespace Decoder

/-! ## Decoders -/

/-- What can be asked of a decoder. -/
inductive Request where
  | read (chunk : Bytes)
  | close
  deriving DecidableEq, Repr

/-- Does what is asked, and returns the events that this completes. -/
def respond (d : Decoder) : Request → Decoder × List Event
  | .read chunk => ((d.read chunk).1, (d.read chunk).2.1)
  | .close => (d.close.1, [])

def respondAll (d : Decoder) (requests : List Request) : Decoder × List Event :=
  Transducer.run respond d requests

theorem respondAll_cons (d : Decoder) (request : Request) (requests : List Request) :
    d.respondAll (request :: requests) =
      (((d.respond request).1.respondAll requests).1,
        (d.respond request).2 ++ ((d.respond request).1.respondAll requests).2) :=
  Transducer.run_cons respond d request requests

/-- What a decoder with this splitter asks of its block reader: to take the lines that the splitter
emits, and to throw the open block away where it fails. -/
def Request.blockRequests (s : Splitter) : Request → List BlockReader.Request
  | .read chunk =>
    (Signal.lines (s.read chunk).2).map (.take ·.bytes) ++
      if (s.read chunk).1.hasFailed then [.abandon] else []
  | .close => [.close]

/-- The splitter after a request. -/
def Request.splitter (s : Splitter) : Request → Splitter
  | .read chunk => (s.read chunk).1
  | .close => s.close.1

/-- All that requests of a decoder ask of its block reader. -/
def asked (s : Splitter) (requests : List Request) : List BlockReader.Request :=
  (Transducer.run (fun s request => (request.splitter s, request.blockRequests s)) s requests).2

theorem asked_cons (s : Splitter) (request : Request) (requests : List Request) :
    asked s (request :: requests) =
      request.blockRequests s ++ asked (request.splitter s) requests := by
  rw [asked, Transducer.run_cons]
  rfl

theorem splitter_respond (d : Decoder) (request : Request) :
    (d.respond request).1.splitter = request.splitter d.splitter := by
  cases request <;> rfl

theorem completes_respond (d : Decoder) (request : Request) :
    d.blocks.Completes (request.blockRequests d.splitter) (d.respond request).1.blocks
      (d.respond request).2 := by
  cases request with
  | read chunk =>
      have htaken := BlockReader.Completes.takeAll d.blocks
        (Signal.lines (d.splitter.read chunk).2)
      rw [Request.blockRequests, respond, read]
      split
      · next hfailed =>
          simpa [hfailed] using htaken.trans (.of_respond .abandon rfl)
      · next hgoing => simpa [hgoing] using htaken
  | close => exact .of_respond .close rfl

/-- Whatever is asked of a decoder, its block reader has been asked for no more than this, and the
decoder returns what it completes. -/
theorem completes_respondAll (d : Decoder) (requests : List Request) :
    d.blocks.Completes (asked d.splitter requests) (d.respondAll requests).1.blocks
      (d.respondAll requests).2 := by
  induction requests generalizing d with
  | nil => exact .refl d.blocks
  | cons request requests ih =>
      have hrest := ih (d.respond request).1
      rw [splitter_respond] at hrest
      rw [asked_cons, respondAll_cons]
      exact (d.completes_respond request).trans hrest

end Decoder

/-! ## Polled events -/

/-- What an answer of a stream of lines asks of the block reader behind it. -/
def PollAnswer.blockRequest? : PollAnswer Line → Option BlockReader.Request
  | .item line => some (.take line.bytes)
  | .failed _ => some .abandon
  | .pending => none
  | .ended => some .close

namespace PolledEvents

open PollAnswer

/-- What so many polls of the lines ask of the block reader. -/
def asked (s : PolledEvents) (polls : Nat) : List BlockReader.Request :=
  (pollTimes PolledLines.poll s.lines polls).2.1.filterMap blockRequest?

theorem asked_one (s : PolledEvents) : s.asked 1 = s.lines.poll.2.1.blockRequest?.toList := by
  rw [asked, pollTimes, pollTimes]
  cases hrequest : s.lines.poll.2.1.blockRequest? <;> simp [hrequest]

/-- From one state to the other the lines were polled so many times, and the block reader completed
these events out of the answers. -/
structure Draws (s : PolledEvents) (polls : Nat) (next : PolledEvents) (events : List Event) :
    Prop where
  lines_eq : (pollTimes PolledLines.poll s.lines polls).1 = next.lines
  completes : s.blocks.Completes (s.asked polls) next.blocks events

namespace Draws

variable {s next last : PolledEvents} {polls more : Nat} {events later : List Event}

theorem refl (s : PolledEvents) : Draws s 0 s [] :=
  ⟨rfl, .refl s.blocks⟩

theorem trans (first : Draws s polls next events) (second : Draws next more last later) :
    Draws s (polls + more) last (events ++ later) := by
  have hasked : s.asked (polls + more) = s.asked polls ++ next.asked more := by
    rw [asked, pollTimes_add, first.lines_eq, List.filterMap_append]
    rfl
  refine ⟨?_, ?_⟩
  · rw [pollTimes_add, first.lines_eq, second.lines_eq]
  · rw [hasked]
    exact first.completes.trans second.completes

/-- One poll of the lines, by what its answer asks of the block reader. -/
theorem of_poll {lines : PolledLines} {answer : PollAnswer Line} {notices : List Notice}
    (hpolled : s.lines.poll = (lines, answer, notices)) (hlines : next.lines = lines)
    (hcompletes : s.blocks.Completes answer.blockRequest?.toList next.blocks events) :
    Draws s 1 next events := by
  have hasked : s.asked 1 = answer.blockRequest?.toList := by rw [asked_one, hpolled]
  refine ⟨?_, hasked ▸ hcompletes⟩
  rw [hlines, pollTimes, hpolled]
  rfl

end Draws

/-- One poll draws lines that complete nothing, and then what settles its answer. -/
theorem exists_draws_poll (s : PolledEvents) :
    ∃ polls before, Draws s polls before [] ∧ Draws before 1 s.poll.1 (items [s.poll.2.1]) := by
  fun_induction poll s with
  | case1 s lines line notices hpolled blocks event htaken =>
      exact ⟨0, s, .refl s, .of_poll hpolled rfl (.of_respond (.take line.bytes) htaken)⟩
  | case2 s lines line notices hpolled blocks htaken next answer later hrest ih =>
      obtain ⟨polls, before, hbefore, hlast⟩ := ih
      rw [hrest] at hlast
      have hfirst : Draws s 1 { s with lines, blocks } [] :=
        .of_poll hpolled rfl (.of_respond (.take line.bytes) htaken)
      exact ⟨1 + polls, before, hfirst.trans hbefore, hlast⟩
  | case3 s lines error notices hpolled =>
      exact ⟨0, s, .refl s, .of_poll hpolled rfl (.of_respond .abandon rfl)⟩
  | case4 s lines notices hpolled =>
      exact ⟨0, s, .refl s, .of_poll hpolled rfl (.refl s.blocks)⟩
  | case5 s lines notices hpolled blocks told hclosed =>
      obtain ⟨rfl, -⟩ := Prod.mk.inj hclosed
      exact ⟨0, s, .refl s, .of_poll hpolled rfl (.of_respond .close rfl)⟩

/-- Whatever polls are made of the events, they draw what some polls of the lines answer. -/
theorem exists_draws_pollTimes (s : PolledEvents) (n : Nat) :
    ∃ polls, Draws s polls (pollTimes poll s n).1 (items (pollTimes poll s n).2.1) := by
  induction n with
  | zero => exact ⟨0, .refl s⟩
  | succ n ih =>
      obtain ⟨polls, hdraws⟩ := ih
      obtain ⟨more, before, hbefore, hlast⟩ := exists_draws_poll (pollTimes poll s n).1
      refine ⟨polls + (more + 1), ?_⟩
      rw [pollTimes_succ]
      simpa [items_append] using hdraws.trans (hbefore.trans hlast)

end PolledEvents

end ServerSentEvents
