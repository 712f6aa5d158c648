import ServerSentEvents.Proofs.Composition

/-!
# The id to resume from

A reader keeps two ids: that of the block it reads and that of the last event that carried one.
What has been handed out decides the second alone (`BlockReader.lastEventId_respondAll`), and an
event carries an id only where the line of the id and the blank line after it have both been taken,
with nothing in between that throws the block away (`BlockReader.Completes.remembers`).  Decoders
and polled streams have this from the block reader behind them.
-/

namespace ServerSentEvents

namespace Event

/-- The id of the last of these events that carries one. -/
def lastId (events : List Event) : Option String :=
  (events.filterMap (·.id)).getLast?

theorem lastId_append (a b : List Event) : lastId (a ++ b) = (lastId b).or (lastId a) := by
  rw [lastId, List.filterMap_append, List.getLast?_append]
  rfl

theorem exists_mem_of_lastId {events : List Event} {id : String} (hlast : lastId events = some id) :
    ∃ e ∈ events, e.id = some id :=
  List.mem_filterMap.mp (List.mem_of_getLast? hlast)

end Event

namespace BlockReader

/-! ## Ids that are remembered -/

theorem lastEventId_takeField (r : BlockReader) (field : Option Field) :
    (r.takeField field).1.lastEventId =
      (Event.lastId (r.takeField field).2.toList).or r.lastEventId := by
  by_cases hblank : field = some .blank
  · subst hblank
    rw [takeField, closeBlock]
    split
    · rfl
    · cases hid : r.block.id <;> simp [Event.lastId, Block.toEvent, hid]
  · obtain ⟨hnone, hkept⟩ := r.takeField_of_ne_blank hblank
    rw [hnone, hkept]
    rfl

theorem lastEventId_respond (r : BlockReader) (request : Request) :
    (r.respond request).1.lastEventId =
      (Event.lastId (r.respond request).2.toList).or r.lastEventId := by
  cases request with
  | take line =>
      rw [respond, take_eq_takeField]
      exact lastEventId_takeField { r with begun := true } _
  | abandon => rfl
  | close => rfl

/-- Events without an id, blocks that are thrown away and the end of the stream leave the id as it
was; any other change is the doing of an event that is handed out. -/
theorem lastEventId_respondAll (r : BlockReader) (requests : List Request) :
    (r.respondAll requests).1.lastEventId =
      (Event.lastId (r.respondAll requests).2.reduceOption).or r.lastEventId := by
  induction requests using List.reverseRecOn with
  | nil => rfl
  | append_singleton requests request ih =>
      rw [respondAll_concat, lastEventId_respond, ih, List.reduceOption_append,
        Event.lastId_append, Option.or_assoc]
      cases ((r.respondAll requests).1.respond request).2 <;> rfl

/-- The line of this id was taken, and after it a blank line, before the block was cut off. -/
def Request.ClosesId (requests : List Request) (id : String) : Prop :=
  ∃ before line between after,
    requests = before ++ .take line :: (between ++ .take [] :: after) ∧
      Field.ofLine? line = some (.id id) ∧ ∀ request ∈ between, request.isCut = false

open Request

/-- An id among the fields of the open block is that of a line that was taken since the last cut. -/
theorem Request.exists_line_of_mem_openFields {requests : List Request} {id : String}
    (hmem : Field.id id ∈ openFields requests) :
    ∃ before line between, requests = before ++ .take line :: between ∧
      Field.ofLine? line = some (.id id) ∧ ∀ request ∈ between, request.isCut = false := by
  obtain ⟨request, hrequest, hcarries⟩ := List.mem_filterMap.mp (List.mem_filter.mp hmem).1
  obtain ⟨skipped, between, hsplit⟩ := List.append_of_mem hrequest
  obtain ⟨before, hbefore⟩ := List.rtakeWhile_suffix (!·.isCut) requests
  cases request with
  | abandon => cases hcarries
  | close => cases hcarries
  | take line =>
      refine ⟨before ++ skipped, line, between, ?_, hcarries, ?_⟩
      · rw [← hbefore, hsplit, List.append_assoc]
      · intro request hbetween
        have hopen : request ∈ requests.rtakeWhile (!·.isCut) := by
          rw [hsplit]
          exact List.mem_append_right _ (List.mem_cons_of_mem _ hbetween)
        simpa using List.mem_rtakeWhile_imp hopen

/-- The id of an event that the grammar completes stands among the fields of its block. -/
theorem Request.mem_openFields_of_answer? {earlier : List Request} {request : Request} {e : Event}
    (hanswer : answer? earlier request = some e) {id : String} (hid : e.id = some id) :
    request = .take [] ∧ Field.id id ∈ openFields earlier := by
  cases request with
  | abandon => cases hanswer
  | close => cases hanswer
  | take blank =>
      obtain ⟨⟨hblank, -⟩, rfl⟩ :
          (Field.ofLine? blank = some .blank ∧ openFields earlier ≠ []) ∧
            Event.ofFields (openFields earlier) = e := by
        simpa [answer?] using hanswer
      refine ⟨congrArg _ (Field.ofLine?_eq_blank_iff.mp hblank), ?_⟩
      obtain ⟨field, hfield, hvalue⟩ := List.mem_filterMap.mp (List.mem_of_getLast? hid)
      cases field with
      | id value =>
          obtain rfl : value = id := Option.some.inj hvalue
          exact hfield
      | _ => cases hvalue

/-- What a block reader remembers is the id of an event it has handed out, and stood in a block that
a blank line closed. -/
structure Remembers (requests : List Request) (events : List Event) (lastEventId : Option String) :
    Prop where
  handed : lastEventId = Event.lastId events
  closed : ∀ id, lastEventId = some id → ClosesId (unmarkFirst requests) id

theorem Completes.remembers {requests : List Request} {r : BlockReader} {events : List Event}
    (h : Completes {} requests r events) : Remembers requests events r.lastEventId := by
  have hhanded : r.lastEventId = Event.lastId events := by
    rw [← h.next_eq, ← h.events_eq, lastEventId_respondAll, Option.or_none]
  refine ⟨hhanded, ?_⟩
  intro id hlast
  rw [hhanded] at hlast
  obtain ⟨e, he, hid⟩ := Event.exists_mem_of_lastId hlast
  rw [← h.events_eq, List.reduceOption_mem_iff] at he
  obtain ⟨k, hk⟩ := List.mem_iff_getElem?.mp he
  rw [getElem?_respondAll] at hk
  obtain ⟨request, hrequest, hanswer⟩ := Option.map_eq_some_iff.mp hk
  obtain ⟨rfl, hmem⟩ := mem_openFields_of_answer? hanswer hid
  obtain ⟨before, line, between, hearlier, hline, hopen⟩ := exists_line_of_mem_openFields hmem
  refine ⟨before, line, between, (unmarkFirst requests).drop (k + 1), ?_, hline, hopen⟩
  obtain ⟨hlt, hget⟩ := List.getElem?_eq_some_iff.mp hrequest
  calc unmarkFirst requests
      = (unmarkFirst requests).take k ++ (unmarkFirst requests).drop k :=
        (List.take_append_drop _ _).symm
    _ = before ++ .take line :: (between ++ .take [] :: (unmarkFirst requests).drop (k + 1)) := by
        rw [hearlier, List.drop_eq_getElem_cons hlt, hget]
        simp

end BlockReader

/-! ## Whatever stands before the block reader -/

open BlockReader (Remembers)

/-- After whatever is asked of a block reader or of a decoder, and after every poll of a stream of
events, the last event id is that of the last event handed out that carried one.  Its line has been
taken, out of lines that were emitted, and so has the blank line that closed its block. -/
theorem lastEventId_remembers (limits : LineLimits) (hpos : 0 < limits.maxSize) :
    (∀ requests,
      let ran := ({} : BlockReader).respondAll requests
      Remembers requests ran.2.reduceOption ran.1.lastEventId) ∧
    (∀ requests,
      let ran := (Decoder.start limits hpos).respondAll requests
      Remembers (Decoder.asked (.start limits hpos) requests) ran.2 ran.1.lastEventId) ∧
    ∀ source n,
      let start := PolledEvents.start limits hpos source
      let polled := pollTimes PolledEvents.poll start n
      ∃ polls, polled.1.lines = (pollTimes PolledLines.poll start.lines polls).1 ∧
        Remembers (start.asked polls) (PollAnswer.items polled.2.1) polled.1.lastEventId := by
  refine ⟨?_, ?_, ?_⟩
  · intro requests
    exact BlockReader.Completes.remembers ⟨rfl, rfl⟩
  · intro requests
    exact ((Decoder.start limits hpos).completes_respondAll requests).remembers
  · intro source n
    obtain ⟨polls, hdraws⟩ := (PolledEvents.start limits hpos source).exists_draws_pollTimes n
    exact ⟨polls, hdraws.lines_eq.symm, hdraws.completes.remembers⟩

/-- Neither the id of a line that is skipped, nor that of a block that is open at the end, nor an
event without an id takes the place of an id that is empty. -/
theorem lastEventId_remembers_of_emptyId :
    let requests : List Decoder.Request := [.read (Utf8.encode "id\n\nid: 1\n"), .close,
      .read (Utf8.encode "data\nid:234\n\nid")]
    let ran := (Decoder.start ⟨5, .logAndSkip⟩ (by decide)).respondAll requests
    ran.1.lastEventId = some "" ∧
      ran.2 = [⟨none, some "", none, ""⟩, ⟨none, none, none, ""⟩] := by
  intro requests ran
  have hevents : ran.2 = [⟨none, some "", none, ""⟩, ⟨none, none, none, ""⟩] := by
    simp only [ran, requests, Decoder.respondAll_cons, Decoder.respond, Decoder.read,
      Splitter.read_eq_run]
    decide +kernel
  obtain ⟨-, hdecoder, -⟩ := lastEventId_remembers ⟨5, .logAndSkip⟩ (by decide)
  refine ⟨?_, hevents⟩
  rw [(hdecoder requests).handed]
  exact congrArg Event.lastId hevents

end ServerSentEvents
