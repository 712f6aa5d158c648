import ServerSentEvents.PolledEvents
import ServerSentEvents.Proofs.ChunkBoundaries
import ServerSentEvents.Proofs.Notices
import ServerSentEvents.Proofs.Polling.Lines
import ServerSentEvents.Proofs.Splitter.WholeStream

/-!
# Polled events against the push decoder

A stream of events takes the lines of a stream of lines into its blocks, one a poll, and takes in
the line that the end of the source leaves as well.  The push decoder takes in the lines of a whole
chunk and never that last one.  The forecast of the events is computed from the forecast of the
lines; it is what the decoder returns, because the last line completes no event.
-/

namespace ServerSentEvents

namespace BlockReader

/-! ## From lines to events -/

/-- What the answers of a stream of lines make of blocks: the last state, the answers of the
stream of events, and what the end of the stream makes known. -/
def relay (r : BlockReader) :
    List (PollAnswer Line) → BlockReader × List (PollAnswer Event) × List Notice
  | [] => (r.close.1, [], r.close.2)
  | .item line :: rest =>
    let taken := r.take line.bytes
    let later := taken.1.relay rest
    (later.1, taken.2.toList.map .item ++ later.2.1, later.2.2)
  | .failed error :: _ => (r.abandon, [.failed error], [])
  | .pending :: rest => r.relay rest
  | .ended :: rest => r.relay rest

theorem relay_items (r : BlockReader) (lines : List Line) (rest : List (PollAnswer Line)) :
    r.relay (lines.map .item ++ rest) =
      let taken := r.takeAll lines
      let later := taken.1.relay rest
      (later.1, taken.2.map .item ++ later.2.1, later.2.2) := by
  induction lines generalizing r with
  | nil => rfl
  | cons line lines ih =>
      rw [List.map_cons, List.cons_append, relay, ih, takeAll_cons]
      simp

/-- All that blocks have to tell of the answers is that one was thrown away. -/
theorem eq_of_mem_records_relay {r : BlockReader} {answers : List (PollAnswer Line)}
    {record : LogRecord} (hrecord : record ∈ Notice.records (r.relay answers).2.2) :
    record = .blockDiscarded := by
  induction answers generalizing r with
  | nil =>
      rw [relay, records_close] at hrecord
      split at hrecord
      · exact List.mem_singleton.mp hrecord
      · cases hrecord
  | cons answer answers ih =>
      cases answer with
      | item line => exact ih hrecord
      | failed error => cases hrecord
      | pending => exact ih hrecord
      | ended => exact ih hrecord

/-- A reader that holds no block has nothing to tell in the end. -/
theorem close_of_abandon {r : BlockReader} (hr : r.abandon = r) : r.close = (r, []) := by
  rw [← hr]
  rfl

end BlockReader

namespace PolledEvents

/-- All that a stream of events will still answer and make known. -/
def forecast (s : PolledEvents) : Forecast Event (Splitter × BlockReader) :=
  let lines := s.lines.forecast
  let told := s.blocks.relay lines.answers
  { answers := told.2.1
    notices := lines.notices ++ told.2.2
    waits := lines.waits
    final := (lines.final, told.1) }

/-- What is left when a stream of events is over. -/
def view (s : PolledEvents) : Splitter × BlockReader :=
  (s.lines.splitter, s.blocks)

/-- A stream of events that reads has not failed. -/
def Sound (s : PolledEvents) : Prop :=
  s.lines.Sound

/-! ## One poll -/

theorem poll_of_over {s : PolledEvents} (hlines : s.lines.poll = (s.lines, .ended, []))
    (hblocks : s.blocks.abandon = s.blocks) : s.poll = (s, .ended, []) := by
  have hclose := BlockReader.close_of_abandon hblocks
  unfold poll
  split
  · next hpolled => cases hlines.symm.trans hpolled
  · next hpolled => cases hlines.symm.trans hpolled
  · next hpolled => cases hlines.symm.trans hpolled
  · next hpolled =>
      cases hlines.symm.trans hpolled
      simp [hclose]

/-- What one poll of a stream of events has to show. -/
abbrev Meets (f : Forecast Event (Splitter × BlockReader))
    (polled : PolledEvents × PollAnswer Event × List Notice) : Prop :=
  Forecast.Meets poll forecast view Sound f polled

theorem meets_of_over {f : Forecast Event (Splitter × BlockReader)} {s : PolledEvents}
    {answer : PollAnswer Event} {notices : List Notice} (hs : s.Sound)
    (hlines : s.lines.poll = (s.lines, .ended, [])) (hblocks : s.blocks.abandon = s.blocks)
    (hnotices : f.notices = notices) (hfinal : f.final = s.view)
    (hanswers : f.EndsWith s.forecast.waits answer) : Meets f (s, answer, notices) := by
  obtain ⟨hnone, hsilent, hstill⟩ := PolledLines.foretold.forecast_of_over hs hlines
  have hclose := BlockReader.close_of_abandon hblocks
  refine Forecast.meets_of_over hs (poll_of_over hlines hblocks) ?_ ?_ ?_ hnotices hfinal hanswers
  · simp [forecast, hnone, BlockReader.relay]
  · simp [forecast, hnone, hsilent, BlockReader.relay, hclose]
  · simp [forecast, view, hnone, hstill, BlockReader.relay, hclose]

/-- Every poll of a stream of events gives what was foretold. -/
theorem foretold : Foretold poll forecast view Sound := by
  intro s hs
  fun_induction poll s with
  | case1 s lines line notices hpolled blocks event htaken =>
      obtain ⟨hkept, ⟨hnotices, hfinal, hanswers⟩, -⟩ := PolledLines.meets_of_poll hs hpolled
      refine ⟨hkept, ⟨?_, ?_, ?_, hanswers.2⟩, by simp [PollAnswer.isFinal]⟩
      · simp [forecast, hnotices, hanswers.1, BlockReader.relay, htaken]
      · simp [forecast, hfinal, hanswers.1, BlockReader.relay, htaken]
      · simp [forecast, hanswers.1, BlockReader.relay, htaken]
  | case2 s lines line notices hpolled blocks htaken next answer later hrest ih =>
      obtain ⟨hkept, ⟨hnotices, hfinal, hanswers⟩, -⟩ := PolledLines.meets_of_poll hs hpolled
      have hmeets := ih hkept
      rw [hrest] at hmeets
      refine hmeets.after ?_ ?_ ?_ hanswers.2
      · simp [forecast, hanswers.1, BlockReader.relay, htaken]
      · simp [forecast, hnotices, hanswers.1, BlockReader.relay, htaken]
      · simp [forecast, hfinal, hanswers.1, BlockReader.relay, htaken]
  | case3 s lines error notices hpolled =>
      obtain ⟨hkept, ⟨-, -, hanswers⟩, hover⟩ := PolledLines.meets_of_poll hs hpolled
      obtain ⟨hlines, hnotices, hfinal⟩ := hover rfl
      obtain ⟨hnone, -, -⟩ := PolledLines.foretold.forecast_of_over hkept hlines
      have hlast : s.lines.forecast.answers = [.failed error] := by
        rw [hanswers.1]
        exact congrArg _ hnone
      refine meets_of_over hkept hlines rfl ?_ ?_ ⟨?_, hanswers.2⟩
      · simp [forecast, hlast, ← hnotices, BlockReader.relay]
      · simp [forecast, view, hlast, ← hfinal, BlockReader.relay]
      · simp [forecast, hlast, BlockReader.relay]
  | case4 s lines notices hpolled =>
      obtain ⟨hkept, ⟨hnotices, hfinal, hanswers⟩, -⟩ := PolledLines.meets_of_poll hs hpolled
      refine ⟨hkept, ⟨?_, ?_, ?_, hanswers.2⟩, by simp [PollAnswer.isFinal]⟩
      · simp [forecast, hnotices, hanswers.1]
      · simp [forecast, hfinal, hanswers.1]
      · simp [forecast, hanswers.1]
  | case5 s lines notices hpolled blocks told hclosed =>
      obtain ⟨hkept, ⟨-, -, hanswers⟩, hover⟩ := PolledLines.meets_of_poll hs hpolled
      obtain ⟨hlines, hnotices, hfinal⟩ := hover rfl
      obtain ⟨rfl, rfl⟩ := Prod.mk.inj hclosed
      refine meets_of_over hkept hlines rfl ?_ ?_ ?_
      · simp [forecast, hanswers.1, ← hnotices, BlockReader.relay, BlockReader.close]
      · simp [forecast, view, hanswers.1, ← hfinal, BlockReader.relay, BlockReader.close]
      · simp [Forecast.EndsWith, forecast, hanswers.1, BlockReader.relay]

end PolledEvents

namespace Decoder

/-! ## Whole streams -/

/-- What becomes of a decoder that has been handed all chunks when the source then fails or ends:
the decoder is closed where nothing has failed, and any failure is the last answer. -/
def ending (d : Decoder) (failure? : Option String) :
    Decoder × List (PollAnswer Event) × List Notice :=
  match d.error?, failure? with
  | some error, _ => (d, [.failed error], [])
  | none, some cause => (d, [.failed (.transport cause)], [])
  | none, none => (d.close.1, [], d.close.2)

theorem lastEventId_ending (d : Decoder) (failure? : Option String) :
    (d.ending failure?).1.lastEventId = d.lastEventId := by
  unfold ending
  split <;> rfl

/-- The line that the end of the source leaves makes no difference to the events. -/
theorem relay_ending {s : Splitter} {r : BlockReader} (hr : r.Sound)
    (hclose : ∀ line ∈ Signal.lines s.close.2, line.bytes ≠ []) (failure? : Option String) :
    let d : Decoder := { splitter := s, blocks := if s.hasFailed then r.abandon else r }
    let told := r.relay (s.ending failure?).answers
    told.2.1 = (d.ending failure?).2.1 ∧
      told.1.lastEventId = (d.ending failure?).1.lastEventId ∧
      (s.ending failure?).final.counts = (d.ending failure?).1.counts ∧
      Notice.diagnostics ((s.ending failure?).notices ++ told.2.2) =
        Notice.diagnostics (d.ending failure?).2.2 := by
  cases herror : s.error? with
  | some error =>
      have hfailed := Splitter.hasFailed_of_error? herror
      simp [ending, error?, Splitter.ending, herror, hfailed, BlockReader.relay, lastEventId,
        counts]
  | none =>
      have hgoing := Splitter.error?_eq_none_iff.mp herror
      cases failure? with
      | some cause =>
          simp [ending, error?, Splitter.ending, herror, hgoing, BlockReader.relay, lastEventId,
            counts]
      | none =>
          have hquiet := BlockReader.takeAll_of_ne_nil hr hclose
          have hrelay := r.relay_items (Signal.lines s.close.2) []
          rw [List.append_nil] at hrelay
          simp only [ending, error?, Splitter.ending, herror, hgoing, hrelay, hquiet.1]
          refine ⟨rfl, hquiet.2, rfl, ?_⟩
          simp [BlockReader.relay, BlockReader.diagnostics_close, close]

end Decoder

namespace PolledEvents

/-- The stream of events that reads this source from its start. -/
def start (limits : LineLimits) (hpos : 0 < limits.maxSize) (source : List SourceItem) :
    PolledEvents :=
  { lines := .start limits hpos source }

theorem forecast_start (limits : LineLimits) (hpos : 0 < limits.maxSize)
    (source : List SourceItem) :
    let f := (start limits hpos source).forecast
    let fed := (Decoder.start limits hpos).readAll (SourceItem.chunks source)
    let ended := fed.1.ending (SourceItem.failure? source)
    f.answers = fed.2.1.map .item ++ ended.2.1 ∧
      f.final.2.lastEventId = ended.1.lastEventId ∧
      f.final.1.counts = ended.1.counts ∧
      Notice.diagnostics f.notices = Notice.diagnostics (fed.2.2 ++ ended.2.2) := by
  have hreads := Splitter.Reads.readAll limits hpos (SourceItem.chunks source)
  have hsound := BlockReader.sound_takeAll BlockReader.sound_start
    (Signal.lines ((Splitter.start limits hpos).readAll (SourceItem.chunks source)).2)
  have hending := Decoder.relay_ending hsound hreads.ne_nil_of_mem_close
    (SourceItem.failure? source)
  rw [Decoder.readAll_eq (Decoder.sound_start limits hpos)]
  simp only [forecast, start, PolledLines.forecast_start, Splitter.forecast, Decoder.start,
    BlockReader.relay_items]
  obtain ⟨hanswers, hid, hcounts, hdiagnostics⟩ := hending
  refine ⟨congrArg (_ ++ ·) hanswers, hid, hcounts, ?_⟩
  rw [List.append_assoc, Notice.diagnostics_append, hdiagnostics]
  exact (Notice.diagnostics_append _ _).symm

/-- A stream of events that is polled to its end answers the events that a decoder returns for the
chunks of the same source, and ends as the decoder does, or with the failure of the source.  Then
the last event id, the counters and the diagnostics are the decoder's.  A decoder that fails in one
chunk has failed in the end. -/
theorem pollTimes_eq_readAll (limits : LineLimits) (hpos : 0 < limits.maxSize)
    (source : List SourceItem) (n : Nat) :
    let fed := (Decoder.start limits hpos).readAll (SourceItem.chunks source)
    let ended := fed.1.ending (SourceItem.failure? source)
    let told := fed.2.1.map .item ++ ended.2.1
    let polled := pollTimes poll (start limits hpos source) n
    PollAnswer.given polled.2.1 <+: told ++ List.replicate n .ended ∧
      (told.length + SourceItem.waits source ≤ n → told <+: PollAnswer.given polled.2.1) ∧
      (told.length + SourceItem.waits source < n →
        polled.1.lastEventId = ended.1.lastEventId ∧ ended.1.lastEventId = fed.1.lastEventId ∧
          polled.1.counts = ended.1.counts ∧
          Notice.diagnostics polled.2.2 = Notice.diagnostics (fed.2.2 ++ ended.2.2)) ∧
      ∀ error, fed.1.error? = some error ↔
        ∃ chunks, chunks <+: SourceItem.chunks source ∧
          ((Decoder.start limits hpos).readAll chunks).1.error? = some error := by
  have hsound : (start limits hpos source).Sound := PolledLines.sound_start limits hpos source
  obtain ⟨hanswers, hid, hcounts, hdiagnostics⟩ := forecast_start limits hpos source
  have hfirst := foretold.given_isPrefix hsound n
  have hwhole := foretold.answers_isPrefix hsound (n := n)
  have hsettled := foretold.settled hsound (n := n)
  rw [hanswers] at hfirst hwhole hsettled
  refine ⟨hfirst, hwhole, ?_, ?_⟩
  · intro henough
    obtain ⟨hnotices, hview⟩ := hsettled henough
    refine ⟨?_, Decoder.lastEventId_ending _ _, ?_, ?_⟩
    · rw [← hid, ← hview]
      rfl
    · rw [← hcounts, ← hview]
      rfl
    · rw [hnotices, hdiagnostics]
  · intro error
    constructor
    · intro herror
      exact ⟨_, List.prefix_rfl, herror⟩
    · rintro ⟨chunks, hchunks, herror⟩
      exact Decoder.error?_readAll_of_isPrefix (Decoder.sound_start limits hpos) hchunks herror

/-- The line that the end of the source leaves is counted, and completes no event. -/
theorem pollTimes_eq_readAll_of_end :
    let source := [.chunk [0x69, 0x64, 0x0d], .pending, .chunk [0x0a, 0x0a, 0x64, 0x61]]
    let polled := pollTimes poll (start ⟨3, .truncate⟩ (by decide) source) 3
    [.item ⟨none, some "", none, ""⟩] <+: PollAnswer.given polled.2.1 ∧
      polled.1.lastEventId = some "" ∧ polled.1.counts = ⟨3, 0, 0, 0⟩ := by
  obtain ⟨-, hwhole, hsettled, -⟩ := pollTimes_eq_readAll ⟨3, .truncate⟩ (by decide)
    [.chunk [0x69, 0x64, 0x0d], .pending, .chunk [0x0a, 0x0a, 0x64, 0x61]] 3
  rw [Decoder.readAll_eq (Decoder.sound_start _ _), Splitter.readAll_eq_run] at hwhole hsettled
  obtain ⟨hid, -, hcounts, -⟩ := hsettled (by decide)
  exact ⟨hwhole (by decide), hid, hcounts⟩

end PolledEvents

end ServerSentEvents
