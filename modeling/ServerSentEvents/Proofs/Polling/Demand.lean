import ServerSentEvents.Proofs.Composition
import ServerSentEvents.Proofs.Polling.Pulling

/-!
# Sources are read on demand

What is known of the polls of a source by a stream of lines holds of a stream of events as well: its
polls are polls of the lines, and until the lines come to their end the block reader is asked for
nothing but to take them.  So the events that wait are those of the lines that wait, and an event
comes with the blank line that completes it.
-/

namespace ServerSentEvents

namespace BlockReader

theorem sound_respond (r : BlockReader) (request : Request) : (r.respond request).1.Sound := by
  cases request with
  | take line => exact r.sound_take line
  | abandon => exact fun _ => rfl
  | close => exact fun _ => rfl

theorem Completes.sound {r next : BlockReader} {requests : List Request} {events : List Event}
    (h : r.Completes requests next events) (hr : r.Sound) : next.Sound := by
  obtain ⟨rfl, -⟩ := h
  induction requests using List.reverseRecOn with
  | nil => exact hr
  | append_singleton requests request ih =>
      rw [respondAll_concat]
      exact sound_respond _ request

end BlockReader

namespace PolledEvents

open PollAnswer

/-- Until the lines come to their end, they are all that is asked of the block reader. -/
theorem filterMap_blockRequest? {answers : List (PollAnswer Line)}
    (hgoing : ∀ answer ∈ answers, answer.isFinal = false) :
    answers.filterMap blockRequest? = (items answers).map fun line => .take line.bytes := by
  induction answers with
  | nil => rfl
  | cons answer answers ih =>
      obtain ⟨hfirst, hothers⟩ := List.forall_mem_cons.mp hgoing
      have hrest := ih hothers
      cases answer with
      | item line => exact congrArg (BlockReader.Request.take line.bytes :: ·) hrest
      | pending => exact hrest
      | failed error => cases hfirst
      | ended => cases hfirst

variable {s next : PolledEvents} {polls : Nat} {events : List Event}

/-- While nothing is completed, there is a state after each of the polls. -/
theorem Draws.exists_of_le (h : Draws s polls next []) {fewer : Nat} (hle : fewer ≤ polls) :
    ∃ mid, Draws s fewer mid [] := by
  obtain ⟨more, rfl⟩ := Nat.exists_eq_add_of_le hle
  let mid : PolledEvents :=
    { s with
      lines := (pollTimes PolledLines.poll s.lines fewer).1
      blocks := (s.blocks.respondAll (s.asked fewer)).1 }
  refine ⟨mid, rfl, rfl, ?_⟩
  have hnone := h.completes.events_eq
  rw [asked, pollTimes_add, List.filterMap_append, BlockReader.respondAll_append,
    List.reduceOption_append] at hnone
  exact (List.append_eq_nil_iff.mp hnone).1

/-- An event is completed by a line. -/
theorem Draws.exists_line {event : Event} (h : Draws s 1 next [event]) :
    ∃ line, s.lines.poll.2.1 = .item line ∧ (s.blocks.take line.bytes).2 = some event := by
  have hcompletes := h.completes
  rw [asked_one] at hcompletes
  cases hanswer : s.lines.poll.2.1 with
  | item line =>
      rw [hanswer] at hcompletes
      have htaken : (s.blocks.take line.bytes).2.toList = [event] :=
        (BlockReader.Completes.unique (.of_respond (.take line.bytes) rfl) hcompletes).2
      exact ⟨line, rfl, by simpa using htaken⟩
  | failed error => cases (hanswer ▸ hcompletes).events_eq
  | pending => cases (hanswer ▸ hcompletes).events_eq
  | ended => cases (hanswer ▸ hcompletes).events_eq

/-- The events are those of the lines that have come out. -/
theorem Draws.eq_takeAll (h : Draws s polls next events)
    (hgoing : ∀ answer ∈ (pollTimes PolledLines.poll s.lines polls).2.1, answer.isFinal = false) :
    s.blocks.takeAll (items (pollTimes PolledLines.poll s.lines polls).2.1) =
      (next.blocks, events) := by
  have hcompletes := h.completes
  rw [asked, filterMap_blockRequest? hgoing] at hcompletes
  have htaken := BlockReader.Completes.takeAll s.blocks
    (items (pollTimes PolledLines.poll s.lines polls).2.1)
  obtain ⟨hblocks, hevents⟩ := htaken.unique hcompletes
  exact Prod.ext hblocks hevents

variable {limits : LineLimits} {hpos : 0 < limits.maxSize} {source : List SourceItem}

/-- A poll of the source is made by a poll of the lines, when the events so far are out. -/
theorem exists_draws_of_between {n taken : Nat}
    (hfrom : (pollTimes poll (start limits hpos source) n).1.lines.sourcePolls ≤ taken)
    (hto : taken < (pollTimes poll (start limits hpos source) (n + 1)).1.lines.sourcePolls) :
    ∃ polls before,
      Draws (start limits hpos source) polls before
          (items (pollTimes poll (start limits hpos source) n).2.1) ∧
        before.lines.sourcePolls ≤ taken ∧ taken < before.lines.poll.1.sourcePolls := by
  obtain ⟨polls, hdraws⟩ := exists_draws_pollTimes (start limits hpos source) n
  obtain ⟨more, before, hbefore, hlast⟩ :=
    exists_draws_poll (pollTimes poll (start limits hpos source) n).1
  rw [pollTimes_succ, ← (hbefore.trans hlast).lines_eq] at hto
  obtain ⟨i, hi, hfrom', hto'⟩ := exists_step_past
    (fun i => (pollTimes PolledLines.poll
      (pollTimes poll (start limits hpos source) n).1.lines i).1.sourcePolls) hfrom hto
  obtain ⟨mid, hmid⟩ := hbefore.exists_of_le (Nat.le_of_lt_succ hi)
  refine ⟨polls + i, mid, by simpa using hdraws.trans hmid, ?_, ?_⟩
  · rw [← hmid.lines_eq]
    exact hfrom'
  · rw [pollTimes_succ, hmid.lines_eq] at hto'
    exact hto'

/-- The blank line that completes an event comes with the last poll of the lines. -/
theorem exists_blank_of_item {n : Nat} {event : Event}
    (hitem : (pollTimes poll (start limits hpos source) n).1.poll.2.1 = .item event) :
    ∃ polls line,
      let drawn := pollTimes PolledLines.poll (.start limits hpos source) polls
      let taken := ({} : BlockReader).takeAll (items drawn.2.1)
      drawn.1.poll.2.1 = .item line ∧ line.bytes = [] ∧
        taken.2 = items (pollTimes poll (start limits hpos source) n).2.1 ∧
        (taken.1.take line.bytes).2 = some event ∧
        drawn.1.poll.1 = (pollTimes poll (start limits hpos source) n).1.poll.1.lines := by
  obtain ⟨polls, hdraws⟩ := exists_draws_pollTimes (start limits hpos source) n
  obtain ⟨more, before, hbefore, hlast⟩ :=
    exists_draws_poll (pollTimes poll (start limits hpos source) n).1
  rw [hitem] at hlast
  have hall : Draws (start limits hpos source) (polls + more) before
      (items (pollTimes poll (start limits hpos source) n).2.1) := by
    simpa using hdraws.trans hbefore
  obtain ⟨line, hline, hcompleted⟩ := hlast.exists_line
  have hlines : (pollTimes PolledLines.poll (.start limits hpos source) (polls + more)).1 =
      before.lines := hall.lines_eq
  have hgoes : before.lines.poll ≠ (before.lines, .ended, []) := by
    intro hstays
    rw [hstays] at hline
    cases hline
  have htaken : ({} : BlockReader).takeAll
      (items (pollTimes PolledLines.poll (.start limits hpos source) (polls + more)).2.1) =
        (before.blocks, items (pollTimes poll (start limits hpos source) n).2.1) :=
    hall.eq_takeAll (PolledLines.isFinal_eq_false_of_poll_ne (hlines ▸ hgoes))
  have hblank : line.bytes = [] := by
    by_contra hsome
    have hnone := BlockReader.take_of_ne_nil (hall.completes.sound BlockReader.sound_start) hsome
    rw [hnone.1] at hcompleted
    cases hcompleted
  refine ⟨polls + more, line, ?_, hblank, congrArg Prod.snd htaken, ?_, ?_⟩
  · rw [hlines]
    exact hline
  · rw [htaken]
    exact hcompleted
  · rw [hlines]
    exact hlast.lines_eq

end PolledEvents

/-! ## Streams that are driven by their polls -/

open PollAnswer

/-- A stream, with its lines in view, polls a source item by item and only where it may, and a final
answer is for good. -/
structure PullDriven {σ α : Type} (limits : LineLimits) (hpos : 0 < limits.maxSize)
    (source : List SourceItem) (complete : List Signal → List α) (lines : σ → PolledLines)
    (poll : σ → σ × PollAnswer α × List Notice) (s : σ) : Prop where
  source_eq : ∀ n, (lines (pollTimes poll s n).1).source =
    source.drop (lines (pollTimes poll s n).1).sourcePolls
  may : ∀ n taken, (lines (pollTimes poll s n).1).sourcePolls ≤ taken →
    taken < (lines (pollTimes poll s (n + 1)).1).sourcePolls →
      MayPull limits hpos source complete taken (items (pollTimes poll s n).2.1)
  fused : ∀ n, (∃ answer ∈ (pollTimes poll s n).2.1, answer.isFinal = true) →
    poll (pollTimes poll s n).1 = ((pollTimes poll s n).1, .ended, [])

section

variable (limits : LineLimits) (hpos : 0 < limits.maxSize) (source : List SourceItem)

theorem PolledLines.pullDriven :
    PullDriven limits hpos source Signal.lines id poll (start limits hpos source) where
  source_eq := fun n => (pulled_pollTimes limits hpos source n).source_eq
  may := fun _ _ => mayPull_of_between
  fused := fun _ => foretold.poll_of_isFinal (sound_start limits hpos source)

theorem PolledEvents.pullDriven :
    PullDriven limits hpos source (fun signals => (({} : BlockReader).takeAll
      (Signal.lines signals)).2) PolledEvents.lines poll (start limits hpos source) where
  source_eq := by
    intro n
    obtain ⟨polls, hdraws⟩ := exists_draws_pollTimes (start limits hpos source) n
    rw [← hdraws.lines_eq]
    exact (PolledLines.pullDriven limits hpos source).source_eq polls
  may := by
    intro n taken hfrom hto
    obtain ⟨polls, before, hdraws, hfrom', hto'⟩ := exists_draws_of_between hfrom hto
    have hlines : (pollTimes PolledLines.poll (.start limits hpos source) polls).1 = before.lines :=
      hdraws.lines_eq
    have hgoes : before.lines.poll ≠ (before.lines, .ended, []) := by
      intro hstays
      rw [hstays] at hto'
      exact absurd hto' (Nat.not_lt.mpr hfrom')
    rw [← hlines] at hfrom' hto' hgoes
    have hpulled := PolledLines.pulled_pollTimes limits hpos source polls
    have hmay := hpulled.pulls_poll.may taken hfrom' hto'
    have htaken := hdraws.eq_takeAll (PolledLines.isFinal_eq_false_of_poll_ne hgoes)
    refine ⟨hmay.within, hmay.unfailed, hmay.going, ?_⟩
    rw [← hmay.all_out]
    exact (congrArg Prod.snd htaken).symm
  fused := by
    intro n hfinal
    have hsound : (start limits hpos source).Sound := PolledLines.sound_start limits hpos source
    exact foretold.poll_of_isFinal hsound hfinal

/-- A stream of lines and a stream of events poll their source only while nothing that it has
completed waits to be handed out, and never after it has failed or ended or a line has outgrown the
limit; a final answer is for good.  A line comes out with the chunk in which its terminator begins,
or with the end of the source, and an event comes out with the blank line that completes it. -/
theorem pulled_on_demand :
    let lines := PolledLines.start limits hpos source
    let events := PolledEvents.start limits hpos source
    PullDriven limits hpos source Signal.lines id PolledLines.poll lines ∧
      (∀ n line,
        let polled := (pollTimes PolledLines.poll lines n).1.poll
        polled.2.1 = .item line → PulledFor limits source polled.1.sourcePolls line) ∧
      PullDriven limits hpos source
        (fun signals => (({} : BlockReader).takeAll (Signal.lines signals)).2)
        PolledEvents.lines PolledEvents.poll events ∧
      (∀ n taken, (pollTimes PolledEvents.poll events n).1.lines.sourcePolls ≤ taken →
        taken < (pollTimes PolledEvents.poll events (n + 1)).1.lines.sourcePolls →
          ∃ polls before,
            PolledEvents.Draws events polls before
                (items (pollTimes PolledEvents.poll events n).2.1) ∧
              before.lines.sourcePolls ≤ taken ∧ taken < before.lines.poll.1.sourcePolls) ∧
      ∀ n event,
        let polled := (pollTimes PolledEvents.poll events n).1.poll
        polled.2.1 = .item event →
          ∃ polls line,
            let drawn := pollTimes PolledLines.poll lines polls
            let taken := ({} : BlockReader).takeAll (items drawn.2.1)
            drawn.1.poll.2.1 = .item line ∧ line.bytes = [] ∧
              taken.2 = items (pollTimes PolledEvents.poll events n).2.1 ∧
              (taken.1.take line.bytes).2 = some event ∧
              EndsInLast limits source polled.1.lines.sourcePolls line := by
  intro lines events
  refine ⟨PolledLines.pullDriven limits hpos source, ?_, PolledEvents.pullDriven limits hpos source,
    ?_, ?_⟩
  · intro n line
    exact PolledLines.pulledFor_of_item n
  · intro n taken
    exact PolledEvents.exists_draws_of_between
  · intro n event polled hitem
    obtain ⟨polls, line, hline, hblank, hearlier, hcompleted, hlines⟩ :=
      PolledEvents.exists_blank_of_item hitem
    have hpulled := PolledLines.pulledFor_of_item polls hline
    rw [hlines] at hpulled
    exact ⟨polls, line, hline, hblank, hearlier, hcompleted, hpulled.endsInLast hpos hblank⟩

end

/-- A carriage return brings its line at once, whether a line feed comes after it or not, and a
source that has nothing at the moment is asked again. -/
theorem pulled_on_demand_of_pending :
    let source : List SourceItem :=
      [.chunk [0x61], .pending, .chunk [0x0d], .chunk [0x0a, 0x62], .failure "cut"]
    let waiting :=
      (pollTimes PolledLines.poll (.start ⟨2, .truncate⟩ Nat.zero_lt_two source) 1).1
    waiting.poll.2.1 = .item ⟨[0x61], 1, false⟩ ∧ waiting.poll.1.sourcePolls = 3 ∧
      PulledFor ⟨2, .truncate⟩ source 3 ⟨[0x61], 1, false⟩ := by
  intro source waiting
  have hwaiting : waiting =
      { splitter := ((Splitter.start ⟨2, .truncate⟩ Nat.zero_lt_two).read [0x61]).1
        source := [.chunk [0x0d], .chunk [0x0a, 0x62], .failure "cut"]
        sourcePolls := 2 } := by
    change (PolledLines.start ⟨2, .truncate⟩ Nat.zero_lt_two source).poll.1 = _
    rw [PolledLines.poll]
    simp only [source, PolledLines.start, PolledLines.takeChunk, Splitter.read_eq_run]
    rw [PolledLines.poll]
    rfl
  have hpoll : waiting.poll.2.1 = .item ⟨[0x61], 1, false⟩ ∧ waiting.poll.1.sourcePolls = 3 := by
    rw [hwaiting, PolledLines.poll]
    simp only [PolledLines.takeChunk, Splitter.read_eq_run]
    rw [PolledLines.poll]
    decide +kernel
  obtain ⟨-, hpulled, -⟩ := pulled_on_demand ⟨2, .truncate⟩ Nat.zero_lt_two source
  exact ⟨hpoll.1, hpoll.2, hpoll.2 ▸ hpulled 1 _ hpoll.1⟩

end ServerSentEvents
