import ServerSentEvents.Proofs.Notices
import ServerSentEvents.Proofs.Polling.Pulling
import ServerSentEvents.Proofs.Splitter.Failure

/-!
# What is told of the end of a source

A stream tells the end of its source once, with the counters at that moment, and resolves the open
line only then.  So the record counts the terminated lines (`LineLimits.endRecords`), and the
counters that the stream is left with count the open line as well (`TellsEnd`).
-/

namespace ServerSentEvents

open SourceItem (chunks failure? stream)

/-- Whether a record tells the end of a source. -/
def LogRecord.isSourceEnd : LogRecord → Bool
  | sourceEnded .. => true
  | _ => false

theorem LogRecord.isSourceEnd_of_isOfSink {record : LogRecord} (hrecord : record.isOfSink = true) :
    record.isSourceEnd = false := by
  cases record with
  | sourceEnded => cases hrecord
  | _ => rfl

namespace LineLimits

/-- A source comes to its end: it does not fail, and no line of it fails the stream. -/
def Finishes (limits : LineLimits) (source : List SourceItem) : Prop :=
  failure? source = none ∧ ¬limits.Fails (stream source)

instance (limits : LineLimits) (source : List SourceItem) : Decidable (limits.Finishes source) :=
  inferInstanceAs (Decidable (_ ∧ _))

/-- The counters when a source ends, of the lines that have their terminators. -/
def terminatedCounts (limits : LineLimits) (source : List SourceItem) : LineCounts :=
  limits.countsOf (Bytes.lines (stream source))

/-- The counters after that, when the open line is resolved. -/
def finalCounts (limits : LineLimits) (source : List SourceItem) : LineCounts :=
  limits.countsOf (Bytes.lines (stream source) ++ (limits.trailing? (stream source)).toList)

/-- What is told of the end of a source: with the counters of the terminated lines it is told once,
if the source comes to its end. -/
def endRecords (limits : LineLimits) (source : List SourceItem) : List LogRecord :=
  if limits.Finishes source then
    [.sourceEnded (limits.terminatedCounts source).lines
      (limits.terminatedCounts source).oversized]
  else []

variable {limits : LineLimits} {source : List SourceItem}

/-- One more line is counted as handed out if it is, and as oversized if it is reported. -/
theorem countsOf_concat {line : Bytes}
    (hgoing : limits.overflow = .failStream → limits.admits line = true) (lines : List Bytes)
    (number : Nat) :
    (limits.countsOf (lines ++ [line])).lines =
        (limits.countsOf lines).lines + (limits.line? number line).toList.length ∧
      (limits.countsOf (lines ++ [line])).oversized =
        (limits.countsOf lines).oversized + (limits.diagnostic? number line).toList.length := by
  cases hfits : limits.admits line with
  | true =>
      cases hpolicy : limits.overflow <;>
        simp [countsOf, LineCounts.oversized, line?, diagnostic?, hfits, hpolicy,
          Nat.add_right_comm]
  | false =>
      cases hpolicy : limits.overflow with
      | failStream => simp [hgoing hpolicy] at hfits
      | _ =>
          simp [countsOf, LineCounts.oversized, line?, diagnostic?, hfits, hpolicy, Nat.add_assoc]

/-- Every line is handed out or reported. -/
theorem diagnostic?_ne_none_of_line? {number : Nat} {line : Bytes}
    (hnone : limits.line? number line = none) : limits.diagnostic? number line ≠ none := by
  cases hfits : limits.admits line with
  | true => simp [line?, hfits] at hnone
  | false => simp [diagnostic?, hfits]

/-- What the end of a source adds to the counters of the terminated lines. -/
theorem finalCounts_eq (hfinishes : limits.Finishes source) :
    let told := limits.terminatedCounts source
    let left := limits.finalCounts source
    let rest := limits.trailing? (stream source)
    let number := (Bytes.lines (stream source)).length + 1
    left.lines = told.lines + (rest.bind (limits.line? number)).toList.length ∧
      left.oversized = told.oversized + (rest.bind (limits.diagnostic? number)).toList.length := by
  by_cases hnone : Bytes.remainder (stream source) = []
  · simp [terminatedCounts, finalCounts, trailing?, hnone]
  · have hgoing : limits.overflow = .failStream →
        limits.admits (Bytes.remainder (stream source)) = true := by
      intro hpolicy
      by_contra hbeyond
      exact hfinishes.2 ⟨hpolicy, _, List.mem_append_right _ List.mem_cons_self,
        by simpa using hbeyond⟩
    have hrest : limits.trailing? (stream source) = some (Bytes.remainder (stream source)) := by
      simp [trailing?, hfinishes.2, hnone]
    simp only [terminatedCounts, finalCounts, hrest, Option.toList_some, Option.bind_some]
    exact countsOf_concat hgoing _ _

/-- The counters of the terminated lines are final only where no line is open. -/
theorem terminatedCounts_eq_iff (hfinishes : limits.Finishes source) :
    (limits.terminatedCounts source).lines = (limits.finalCounts source).lines ∧
        (limits.terminatedCounts source).oversized = (limits.finalCounts source).oversized ↔
      Bytes.remainder (stream source) = [] := by
  constructor
  · rintro ⟨hlines, hoversized⟩
    by_contra hsome
    have hrest : limits.trailing? (stream source) = some (Bytes.remainder (stream source)) := by
      simp [trailing?, hfinishes.2, hsome]
    obtain ⟨hmore, hbeyond⟩ := finalCounts_eq hfinishes
    rw [hrest, Option.bind_some] at hmore hbeyond
    have hunhanded : (limits.line? ((Bytes.lines (stream source)).length + 1)
        (Bytes.remainder (stream source))).toList = [] :=
      List.eq_nil_of_length_eq_zero (by omega)
    have hunreported : (limits.diagnostic? ((Bytes.lines (stream source)).length + 1)
        (Bytes.remainder (stream source))).toList = [] :=
      List.eq_nil_of_length_eq_zero (by omega)
    exact diagnostic?_ne_none_of_line? (Option.toList_eq_nil_iff.mp hunhanded)
      (Option.toList_eq_nil_iff.mp hunreported)
  · intro hnone
    simp [terminatedCounts, finalCounts, trailing?, hnone]

end LineLimits

namespace Splitter

variable {limits : LineLimits} {source : List SourceItem}

theorem finishes_iff (hpos : 0 < limits.maxSize) :
    limits.Finishes source ↔
      failure? source = none ∧ ((start limits hpos).readAll (chunks source)).1.error? = none := by
  have hreads := Reads.readAll limits hpos (chunks source)
  rw [LineLimits.Finishes, error?_eq_none_iff, ← Bool.not_eq_true, hreads.hasFailed_iff]
  rfl

/-- The open line of a source that comes to its end is counted when it is resolved. -/
theorem counts_of_finishes (hpos : 0 < limits.maxSize) (hfinishes : limits.Finishes source) :
    let read := (start limits hpos).readAll (chunks source)
    read.1.counts = limits.terminatedCounts source ∧
      read.1.close.1.counts = limits.finalCounts source := by
  have hgoing := error?_eq_none_iff.mp ((finishes_iff hpos).mp hfinishes).2
  rw [← respondAll_read] at hgoing ⊢
  have hfollows := follows_of_going hpos hgoing
  have hclosed := hfollows.close hgoing
  rw [Course.of_map_read] at hfollows hclosed
  have hended : (Course.next { stream := stream source } .close).ended =
      Bytes.lines (stream source) ++ (limits.trailing? (stream source)).toList := by
    rw [Course.ended_next_close]
    by_cases hnone : Bytes.remainder (stream source) = [] <;>
      simp [Course.ended, Course.openBytes, LineLimits.trailing?, hfinishes.2, hnone]
  refine ⟨hfollows.counts_eq, ?_⟩
  rw [hclosed.counts_eq, LineLimits.finalCounts, ← hended]
  rfl

theorem records_ending (s : Splitter) (failure? : Option String) :
    Notice.records (s.ending failure?).notices =
      if s.error? = none ∧ failure? = none then
        [.sourceEnded s.counts.lines s.counts.oversized]
      else [] := by
  unfold ending
  cases herror : s.error? <;> cases failure? <;> simp

end Splitter

/-! ## What a stream logs -/

section

variable {σ α τ : Type} {poll : σ → σ × PollAnswer α × List Notice}

/-- Whatever the sink is, a stream that is polled logs these records of this kind in their order,
and has logged them all when it answers its end. -/
structure Logs (poll : σ → σ × PollAnswer α × List Notice) (s : σ) (kind : LogRecord → Bool)
    (records : List LogRecord) : Prop where
  isPrefix : ∀ (sink : Sink) n, sink.logged kind (pollTimes poll s n).2.2 <+: records
  all : ∀ n, .ended ∈ (pollTimes poll s n).2.1 →
    ∀ sink : Sink, sink.logged kind (pollTimes poll s n).2.2 = records

variable {forecast : σ → Forecast α τ} {view : σ → τ} {inv : σ → Prop}

/-- A stream logs the records that are foretold. -/
theorem Foretold.logs (h : Foretold poll forecast view inv) {s : σ} (hs : inv s)
    {kind : LogRecord → Bool} (hkind : ∀ record, record.isOfSink = true → kind record = false) :
    Logs poll s kind ((Notice.records (forecast s).notices).filter kind) where
  isPrefix := by
    intro sink n
    rw [sink.logged_eq hkind]
    exact ((h.notices_isPrefix hs n).filterMap _).filter _
  all := by
    intro n hended sink
    rw [sink.logged_eq hkind, (h.settled_of_isFinal hs ⟨_, hended, rfl⟩).1]

/-- What a stream, with its counters in view, tells of the end of this source. -/
structure TellsEnd (limits : LineLimits) (source : List SourceItem)
    (poll : σ → σ × PollAnswer α × List Notice) (counts : σ → LineCounts) (s : σ) : Prop where
  told : Logs poll s LogRecord.isSourceEnd (limits.endRecords source)
  final : limits.Finishes source → ∀ n, .ended ∈ (pollTimes poll s n).2.1 →
    counts (pollTimes poll s n).1 = limits.finalCounts source
  ends : limits.Finishes source → ∃ m, ∀ n, m ≤ n → .ended ∈ (pollTimes poll s n).2.1

/-- It is enough to look at the forecast of a stream. -/
theorem Foretold.tellsEnd (h : Foretold poll forecast view inv) {s : σ} (hs : inv s)
    {limits : LineLimits} {source : List SourceItem} (counts : τ → LineCounts)
    (hnotices : (Notice.records (forecast s).notices).filter LogRecord.isSourceEnd =
      limits.endRecords source)
    (hanswers : limits.Finishes source → ∀ error, .failed error ∉ (forecast s).answers)
    (hfinal : limits.Finishes source → counts (forecast s).final = limits.finalCounts source) :
    TellsEnd limits source poll (fun s => counts (view s)) s := by
  have hlogs := h.logs hs fun _ => LogRecord.isSourceEnd_of_isOfSink
  rw [hnotices] at hlogs
  refine ⟨hlogs, ?_, ?_⟩
  · intro hfinishes n hended
    rw [(h.settled_of_isFinal hs ⟨_, hended, rfl⟩).2, hfinal hfinishes]
  · intro hfinishes
    refine ⟨(forecast s).answers.length + (forecast s).waits + 1, fun n hn => ?_⟩
    exact h.ended_mem hs (hanswers hfinishes) hn

end

/-! ## Streams whose source ends -/

section

variable (limits : LineLimits) (hpos : 0 < limits.maxSize) (source : List SourceItem)

theorem PolledLines.sourceEnds_forecast_start :
    (Notice.records (start limits hpos source).forecast.notices).filter LogRecord.isSourceEnd =
      limits.endRecords source := by
  simp only [forecast_start, Splitter.forecast, Notice.records_append, List.filter_append,
    @Splitter.filter_records_readAll LogRecord.isSourceEnd fun _ _ => rfl,
    Splitter.records_ending, List.nil_append]
  rw [LineLimits.endRecords]
  by_cases hfinishes : limits.Finishes source
  · obtain ⟨hfailure, herror⟩ := (Splitter.finishes_iff hpos).mp hfinishes
    rw [if_pos ⟨herror, hfailure⟩, if_pos hfinishes,
      (Splitter.counts_of_finishes hpos hfinishes).1]
    rfl
  · have hcut : ¬(((Splitter.start limits hpos).readAll (chunks source)).1.error? = none ∧
        failure? source = none) := fun h => hfinishes ((Splitter.finishes_iff hpos).mpr h.symm)
    rw [if_neg hcut, if_neg hfinishes]
    rfl

variable {limits source} in
/-- A stream of lines whose source comes to its end answers its lines, and nothing else. -/
theorem PolledLines.forecast_of_finishes (hfinishes : limits.Finishes source) :
    (start limits hpos source).forecast =
      let read := (Splitter.start limits hpos).readAll (chunks source)
      { answers := (Signal.lines (read.2 ++ read.1.close.2)).map .item
        notices := Signal.notices read.2 ++
          .record (.sourceEnded read.1.counts.lines read.1.counts.oversized) ::
            Signal.notices read.1.close.2
        waits := SourceItem.waits source
        final := read.1.close.1 } := by
  obtain ⟨hfailure, herror⟩ := (Splitter.finishes_iff hpos).mp hfinishes
  simp [forecast_start, Splitter.forecast, Splitter.ending, hfailure, herror, Signal.lines_append]

variable {limits source} in
/-- A stream of events takes these lines into its blocks, and closes them then. -/
theorem PolledEvents.forecast_of_finishes (hfinishes : limits.Finishes source) :
    (start limits hpos source).forecast =
      let read := (Splitter.start limits hpos).readAll (chunks source)
      let taken := ({} : BlockReader).takeAll (Signal.lines (read.2 ++ read.1.close.2))
      { answers := taken.2.map .item
        notices := (PolledLines.start limits hpos source).forecast.notices ++ taken.1.close.2
        waits := SourceItem.waits source
        final := (read.1.close.1, taken.1.close.1) } := by
  have hrelay (lines : List Line) := ({} : BlockReader).relay_items lines []
  simp only [List.append_nil] at hrelay
  simp only [forecast, start, PolledLines.forecast_of_finishes hpos hfinishes, hrelay,
    BlockReader.relay, List.append_nil]

/-- A stream of lines tells the end of its source with the counters of the terminated lines. -/
theorem PolledLines.tellsEnd :
    TellsEnd limits source poll (·.counts) (start limits hpos source) := by
  refine foretold.tellsEnd (sound_start limits hpos source) Splitter.counts
    (sourceEnds_forecast_start limits hpos source) ?_ ?_
  · intro hfinishes error
    simp [forecast_of_finishes hpos hfinishes]
  · intro hfinishes
    rw [forecast_of_finishes hpos hfinishes]
    exact (Splitter.counts_of_finishes hpos hfinishes).2

theorem PolledEvents.sourceEnds_forecast_start :
    (Notice.records (start limits hpos source).forecast.notices).filter LogRecord.isSourceEnd =
      limits.endRecords source := by
  have hrelay (answers : List (PollAnswer Line)) :
      (Notice.records (({} : BlockReader).relay answers).2.2).filter LogRecord.isSourceEnd =
        [] := by
    refine List.filter_eq_nil_iff.mpr fun record hrecord => ?_
    rw [BlockReader.eq_of_mem_records_relay hrecord]
    exact Bool.false_ne_true
  rw [← PolledLines.sourceEnds_forecast_start limits hpos source]
  simp only [forecast, start, Notice.records_append, List.filter_append, hrelay, List.append_nil]

/-- And so does a stream of events, which reads such a stream of lines. -/
theorem PolledEvents.tellsEnd :
    TellsEnd limits source poll (·.counts) (start limits hpos source) := by
  have hsound : (start limits hpos source).Sound := PolledLines.sound_start limits hpos source
  refine foretold.tellsEnd hsound (·.1.counts) (sourceEnds_forecast_start limits hpos source) ?_ ?_
  · intro hfinishes error
    simp [forecast_of_finishes hpos hfinishes]
  · intro hfinishes
    rw [forecast_of_finishes hpos hfinishes]
    exact (Splitter.counts_of_finishes hpos hfinishes).2

/-- A stream whose source comes to its end tells this end once, a stream of events as well as a
stream of lines, and no other stream tells an end.  The counters that are told miss the open line,
which is handed out or reported after that, so that they are the counters in the end exactly if the
source ends with a terminator or is empty. -/
theorem tellsEnd_start :
    TellsEnd limits source PolledLines.poll (·.counts) (.start limits hpos source) ∧
      TellsEnd limits source PolledEvents.poll (·.counts) (.start limits hpos source) ∧
      (limits.Finishes source →
        let told := limits.terminatedCounts source
        let left := limits.finalCounts source
        let rest := limits.trailing? (stream source)
        let number := (Bytes.lines (stream source)).length + 1
        left.lines = told.lines + (rest.bind (limits.line? number)).toList.length ∧
          left.oversized =
            told.oversized + (rest.bind (limits.diagnostic? number)).toList.length ∧
          (told.lines = left.lines ∧ told.oversized = left.oversized ↔
            Bytes.remainder (stream source) = [])) := by
  refine ⟨PolledLines.tellsEnd limits hpos source, PolledEvents.tellsEnd limits hpos source, ?_⟩
  intro hfinishes
  obtain ⟨hlines, hoversized⟩ := LineLimits.finalCounts_eq hfinishes
  exact ⟨hlines, hoversized, LineLimits.terminatedCounts_eq_iff hfinishes⟩

end

/-- The line that is cut to the limit is open when the end is told, and a failure of the source is
no end. -/
theorem tellsEnd_start_of_open_line :
    let source := [.chunk [0x61, 0x0d], .pending, .chunk [0x0a, 0x62, 0x63, 0x64]]
    let events := PolledEvents.start ⟨2, .truncate⟩ Nat.zero_lt_two source
    let cut := PolledLines.start ⟨2, .truncate⟩ Nat.zero_lt_two (source ++ [.failure "cut"])
    (∃ n, .ended ∈ (pollTimes PolledEvents.poll events n).2.1 ∧
      (pollTimes PolledEvents.poll events n).1.counts = ⟨2, 0, 1, 0⟩) ∧
      Logs PolledEvents.poll events LogRecord.isSourceEnd [.sourceEnded 1 0] ∧
      Logs PolledLines.poll cut LogRecord.isSourceEnd [] := by
  intro source events cut
  obtain ⟨-, hevents, -⟩ := tellsEnd_start ⟨2, .truncate⟩ Nat.zero_lt_two source
  obtain ⟨hlines, -⟩ := tellsEnd_start ⟨2, .truncate⟩ Nat.zero_lt_two (source ++ [.failure "cut"])
  have hfinishes : LineLimits.Finishes ⟨2, .truncate⟩ source := by decide
  obtain ⟨m, hm⟩ := hevents.ends hfinishes
  have hended := hm m (Nat.le_refl m)
  have hrecord : LineLimits.endRecords ⟨2, .truncate⟩ source = [.sourceEnded 1 0] := by decide
  have hnone : LineLimits.endRecords ⟨2, .truncate⟩ (source ++ [.failure "cut"]) = [] := by decide
  exact ⟨⟨m, hended, hevents.final hfinishes m hended⟩, hrecord ▸ hevents.told,
    hnone ▸ hlines.told⟩

/-- The counters that are told are not those in the end: the line `a` has no terminator. -/
theorem not_sourceEnded_of_finalCounts :
    ¬∀ (limits : LineLimits) (hpos : 0 < limits.maxSize) (source : List SourceItem),
      limits.Finishes source → ∀ (sink : Sink) (n : Nat),
        let polled := pollTimes PolledLines.poll (PolledLines.start limits hpos source) n
        .ended ∈ polled.2.1 →
          sink.logged LogRecord.isSourceEnd polled.2.2 =
            [.sourceEnded polled.1.counts.lines polled.1.counts.oversized] := by
  intro hall
  have hfinishes : LineLimits.Finishes ⟨8, .failStream⟩ [.chunk [0x61]] := by decide
  have htells := PolledLines.tellsEnd ⟨8, .failStream⟩ (by decide) [.chunk [0x61]]
  obtain ⟨m, hm⟩ := htells.ends hfinishes
  have hended := hm m (Nat.le_refl m)
  have htold := htells.told.all m hended .logger
  have hcounts := htells.final hfinishes m hended
  have hclaimed := hall ⟨8, .failStream⟩ (by decide) [.chunk [0x61]] hfinishes .logger m hended
  rw [htold, hcounts] at hclaimed
  exact absurd hclaimed (by decide)

end ServerSentEvents
