import ServerSentEvents.Proofs.Polling.Forecast
import ServerSentEvents.Proofs.Splitter.Bytewise

/-!
# Polled lines against the splitter

A stream of lines polls its source for chunks and hands out one line a poll.  Its forecast is what
a splitter emits that is handed the chunks before the first failure of the source, and then one
ending: the failure of the splitter, the failure of the source, or what the end of the source
leaves of the open line.
-/

namespace ServerSentEvents

namespace SourceItem

/-- How often the source puts its caller off before it fails or ends. -/
def waits : List SourceItem → Nat
  | [] => 0
  | chunk _ :: rest => waits rest
  | failure _ :: _ => 0
  | pending :: rest => waits rest + 1

/-- The items of a source that say something. -/
def given (source : List SourceItem) : List SourceItem :=
  source.filter (· != pending)

theorem chunks_given (source : List SourceItem) : chunks (given source) = chunks source := by
  induction source with
  | nil => rfl
  | cons item rest ih => cases item <;> simp_all [given, chunks]

theorem failure?_given (source : List SourceItem) :
    failure? (given source) = failure? source := by
  induction source with
  | nil => rfl
  | cons item rest ih => cases item <;> simp_all [given, failure?]

end SourceItem

namespace Splitter

/-! ## The forecast -/

/-- What is still to come when the chunks are read and the source fails or ends. -/
def ending (s : Splitter) (failure? : Option String) : Forecast Line Splitter :=
  match s.error?, failure? with
  | some error, _ => { answers := [.failed error], notices := [], waits := 0, final := s.forget }
  | none, some cause =>
    { answers := [.failed (.transport cause)], notices := [], waits := 0, final := s.forget }
  | none, none =>
    { answers := (Signal.lines s.close.2).map .item
      notices := .record (.sourceEnded s.counts.lines s.counts.oversized) ::
        Signal.notices s.close.2
      waits := 0
      final := s.close.1 }

/-- What a stream of lines has to say that reads this source. -/
def forecast (s : Splitter) (source : List SourceItem) : Forecast Line Splitter :=
  let read := s.readAll (SourceItem.chunks source)
  let last := read.1.ending (SourceItem.failure? source)
  { answers := (Signal.lines read.2).map .item ++ last.answers
    notices := Signal.notices read.2 ++ last.notices
    waits := SourceItem.waits source
    final := last.final }

theorem forecast_chunk (s : Splitter) (bytes : Bytes) (source : List SourceItem) :
    s.forecast (.chunk bytes :: source) =
      let read := s.read bytes
      let later := read.1.forecast source
      { answers := (Signal.lines read.2).map .item ++ later.answers
        notices := Signal.notices read.2 ++ later.notices
        waits := later.waits
        final := later.final } := by
  simp [forecast, SourceItem.chunks, SourceItem.failure?, SourceItem.waits, readAll_cons]

theorem forecast_of_error? {s : Splitter} {error : StreamError} (herror : s.error? = some error)
    (source : List SourceItem) :
    s.forecast source =
      { answers := [.failed error], notices := [], waits := SourceItem.waits source,
        final := s.forget } := by
  simp [forecast, readAll_of_hasFailed (hasFailed_of_error? herror), ending, herror]

@[simp] theorem counts_forget (s : Splitter) : s.forget.counts = s.counts := by
  unfold Splitter.forget
  split <;> rfl

/-- A failure counts nothing of the open line. -/
theorem counts_ending {s : Splitter} {failure? : Option String} (hfailure : failure? ≠ none) :
    (s.ending failure?).final.counts = s.counts := by
  unfold ending
  split
  · exact s.counts_forget
  · exact s.counts_forget
  · exact absurd rfl hfailure

/-- At most one line ends at a time. -/
theorem lines_endLine (s : Splitter) :
    Signal.lines s.endLine.2 = (Signal.lines s.endLine.2).head?.toList := by
  cases hcurrent : s.current with
  | fitting bytes => simp [endLine, hcurrent]
  | oversized handling length => cases handling <;> simp [endLine, hcurrent, Handling.line?]
  | rejected => simp [endLine, hcurrent]

theorem lines_close (s : Splitter) :
    Signal.lines s.close.2 = (Signal.lines s.close.2).head?.toList := by
  unfold close
  split
  · split
    · rfl
    · exact s.lines_endLine
  · exact s.lines_endLine
  · rfl

end Splitter

namespace PolledLines

/-- All that a stream of lines will still answer and make known. -/
def forecast (s : PolledLines) : Forecast Line Splitter :=
  let later : Forecast Line Splitter :=
    match s.phase with
    | .reading => s.splitter.forecast s.source
    | .failing error =>
      { answers := [.failed error], notices := [], waits := 0, final := s.splitter.forget }
    | .over => { answers := [], notices := [], waits := 0, final := s.splitter }
  { later with answers := s.ready.map .item ++ later.answers }

/-- A stream that reads has not failed. -/
def Sound (s : PolledLines) : Prop :=
  s.phase = .reading → s.splitter.error? = none

/-! ## One poll -/

theorem poll_of_over {s : PolledLines} (hready : s.ready = []) (hover : s.phase = .over) :
    s.poll = (s, .ended, []) := by
  unfold poll
  simp [hready, hover]

theorem forecast_of_over {s : PolledLines} (hready : s.ready = []) (hover : s.phase = .over) :
    s.forecast = { answers := [], notices := [], waits := 0, final := s.splitter } := by
  simp [forecast, hready, hover]

theorem sound_of_over {s : PolledLines} (hover : s.phase = .over) : s.Sound := by
  intro hreading
  rw [hover] at hreading
  cases hreading

/-- What one poll of a stream of lines has to show. -/
abbrev Meets (f : Forecast Line Splitter)
    (polled : PolledLines × PollAnswer Line × List Notice) : Prop :=
  Forecast.Meets poll forecast (·.splitter) Sound f polled

/-- A stream that ends stays at its end. -/
theorem meets_of_over {f : Forecast Line Splitter} {s : PolledLines} {answer : PollAnswer Line}
    {notices : List Notice} (hready : s.ready = []) (hover : s.phase = .over)
    (hnotices : f.notices = notices) (hfinal : f.final = s.splitter)
    (hanswers : f.EndsWith 0 answer) : Meets f (s, answer, notices) := by
  have hforecast := forecast_of_over hready hover
  exact Forecast.meets_of_over (sound_of_over hover) (poll_of_over hready hover)
    (by rw [hforecast]) (by rw [hforecast]) (by rw [hforecast]) hnotices hfinal
    (by rw [hforecast]; exact hanswers)

theorem takeEnd_eq (s : PolledLines) :
    s.takeEnd =
      ({ s with splitter := s.splitter.close.1, phase := .over },
        ((Signal.lines s.splitter.close.2).head?.map .item).getD .ended,
        .record (.sourceEnded s.counts.lines s.counts.oversized) ::
          Signal.notices s.splitter.close.2) := by
  unfold takeEnd
  rcases s.splitter.close with ⟨splitter, signals⟩
  dsimp only
  cases (Signal.lines signals).head? <;> rfl

/-- The end of the source resolves the open line. -/
theorem meets_takeEnd {s : PolledLines} (hs : s.Sound) (hready : s.ready = [])
    (hreading : s.phase = .reading) (hsource : s.source = []) :
    Meets s.forecast s.takeEnd := by
  have hforecast : s.forecast = s.splitter.ending none := by
    simp [forecast, Splitter.forecast, hready, hreading, hsource, SourceItem.chunks,
      SourceItem.failure?, SourceItem.waits, Splitter.ending, hs hreading]
  rw [hforecast, takeEnd_eq]
  have hlines := s.splitter.lines_close
  refine meets_of_over hready rfl ?_ ?_ ?_
  · simp [Splitter.ending, hs hreading, counts]
  · simp [Splitter.ending, hs hreading]
  · cases hhead : (Signal.lines s.splitter.close.2).head? with
    | none =>
        rw [hhead] at hlines
        simp [Forecast.EndsWith, Splitter.ending, hs hreading, hlines]
    | some line =>
        rw [hhead] at hlines
        simp [Forecast.EndsWith, Splitter.ending, hs hreading, hlines]

/-- A failure, of the source or of a line, throws the open line away. -/
theorem meets_stop {f : Forecast Line Splitter} {s : PolledLines} {error : StreamError}
    (hanswers : f.answers = [.failed error]) (hnotices : f.notices = [])
    (hfinal : f.final = s.splitter.forget) :
    Meets f (s.stop, .failed error, []) :=
  meets_of_over rfl rfl hnotices hfinal ⟨hanswers, Nat.zero_le _⟩

/-- A chunk that was taken in is told as it was foretold. -/
theorem forecast_takeChunk {s : PolledLines} (hready : s.ready = [])
    (hreading : s.phase = .reading) (bytes : Bytes) :
    let taken := (s.takeChunk bytes).1
    let f := s.splitter.forecast (.chunk bytes :: s.source)
    taken.Sound ∧ f.answers = taken.forecast.answers ∧
      f.notices = (s.takeChunk bytes).2 ++ taken.forecast.notices ∧
      f.final = taken.forecast.final ∧ taken.forecast.waits ≤ f.waits := by
  rw [Splitter.forecast_chunk]
  dsimp only
  cases herror : (s.splitter.read bytes).1.error? with
  | none =>
      refine ⟨fun _ => herror, ?_⟩
      simp [takeChunk, forecast, hready, hreading, herror]
  | some error =>
      rw [Splitter.forecast_of_error? herror]
      refine ⟨?_, ?_⟩
      · intro hreading
        simp [takeChunk, herror] at hreading
      · simp [takeChunk, forecast, hready, herror]

/-- Every poll of a stream of lines gives what was foretold. -/
theorem foretold : Foretold poll forecast (·.splitter) Sound := by
  intro s hs
  fun_induction poll s with
  | case1 s line ready hready =>
      refine ⟨hs, ⟨rfl, ?_, ?_⟩, by simp [PollAnswer.isFinal]⟩
      · cases hphase : s.phase <;> simp [forecast, hphase]
      · cases hphase : s.phase <;> simp [forecast, hphase, hready]
  | case2 s hready error hfailing =>
      refine meets_stop ?_ ?_ ?_ <;> simp [forecast, hready, hfailing]
  | case3 s hready hover =>
      have hforecast := forecast_of_over hready hover
      refine meets_of_over hready hover ?_ ?_ ?_ <;> simp [hforecast, Forecast.EndsWith]
  | case4 s hready hreading hsource =>
      have hmeets := meets_takeEnd (s := { s with sourcePolls := s.sourcePolls + 1 }) hs hready
        hreading hsource
      exact hmeets
  | case5 s hready hreading source hsource =>
      refine ⟨hs, ⟨?_, ?_, ?_⟩, by simp [PollAnswer.isFinal]⟩
      · simp [forecast, Splitter.forecast, hready, hreading, hsource, SourceItem.chunks,
          SourceItem.failure?]
      · simp [forecast, Splitter.forecast, hready, hreading, hsource, SourceItem.chunks,
          SourceItem.failure?]
      · simp [forecast, Splitter.forecast, hready, hreading, hsource, SourceItem.chunks,
          SourceItem.failure?, SourceItem.waits]
  | case6 s hready hreading cause source hsource =>
      refine meets_stop ?_ ?_ ?_ <;>
        simp [forecast, Splitter.forecast, Splitter.ending, hready, hreading, hsource,
          SourceItem.chunks, SourceItem.failure?, hs hreading]
  | case7 s hready hreading bytes source hsource taken notices htaken next answer later hpolled
    ih =>
      have htold := forecast_takeChunk
        (s := { s with source, sourcePolls := s.sourcePolls + 1 }) hready hreading bytes
      rw [htaken] at htold
      obtain ⟨hsound, hanswers, hnotices, hfinal, hwaits⟩ := htold
      have hforecast : s.forecast = s.splitter.forecast (.chunk bytes :: source) := by
        simp [forecast, hready, hreading, hsource]
      rw [hforecast]
      rw [hpolled] at ih
      exact (ih hsound).after hanswers hnotices hfinal hwaits

theorem meets_of_poll {s : PolledLines} (hs : s.Sound)
    {polled : PolledLines × PollAnswer Line × List Notice} (hpolled : s.poll = polled) :
    Meets s.forecast polled :=
  hpolled ▸ foretold s hs

/-! ## Whole streams -/

/-- The stream of lines that reads this source from its start. -/
def start (limits : LineLimits) (hpos : 0 < limits.maxSize) (source : List SourceItem) :
    PolledLines :=
  { source, splitter := .start limits hpos }

theorem sound_start (limits : LineLimits) (hpos : 0 < limits.maxSize)
    (source : List SourceItem) : (start limits hpos source).Sound :=
  fun _ => rfl

theorem forecast_start (limits : LineLimits) (hpos : 0 < limits.maxSize)
    (source : List SourceItem) :
    (start limits hpos source).forecast = (Splitter.start limits hpos).forecast source :=
  rfl

/-- However often a stream of lines is polled, it has answered, pending answers aside, the lines
that a splitter emits for the chunks of the source, then the ending, and then its end.  Pending
answers put this off and change nothing, and a failure counts nothing of the open line. -/
theorem pollTimes_start (limits : LineLimits) (hpos : 0 < limits.maxSize)
    (source : List SourceItem) (n : Nat) :
    let read := (Splitter.start limits hpos).readAll (SourceItem.chunks source)
    let ending := read.1.ending (SourceItem.failure? source)
    let told := (Signal.lines read.2).map .item ++ ending.answers
    let notices := Signal.notices read.2 ++ ending.notices
    let polled := pollTimes poll (start limits hpos source) n
    PollAnswer.given polled.2.1 <+: told ++ List.replicate n .ended ∧
      (told.length + SourceItem.waits source ≤ n → told <+: PollAnswer.given polled.2.1) ∧
      polled.2.2 <+: notices ∧
      (told.length + SourceItem.waits source < n →
        polled.2.2 = notices ∧ polled.1.splitter = ending.final ∧
          (SourceItem.failure? source ≠ none → polled.1.counts = read.1.counts)) ∧
      ∀ other, SourceItem.given other = SourceItem.given source →
        (start limits hpos other).forecast.answers = told := by
  have hsound := sound_start limits hpos source
  refine ⟨foretold.given_isPrefix hsound n, ?_, foretold.notices_isPrefix hsound n, ?_, ?_⟩
  · intro henough
    exact foretold.answers_isPrefix hsound henough
  · intro henough
    obtain ⟨hnotices, hsplitter⟩ := foretold.settled hsound henough
    refine ⟨hnotices, hsplitter, ?_⟩
    intro hfailure
    rw [counts, hsplitter]
    exact Splitter.counts_ending hfailure
  · intro other hsame
    have hchunks : SourceItem.chunks other = SourceItem.chunks source := by
      rw [← SourceItem.chunks_given, hsame, SourceItem.chunks_given]
    have hfailure : SourceItem.failure? other = SourceItem.failure? source := by
      rw [← SourceItem.failure?_given, hsame, SourceItem.failure?_given]
    rw [forecast_start, Splitter.forecast, hchunks, hfailure]

/-- The line that a failure of the source cuts off is not told. -/
theorem pollTimes_start_of_failure :
    let source := [.chunk [0x61, 0x0d], .pending, .chunk [0x0a, 0x62], .failure "cut"]
    let polled := pollTimes poll (start ⟨1, .truncate⟩ (by decide) source) 4
    [.item ⟨[0x61], 1, false⟩, .failed (.transport "cut")] <+: PollAnswer.given polled.2.1 ∧
      polled.2.2 = [] := by
  obtain ⟨-, hwhole, -, hsettled, -⟩ := pollTimes_start ⟨1, .truncate⟩ (by decide)
    [.chunk [0x61, 0x0d], .pending, .chunk [0x0a, 0x62], .failure "cut"] 4
  rw [Splitter.readAll_eq_run] at hwhole hsettled
  exact ⟨hwhole (by decide), (hsettled (by decide)).1⟩

end PolledLines

end ServerSentEvents
