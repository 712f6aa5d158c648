import ServerSentEvents.Proofs.Emission
import ServerSentEvents.Proofs.Session.Schedule
import ServerSentEvents.Proofs.Settings

/-!
# What a session tells of its stream

Whatever the writer of dead letters does in the meantime, a session prints the events of its stream,
counts what the stream counts, and fails with the stream unless the writer fails.  The invariant
`Tasks.Tells` splits the forecast of the stream into what the decoding task has dealt with, what it
has in hand, and what is still to come.
-/

namespace ServerSentEvents

/-! ## What a stream makes known -/

/-- Whether a record tells the end of a stream. -/
def LogRecord.isFinish : LogRecord → Bool
  | streamFinished .. => true
  | _ => false

namespace Splitter

theorem ofStream_ending (s : Splitter) (failure? : Option String) :
    Notice.OfStream (s.ending failure?).notices := by
  unfold ending
  split
  · simp [Notice.OfStream]
  · simp [Notice.OfStream]
  · intro record hrecord
    rcases List.mem_cons.mp hrecord with hend | hclose
    · cases hend
      rfl
    · exact s.ofStream_close record hclose

end Splitter

theorem BlockReader.ofStream_relay (r : BlockReader) (answers : List (PollAnswer Line)) :
    Notice.OfStream (r.relay answers).2.2 := by
  rw [Notice.ofStream_iff]
  intro record hrecord
  rw [eq_of_mem_records_relay hrecord]
  rfl

namespace PolledEvents

/-- The records that a stream of events makes known are those of a stream. -/
theorem ofStream_forecast_start (limits : LineLimits) (hpos : 0 < limits.maxSize)
    (source : List SourceItem) : Notice.OfStream (start limits hpos source).forecast.notices := by
  simp only [forecast, start, PolledLines.forecast_start, Splitter.forecast,
    Notice.ofStream_append]
  exact ⟨⟨Splitter.ofStream_readAll _ _, Splitter.ofStream_ending _ _⟩,
    BlockReader.ofStream_relay _ _⟩

/-- Every event that a poll answers is counted. -/
theorem events_poll (s : PolledEvents) :
    s.poll.1.events = s.events + (PollAnswer.items [s.poll.2.1]).length := by
  fun_induction poll s with
  | case1 => simp [PollAnswer.items, PollAnswer.item?]
  | case2 s lines line notices hpolled blocks htaken next answer later hrest ih =>
      rw [hrest] at ih
      exact ih
  | case3 => simp [PollAnswer.items, PollAnswer.item?]
  | case4 => simp [PollAnswer.items, PollAnswer.item?]
  | case5 => simp [PollAnswer.items, PollAnswer.item?]

end PolledEvents

theorem PollAnswer.items_map_failed {α : Type} (errors : List StreamError) :
    items (errors.map (failed : StreamError → PollAnswer α)) = [] := by
  simp [items, item?]

namespace Decoder

/-- What fails the stream that a decoder has read: a line that was too long, or else the source. -/
def streamError? (d : Decoder) (failure? : Option String) : Option StreamError :=
  d.error?.or (failure?.map .transport)

theorem answers_ending (d : Decoder) (failure? : Option String) :
    (d.ending failure?).2.1 = (d.streamError? failure?).toList.map .failed := by
  unfold ending streamError?
  cases d.error? with
  | some error => rfl
  | none => cases failure? <;> rfl

end Decoder

/-- The bytes that are printed for events. -/
def Event.printedBytes (format : PrintFormat) (events : List Event) : Bytes :=
  events.flatMap fun e => Utf8.encode (e.printed format)

theorem Device.print_of_printed (format : PrintFormat) (events : List Event) (e : Event) :
    ({ taken := (Event.printedBytes format events).toArray } : Device).print format e =
      ({ taken := (Event.printedBytes format (events ++ [e])).toArray }, none) := by
  simp [print, write, flush, Event.printedBytes]

/-- The end of a stream is not told in place of a notice. -/
theorem Sink.filter_isFinish_accept (sink : Sink) {notice : Notice}
    (hrecord : Notice.OfStream [notice]) :
    (sink.accept notice).2.filter (·.isFinish) = [] := by
  have hsink : ∀ record : LogRecord, record.isOfSink = true → record.isFinish = false := by
    intro record hsink
    cases record <;> first | rfl | cases hsink
  rw [filter_accept hsink]
  cases notice with
  | record record =>
      have hstream := hrecord record List.mem_cons_self
      cases record <;> first | rfl | cases hstream
  | diagnostic d => rfl

namespace Session

/-! ## The invariant of the decoding task -/

namespace Decoding

/-- The notices that have still to be passed on. -/
def untold : Decoding → List Notice
  | telling untold _ => untold
  | _ => []

/-- What the stream has answered that is not printed: an event in hand, or its failure. -/
def answers : Decoding → List (PollAnswer Event)
  | telling _ (.item event) => [.item event]
  | telling _ (.failed error) => [.failed error]
  | stopped (some (.decodeFailed error)) => [.failed error]
  | _ => []

theorem answers_telling (a b : List Notice) (answer : PollAnswer Event) :
    (telling a answer).answers = (telling b answer).answers := by
  cases answer <;> rfl

/-- Whether the stream has given its last answer. -/
def isLast : Decoding → Bool
  | polling => false
  | telling _ answer => answer.isFinal
  | stopped _ => true

end Decoding

namespace Tasks

/-- The decoding task has printed `printed` and passed `told` on, of all that its stream was to
answer and to make known. -/
structure Tells (format : PrintFormat) (f : Forecast Event (Splitter × BlockReader))
    (printed : List Event) (told : List Notice) (p : Tasks) : Prop where
  sound : p.stream.Sound
  notices_eq : f.notices = told ++ p.decoding.untold ++ p.stream.forecast.notices
  answers_eq : f.answers = printed.map .item ++ p.decoding.answers ++ p.stream.forecast.answers
  final_eq : p.stream.forecast.final = f.final
  last : p.decoding.isLast = true → p.stream.poll = (p.stream, .ended, [])
  events_eq : p.stream.events = printed.length + (PollAnswer.items p.decoding.answers).length
  output_eq : p.output = { taken := (Event.printedBytes format printed).toArray }
  stopped : p.decoding.isOver = true →
    ∃ error? : Option StreamError, p.decoding = .stopped (error?.map .decodeFailed)
  log_eq : p.log.toList.filter (·.isFinish) =
    if p.decoding.isOver then [finished p.stream] else []

namespace Tells

variable {format : PrintFormat} {f : Forecast Event (Splitter × BlockReader)}
  {printed : List Event} {told : List Notice} {p : Tasks}

/-- A poll brings something to pass on, and mostly something to print. -/
theorem poll (h : Tells format f printed told p) (hpolling : p.decoding = .polling) :
    Tells format f printed told
      { p with
        stream := p.stream.poll.1
        decoding := .telling p.stream.poll.2.2 p.stream.poll.2.1 } := by
  obtain ⟨hsound, hleads, hlast⟩ := PolledEvents.foretold p.stream h.sound
  have hnotices := h.notices_eq
  have hanswers := h.answers_eq
  have hevents := h.events_eq
  have hlog := h.log_eq
  simp only [hpolling, Decoding.untold, Decoding.answers, Decoding.isOver, List.append_nil]
    at hnotices hanswers hevents hlog
  refine ⟨hsound, ?_, ?_, hleads.final_eq.trans h.final_eq, fun hfinal => (hlast hfinal).1, ?_,
    h.output_eq, nofun, hlog⟩
  · rw [hnotices, hleads.notices_eq, List.append_assoc]
    rfl
  · have hnext := hleads.answers_eq
    rw [hanswers]
    cases hanswer : p.stream.poll.2.1 with
    | item event =>
        rw [hanswer] at hnext
        simp [Decoding.answers, hnext.1]
    | failed error =>
        rw [hanswer] at hnext
        simp [Decoding.answers, hnext.1]
    | pending =>
        rw [hanswer] at hnext
        simp [Decoding.answers, hnext.1]
    | ended =>
        rw [hanswer] at hnext
        simp [Decoding.answers, hnext.1, hnext.2]
  · rw [p.stream.events_poll, hevents]
    cases p.stream.poll.2.1 <;> rfl

/-- What is passed on was to be made known. -/
theorem ofStream_of_telling (h : Tells format f printed told p) (hf : Notice.OfStream f.notices)
    {notice : Notice} {untold : List Notice} {answer : PollAnswer Event}
    (htelling : p.decoding = .telling (notice :: untold) answer) : Notice.OfStream [notice] := by
  intro record hmem
  apply hf record
  rw [h.notices_eq, htelling]
  simp [Decoding.untold, List.mem_singleton.mp hmem]

/-- One notice is passed on. -/
theorem tell (h : Tells format f printed told p) (hf : Notice.OfStream f.notices) {notice : Notice}
    {untold : List Notice} {answer : PollAnswer Event}
    (htelling : p.decoding = .telling (notice :: untold) answer) :
    Tells format f printed (told ++ [notice])
      { p with
        decoding := .telling untold answer
        sink := (p.sink.accept notice).1
        log := p.log ++ (p.sink.accept notice).2 } := by
  have hnotices := h.notices_eq
  have hanswers := h.answers_eq
  have hlast := h.last
  have hevents := h.events_eq
  have hlog := h.log_eq
  rw [htelling] at hnotices hanswers hlast hevents hlog
  have hsame := Decoding.answers_telling (notice :: untold) untold answer
  have hrecord := h.ofStream_of_telling hf htelling
  refine ⟨h.sound, ?_, ?_, h.final_eq, hlast, ?_, h.output_eq, nofun, ?_⟩
  · rw [hnotices]
    simp [Decoding.untold]
  · rwa [hsame] at hanswers
  · rwa [hsame] at hevents
  · rw [Array.toList_appendList, List.filter_append, hlog, p.sink.filter_isFinish_accept hrecord]
    rfl

/-- An answer is printed, or ends the task. -/
theorem act (h : Tells format f printed told p) {answer : PollAnswer Event}
    (htold : p.decoding = .telling [] answer) :
    ∃ printed, Tells format f printed told (p.act format answer) := by
  have hnotices := h.notices_eq
  have hanswers := h.answers_eq
  have hlast := h.last
  have hevents := h.events_eq
  have hlog := h.log_eq
  rw [htold] at hnotices hanswers hlast hevents hlog
  have hstop :
      (p.log.push (finished p.stream)).toList.filter (·.isFinish) = [finished p.stream] := by
    rw [Array.toList_push, List.filter_append, hlog]
    rfl
  have hgoing {P : Prop} (hnot : false = true) : P := absurd hnot Bool.false_ne_true
  cases answer with
  | item event =>
      have hprint := Device.print_of_printed format printed event
      refine ⟨printed ++ [event], ?_⟩
      simp only [Tasks.act, react, h.output_eq, hprint]
      refine ⟨h.sound, hnotices, ?_, h.final_eq, hgoing, ?_, rfl, hgoing, hlog⟩
      · rw [hanswers]
        simp [Decoding.answers]
      · rw [hevents]
        simp [Decoding.answers, PollAnswer.items, PollAnswer.item?]
  | failed error =>
      exact ⟨printed, h.sound, hnotices, hanswers, h.final_eq, fun _ => hlast rfl, hevents,
        h.output_eq, fun _ => ⟨some error, rfl⟩, hstop⟩
  | pending =>
      exact ⟨printed, h.sound, hnotices, hanswers, h.final_eq, hgoing, hevents, h.output_eq, hgoing,
        hlog⟩
  | ended =>
      exact ⟨printed, h.sound, hnotices, hanswers, h.final_eq, fun _ => hlast rfl, hevents,
        h.output_eq, fun _ => ⟨none, rfl⟩, hstop⟩

/-- The writer makes no difference to the decoding task. -/
theorem write (h : Tells format f printed told p) (sink : Sink) (writer? : Option Writer) :
    Tells format f printed told { p with sink, writer? } :=
  { h with }

/-- Whatever either task does next, the invariant holds. -/
theorem step (h : Tells format f printed told p) (hf : Notice.OfStream f.notices) {next : Tasks}
    (hstep : Step format p next) : ∃ printed told, Tells format f printed told next := by
  cases hstep with
  | poll hpolling => exact ⟨printed, told, h.poll hpolling⟩
  | tell htelling => exact ⟨printed, _, h.tell hf htelling⟩
  | act htold =>
      obtain ⟨printed, hact⟩ := h.act htold
      exact ⟨printed, told, hact⟩
  | write => exact ⟨printed, told, h.write _ _⟩

/-- Whatever the tasks have done, the invariant holds. -/
theorem run (h : Tells format f printed told p) (hf : Notice.OfStream f.notices) {last : Tasks}
    (hrun : Run format p last) : ∃ printed told, Tells format f printed told last := by
  induction hrun with
  | refl => exact ⟨printed, told, h⟩
  | tail _ hstep ih =>
      obtain ⟨printed, told, hlast⟩ := ih
      exact hlast.step hf hstep

theorem start (disk : Disk) (tree : FileTree) (settings : Settings)
    (hpos : 0 < settings.limits.maxSize) (source : List SourceItem) {log : Array LogRecord}
    (hlog : ∀ record ∈ log, record.isFinish = false) :
    Tells settings.output (PolledEvents.start settings.limits hpos source).forecast [] []
      (Tasks.start disk tree settings (.start settings.limits hpos) source log) where
  sound := PolledLines.sound_start settings.limits hpos source
  notices_eq := rfl
  answers_eq := rfl
  final_eq := rfl
  last := nofun
  events_eq := rfl
  output_eq := rfl
  stopped := nofun
  log_eq := by
    have hnone : log.toList.filter (·.isFinish) = [] := by
      refine List.filter_eq_nil_iff.mpr fun record hrecord => ?_
      simp [hlog record (Array.mem_toList_iff.mp hrecord)]
    rw [Tasks.start, Array.toList_push, List.filter_append, hnone]
    rfl

/-- At its end the decoding task has printed the events of its stream, and fails as it does. -/
theorem of_over {limits : LineLimits} {hpos : 0 < limits.maxSize} {source : List SourceItem}
    (h : Tells format (PolledEvents.start limits hpos source).forecast printed told p)
    (hover : p.decoding.isOver = true) :
    let fed := (Decoder.start limits hpos).readAll (SourceItem.chunks source)
    let ended := fed.1.ending (SourceItem.failure? source)
    printed = fed.2.1 ∧
      p.decoding.failure? =
        (fed.1.streamError? (SourceItem.failure? source)).map .decodeFailed ∧
      finished p.stream =
        .streamFinished fed.2.1.length ended.1.counts ended.1.lastEventId ∧
      (PolledEvents.start limits hpos source).forecast.notices = told := by
  intro fed ended
  obtain ⟨hanswers, hid, hcounts, -⟩ := PolledEvents.forecast_start limits hpos source
  obtain ⟨error?, hdecoding⟩ := h.stopped hover
  have hstill := h.last (by rw [hdecoding]; rfl)
  obtain ⟨hnone, hsilent, hview⟩ := PolledEvents.foretold.forecast_of_over h.sound hstill
  have hfinal := h.final_eq
  rw [hview] at hfinal
  have hopen : p.decoding.answers = error?.toList.map .failed := by
    rw [hdecoding]
    cases error? <;> rfl
  have hsplit : printed.map PollAnswer.item ++ error?.toList.map .failed =
      fed.2.1.map .item ++
        (fed.1.streamError? (SourceItem.failure? source)).toList.map .failed := by
    rw [← Decoder.answers_ending, ← hanswers, h.answers_eq, hnone, hopen, List.append_nil]
  have hprinted : printed = fed.2.1 := by
    have hitems := congrArg PollAnswer.items hsplit
    simpa only [PollAnswer.items_append, PollAnswer.items_map_item, PollAnswer.items_map_failed,
      List.append_nil] using hitems
  have herror : error? = fed.1.streamError? (SourceItem.failure? source) := by
    rw [hprinted] at hsplit
    have hlists := List.append_cancel_left hsplit
    cases error? <;> cases hstream : fed.1.streamError? (SourceItem.failure? source) <;>
      simp_all
  refine ⟨hprinted, ?_, ?_, ?_⟩
  · rw [hdecoding, herror]
    rfl
  · have hevents := h.events_eq
    rw [hopen, PollAnswer.items_map_failed, hprinted] at hevents
    rw [finished, hevents, PolledEvents.counts, PolledEvents.lastEventId, ← hid, ← hcounts,
      ← hfinal]
    rfl
  · rw [h.notices_eq, hsilent, hdecoding]
    simp [Decoding.untold]

/-- What a session leaves behind whose tasks are over. -/
theorem outcome_of_over {limits : LineLimits} {hpos : 0 < limits.maxSize}
    {source : List SourceItem} {tree : FileTree}
    (h : Tells format (PolledEvents.start limits hpos source).forecast printed told p)
    (hover : p.Over) :
    let fed := (Decoder.start limits hpos).readAll (SourceItem.chunks source)
    let ended := fed.1.ending (SourceItem.failure? source)
    let streamError? := fed.1.streamError? (SourceItem.failure? source)
    let outcome := p.outcome tree
    outcome.output.taken.toList = Event.printedBytes format fed.2.1 ∧
      outcome.failure? = (p.storeError?.map .storeFailed).or (streamError?.map .decodeFailed) ∧
      outcome.log.toList.filter (·.isFinish) =
        [.streamFinished fed.2.1.length ended.1.counts ended.1.lastEventId] := by
  intro fed ended streamError? outcome
  obtain ⟨hprinted, hfailure, hfinished, -⟩ := h.of_over hover.1
  have hlog := h.log_eq
  rw [hover.1, if_pos rfl, hfinished] at hlog
  have houtput : outcome.output = p.output := by
    simp only [outcome, Tasks.outcome]
    split <;> rfl
  refine ⟨?_, ?_, ?_⟩
  · rw [houtput, h.output_eq, hprinted]
  · cases hwriter : p.writer? with
    | none => simp [outcome, Tasks.outcome, storeError?, hwriter, hfailure, streamError?, fed]
    | some w =>
        simp [outcome, Tasks.outcome, storeError?, hwriter, failure?_conclude, hfailure,
          streamError?, fed]
  · simp only [outcome, Tasks.outcome]
    split
    · exact hlog
    · rw [Array.toList_appendList, List.filter_append, hlog, List.append_right_eq_self,
        List.filter_eq_nil_iff]
      intro record hrecord
      rw [eq_of_mem_conclude hrecord]
      exact Bool.false_ne_true

end Tells

end Tasks

end Session

/-- Settings that are settled have a limit, and nothing is logged of a stream yet. -/
theorem Settings.settle_eq_ok {parse? : String → Option YamlNode} {arguments : Arguments}
    {read? : String → Option Bytes} {settings : Settings} {log : List LogRecord}
    (hsettle : settle parse? arguments read? = .ok (settings, log)) :
    0 < settings.limits.maxSize ∧ ∀ record ∈ log.toArray, record.isFinish = false := by
  rw [settle_eq] at hsettle
  cases hloaded : loaded parse? arguments.config read? with
  | error error => simp [hloaded, Except.bind] at hsettle
  | ok file =>
      simp only [hloaded, Except.bind, check_eq] at hsettle
      split at hsettle
      · cases hsettle
      · next hzero =>
          obtain ⟨rfl, rfl⟩ : file.overlay arguments = settings ∧
              (file.overlay arguments).warnings = log := by
            simpa [Except.map] using hsettle
          refine ⟨Nat.pos_of_ne_zero hzero, ?_⟩
          intro record hrecord
          rw [List.mem_toArray, warnings] at hrecord
          split at hrecord
          · rw [List.mem_singleton.mp hrecord]
            rfl
          · cases hrecord

/-- There is a source to be read from: the standard input, or what is at the end of a path if it may
be opened.  A directory can be opened, and fails at once.  Nothing is fetched from anywhere else. -/
inductive Surroundings.Opens (s : Surroundings) : InputSource → List SourceItem → Prop where
  | stdin : Opens s .stdin s.stdin
  | file {path : String} {bytes : Bytes} (hmay : s.disk.mayOpen path = true)
      (hfile : s.tree.find? path = some (.file bytes)) :
      Opens s (.file path) (s.disk.readout path bytes)
  | directory {path : String} (hmay : s.disk.mayOpen path = true)
      (hdirectory : s.tree.find? path = some .directory) :
      Opens s (.file path) [.failure Disk.directoryRead]

namespace Session

/-- A source is opened exactly where there is one to be read from. -/
theorem openSource_eq_ok_iff {s : Surroundings} {input : InputSource} {source : List SourceItem} :
    openSource s input = .ok source ↔ s.Opens input source := by
  cases input with
  | stdin =>
      constructor
      · rintro ⟨⟩
        exact .stdin
      · rintro ⟨⟩
        rfl
  | url url => exact ⟨nofun, nofun⟩
  | file path =>
      constructor
      · intro hopen
        by_cases hmay : s.disk.mayOpen path = true
        · cases hnode : s.tree.find? path with
          | none => simp [openSource, Disk.openFile, hmay, hnode] at hopen
          | some node =>
              cases node with
              | file bytes =>
                  obtain rfl : s.disk.readout path bytes = source := by
                    simpa [openSource, Disk.openFile, hmay, hnode] using hopen
                  exact .file hmay hnode
              | directory =>
                  obtain rfl : [.failure Disk.directoryRead] = source := by
                    simpa [openSource, Disk.openFile, hmay, hnode] using hopen
                  exact .directory hmay hnode
        · simp [openSource, Disk.openFile, hmay] at hopen
      · rintro (_ | ⟨hmay, hfile⟩ | ⟨hmay, hdirectory⟩)
        · simp [openSource, Disk.openFile, hmay, hfile]
        · simp [openSource, Disk.openFile, hmay, hdirectory]

/-- Where there is no writer, it does not fail. -/
theorem Tasks.storeError?_of_run {format : PrintFormat} {p last : Tasks}
    (hrun : Run format p last) (hnone : p.writer? = none) : last.storeError? = none := by
  have hlast : last.writer? = none := by
    induction hrun with
    | refl => exact hnone
    | tail _ hstep ih =>
        cases hstep with
        | poll => exact ih
        | tell => exact ih
        | act => exact (act_cases _ _ _).1.trans ih
        | write hwriter => cases ih.symm.trans hwriter
  rw [storeError?, hlast]
  rfl

/-- The failure of the writer comes before that of the stream. -/
theorem className_of_failures (storeError? : Option DeadLetterError)
    (streamError? : Option StreamError) :
    ((storeError?.map .storeFailed).or (streamError?.map .decodeFailed)).map
        SessionError.className =
      if storeError?.isSome then some "output_failed"
      else if streamError?.isSome then some "decode_failed"
      else none := by
  cases storeError? <;> cases streamError? <;> rfl

/-- A session tells the truth.  Without settings or without a source it leaves nothing behind.
Otherwise it prints the events of its stream, fails with the writer or else with the stream, and
tells once how many events and lines there were.  It does so in every order in which its two tasks
can do what they do, wherever the source fails and whatever the disk refuses. -/
theorem run_tells (parse? : String → Option YamlNode) (s : Surroundings) (arguments : Arguments) :
    match Settings.settle parse? arguments s.contents? with
    | .error error =>
      run parse? s arguments = { tree := s.tree, failure? := some (.configInvalid error) }
    | .ok (settings, log) =>
      match openSource s arguments.source with
      | .error error =>
        (∀ source, ¬s.Opens arguments.source source) ∧
          run parse? s arguments =
            { tree := s.tree, log := log.toArray, failure? := some (.sourceFailed error) }
      | .ok source =>
        s.Opens arguments.source source ∧
        ∃ hpos : 0 < settings.limits.maxSize,
          let fed := (Decoder.start settings.limits hpos).readAll (SourceItem.chunks source)
          let ended := fed.1.ending (SourceItem.failure? source)
          let streamError? := fed.1.streamError? (SourceItem.failure? source)
          let start :=
            Tasks.start s.disk s.tree settings (.start settings.limits hpos) source log.toArray
          (∃ p, Tasks.Run settings.output start p ∧ p.Over ∧
            (p.storeError? = none → run parse? s arguments = p.outcome s.tree) ∧
            (run parse? s arguments).withoutDrops = (p.outcome s.tree).withoutDrops) ∧
          (∀ p, Tasks.Run settings.output start p → p.Over →
            let outcome := p.outcome s.tree
            outcome.output.taken.toList = Event.printedBytes settings.output fed.2.1 ∧
              outcome.failure? =
                (p.storeError?.map .storeFailed).or (streamError?.map .decodeFailed) ∧
              outcome.failure?.map (·.className) =
                (if p.storeError?.isSome then some "output_failed"
                else if streamError?.isSome then some "decode_failed"
                else none) ∧
              outcome.log.toList.filter (·.isFinish) =
                [.streamFinished fed.2.1.length ended.1.counts ended.1.lastEventId]) ∧
          ∀ n, fed.2.1.length + 1 + SourceItem.waits source ≤ n →
            PollAnswer.items
              (pollTimes PolledEvents.poll (.start settings.limits hpos source) n).2.1 =
                fed.2.1 := by
  cases hsettle : Settings.settle parse? arguments s.contents? with
  | error error => simp [run, hsettle]
  | ok settled =>
      obtain ⟨settings, log⟩ := settled
      obtain ⟨hpos, hlog⟩ := Settings.settle_eq_ok hsettle
      have hsplitter : Splitter.ofLimits settings.limits = .ok (.start settings.limits hpos) :=
        dif_pos hpos
      cases hsource : openSource s arguments.source with
      | error error =>
          refine ⟨fun source hopens => ?_, ?_⟩
          · rw [openSource_eq_ok_iff.mpr hopens] at hsource
            cases hsource
          · simp [run, equip, hsettle, hsource]
      | ok source =>
          have hrun : run parse? s arguments =
              decode s.disk s.tree settings (.start settings.limits hpos) source log.toArray := by
            simp [run, equip, hsettle, hsource, hsplitter]
          refine ⟨openSource_eq_ok_iff.mp hsource, hpos, ?_, ?_, ?_⟩
          · rw [hrun]
            exact Tasks.exists_run_decode s.disk s.tree settings _ source log.toArray
          · intro p hreached hover
            obtain ⟨printed, told, htells⟩ :=
              (Tasks.Tells.start s.disk s.tree settings hpos source hlog).run
                (PolledEvents.ofStream_forecast_start settings.limits hpos source) hreached
            obtain ⟨hprinted, hfailure, hfinished⟩ := htells.outcome_of_over hover
            exact ⟨hprinted, hfailure, hfailure ▸ className_of_failures _ _, hfinished⟩
          · intro n henough
            exact PolledEvents.items_pollTimes settings.limits hpos source henough

/-- A file cannot be read to its end.  The event that was complete by then is printed, and the
session fails with the cause. -/
theorem run_tells_of_failing_source :
    let parse? : String → Option YamlNode := fun _ => none
    let s : Surroundings :=
      { tree := { entries := [(["in"], .file (Utf8.encode "data: a\n\ndata: b\n\n"))] }
        disk := { readout := fun _ bytes => [.chunk (bytes.take 11), .pending, .failure "broken"] } }
    let arguments : Arguments := { input := some "in", format := some .text }
    (run parse? s arguments).output.taken.toList = Utf8.encode "data: a\n\n" ∧
      (run parse? s arguments).failure? = some (.decodeFailed (.transport "broken")) := by
  intro parse? s arguments
  obtain ⟨-, hpos, ⟨p, hreached, hover, -, hsame⟩, htells, -⟩ := run_tells parse? s arguments
  obtain ⟨hprinted, hfailure, -⟩ := htells p hreached hover
  rw [Decoder.readAll_eq (Decoder.sound_start _ _), Splitter.readAll_eq_run] at hprinted hfailure
  obtain rfl : hpos = of_decide_eq_true rfl := rfl
  have houtput := congrArg Outcome.output hsame
  have hfailures := congrArg Outcome.failure? hsame
  rw [Outcome.output_withoutDrops, Outcome.output_withoutDrops] at houtput
  rw [Outcome.failure?_withoutDrops, Outcome.failure?_withoutDrops] at hfailures
  rw [houtput, hfailures, hfailure, Tasks.storeError?_of_run hreached rfl]
  exact ⟨hprinted.trans (by decide +kernel), by decide +kernel⟩

end Session

end ServerSentEvents
