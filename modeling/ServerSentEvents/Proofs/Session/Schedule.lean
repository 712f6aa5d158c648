import ServerSentEvents.Proofs.DeadLetter
import ServerSentEvents.Proofs.Notices
import ServerSentEvents.Proofs.Session.Tasks

/-!
# The order in which a session does things

A session does what its tasks do in one of the orders that there are (`Tasks.exists_run_decode`):
its writer comes to the channel after every poll.  While `Tasks.Mirrors` holds, the tasks are where
the session is between two polls.
-/

namespace ServerSentEvents

namespace Session

/-- The log without the records that tell of dropped diagnostics. -/
def dropless (log : Array LogRecord) : List LogRecord :=
  log.toList.filter (!·.isDrop)

end Session

/-- What a session leaves behind, without the records that tell of dropped diagnostics. -/
def Outcome.withoutDrops (o : Outcome) : Outcome :=
  { o with log := (Session.dropless o.log).toArray }

@[simp] theorem Outcome.output_withoutDrops (o : Outcome) : o.withoutDrops.output = o.output := rfl

@[simp] theorem Outcome.failure?_withoutDrops (o : Outcome) :
    o.withoutDrops.failure? = o.failure? := rfl

/-! ## The sinks of a session -/

namespace Sink

@[simp] theorem acceptAll_nil (sink : Sink) : sink.acceptAll [] = (sink, []) := rfl

theorem acceptAll_cons (sink : Sink) (notice : Notice) (notices : List Notice) :
    sink.acceptAll (notice :: notices) =
      (((sink.accept notice).1.acceptAll notices).1,
        (sink.accept notice).2 ++ ((sink.accept notice).1.acceptAll notices).2) :=
  Transducer.run_cons accept sink notice notices

theorem acceptAll_logger (notices : List Notice) : (logger.acceptAll notices).1 = logger := by
  induction notices with
  | nil => rfl
  | cons notice notices ih =>
      rw [acceptAll_cons]
      cases notice <;> exact ih

/-- A channel takes what it has room for or refuses it, and the log tells nothing else of it. -/
theorem accept_channel (c : Channel) (notice : Notice) :
    ∃ next, ((channel c).accept notice).1 = channel next ∧ next.capacity = c.capacity ∧
      next.closed = c.closed ∧ (c.closed = true → next = c) ∧
      ((channel c).accept notice).2.filter (!·.isDrop) =
        notice.record?.toList.filter (!·.isDrop) := by
  cases notice with
  | record r => exact ⟨c, rfl, rfl, rfl, fun _ => rfl, rfl⟩
  | diagnostic d =>
      simp only [accept, report, Channel.send]
      by_cases hclosed : c.closed = true
      · simp [hclosed, LogRecord.isDrop, Notice.record?]
      · by_cases hroom : c.waiting.length < c.capacity
        · simp [hclosed, hroom, Notice.record?]
        · simp [hclosed, hroom, LogRecord.isDrop, Notice.record?]

theorem acceptAll_channel (c : Channel) (notices : List Notice) :
    ∃ next, ((channel c).acceptAll notices).1 = channel next ∧ next.capacity = c.capacity ∧
      next.closed = c.closed ∧ (c.closed = true → next = c) ∧
      ((channel c).acceptAll notices).2.filter (!·.isDrop) =
        (notices.filterMap Notice.record?).filter (!·.isDrop) := by
  induction notices generalizing c with
  | nil => exact ⟨c, rfl, rfl, rfl, fun _ => rfl, rfl⟩
  | cons notice notices ih =>
      obtain ⟨next, hsink, hcapacity, hclosed, hsame, hlog⟩ := accept_channel c notice
      obtain ⟨last, hlast, hcapacity', hclosed', hsame', hlog'⟩ := ih next
      rw [acceptAll_cons, hsink, List.filterMap_cons]
      refine ⟨last, hlast, hcapacity'.trans hcapacity, hclosed'.trans hclosed, ?_, ?_⟩
      · intro hgone
        rw [← hsame hgone]
        exact hsame' (hclosed.trans hgone)
      · rw [List.filter_append, hlog, hlog', ← List.filter_append]
        cases notice <;> rfl

end Sink

namespace Session

open DeadLetter (queue)

namespace Writer

/-! ## A writer that catches up -/

/-- The writer has handled these diagnostics and waits at an empty channel, or has gone away. -/
structure CaughtUp (tree : FileTree) (handled : List Diagnostic) (w : Writer) (c : Channel) :
    Prop where
  progress_eq : w.progress = DeadLetter.store w.disk tree w.directory handled
  waits : w.progress.error? = none → w.writing = .receiving ∧ c = queue
  gone : w.progress.error? ≠ none → w.writing = .stopped ∧ c.closed = true

/-- A writer that receives diagnostics can empty the channel, unless one cannot be stored. -/
theorem exists_run_receive (deserted : Bool) {w : Writer} {c : Channel}
    (hreceiving : w.writing = .receiving) (hgoing : w.progress.error? = none) :
    ∃ next rest, Relation.ReflTransGen (Step deserted) (w, c) (next, rest) ∧
      next.disk = w.disk ∧ next.directory = w.directory ∧
      next.progress = c.waiting.foldl (DeadLetter.Progress.handle w.disk w.directory) w.progress ∧
      (next.progress.error? = none → next.writing = .receiving ∧ rest = { c with waiting := [] }) ∧
      (next.progress.error? ≠ none → next.writing = .stopped ∧ rest.closed = true) := by
  obtain ⟨capacity, hcapacity, waiting, closed⟩ := c
  induction waiting generalizing w with
  | nil =>
      exact ⟨w, _, .refl, rfl, rfl, rfl, fun _ => ⟨hreceiving, rfl⟩,
        fun hfailed => absurd hgoing hfailed⟩
  | cons d waiting ih =>
      let stored : Writer :=
        { w with writing := .receiving, progress := w.progress.handle w.disk w.directory d }
      have hstored : Relation.ReflTransGen (Step deserted)
          (w, ⟨capacity, hcapacity, d :: waiting, closed⟩)
          (stored, ⟨capacity, hcapacity, waiting, closed⟩) :=
        .head (.receive hreceiving hgoing rfl) (.head (.store rfl) .refl)
      by_cases herror : stored.progress.error? = none
      · obtain ⟨next, rest, hrun, hdisk, hdirectory, hprogress, hwaits, hgone⟩ := ih rfl herror
        exact ⟨next, rest, hstored.trans hrun, hdisk, hdirectory, hprogress, hwaits, hgone⟩
      · refine ⟨_, _, hstored.tail (.fail rfl herror), rfl, rfl, ?_, fun h => absurd h herror,
          fun _ => ⟨rfl, rfl⟩⟩
        exact (DeadLetter.Progress.foldl_handle_of_error herror w.directory waiting).symm

/-- A writer that has caught up can do so again after more notices. -/
theorem CaughtUp.exists_run_acceptAll (deserted : Bool) {tree : FileTree}
    {handled : List Diagnostic} {w : Writer} {c next : Channel} (h : CaughtUp tree handled w c)
    {notices : List Notice} (hsink : ((Sink.channel c).acceptAll notices).1 = .channel next) :
    ∃ after rest, Relation.ReflTransGen (Step deserted) (w, next) (after, rest) ∧
      after.disk = w.disk ∧ after.directory = w.directory ∧
      (w.progress.error? = none → CaughtUp tree (handled ++ next.waiting) after rest) ∧
      (w.progress.error? ≠ none → ∀ more, CaughtUp tree (handled ++ more) after rest) := by
  obtain ⟨last, hlast, hcapacity, hclosed, hsame, -⟩ := Sink.acceptAll_channel c notices
  obtain rfl : last = next := Sink.channel.inj (hlast.symm.trans hsink)
  by_cases hfailed : w.progress.error? = none
  · obtain ⟨hreceiving, rfl⟩ := h.waits hfailed
    obtain ⟨after, rest, hrun, hdisk, hdirectory, hprogress, hwaits, hgone⟩ :=
      exists_run_receive deserted (c := last) hreceiving hfailed
    refine ⟨after, rest, hrun, hdisk, hdirectory, fun _ => ⟨?_, ?_, hgone⟩,
      fun h => absurd hfailed h⟩
    · rw [hprogress, h.progress_eq, hdisk, hdirectory, DeadLetter.store_append]
    · intro herror
      obtain ⟨hwriting, rfl⟩ := hwaits herror
      refine ⟨hwriting, ?_⟩
      obtain ⟨capacity, hpos, waiting, closed⟩ := last
      obtain ⟨rfl, rfl⟩ : capacity = queue.capacity ∧ closed = false := ⟨hcapacity, hclosed⟩
      rfl
  · obtain ⟨hover, hgone⟩ := h.gone hfailed
    refine ⟨w, last, .refl, rfl, rfl, fun h => absurd h hfailed, fun _ more => ⟨?_, ?_, ?_⟩⟩
    · rw [DeadLetter.store_append, ← h.progress_eq,
        DeadLetter.Progress.foldl_handle_of_error hfailed]
    · intro herror
      exact absurd herror hfailed
    · intro _
      exact ⟨hover, hclosed.trans hgone⟩

end Writer

namespace Tasks

/-! ## Doing one thing after the other -/

variable {format : PrintFormat}

theorem run_tell {p : Tasks} {notices : List Notice} {answer : PollAnswer Event}
    (htelling : p.decoding = .telling notices answer) :
    Run format p
      { p with
        decoding := .telling [] answer
        sink := (p.sink.acceptAll notices).1
        log := p.log ++ (p.sink.acceptAll notices).2 } := by
  induction notices generalizing p with
  | nil =>
      have hsame : p =
          { p with decoding := .telling [] answer, log := p.log ++ ([] : List LogRecord) } := by
        rw [← htelling]
        simp
      rw [Sink.acceptAll_nil, ← hsame]
      exact .refl
  | cons notice notices ih =>
      have hrest := ih (p := { p with
        decoding := .telling notices answer
        sink := (p.sink.accept notice).1
        log := p.log ++ (p.sink.accept notice).2 }) rfl
      have hlog (first later : List LogRecord) :
          p.log ++ first ++ later = p.log ++ (first ++ later) :=
        Array.toList_inj.mp (by simp)
      rw [Sink.acceptAll_cons, ← hlog]
      exact .head (.tell htelling) hrest

theorem run_write {p : Tasks} {x y : Writer × Channel} (hwriter : p.writer? = some x.1)
    (hsink : p.sink = .channel x.2)
    (hrun : Relation.ReflTransGen (Writer.Step p.decoding.isOver) x y) :
    Run format p { p with sink := .channel y.2, writer? := some y.1 } := by
  induction hrun with
  | refl =>
      rw [← hwriter, ← hsink]
      exact .refl
  | tail _ hstep ih => exact .tail ih (.write rfl rfl hstep)

/-! ## The order in which a session does things -/

@[simp] theorem dropless_push (log : Array LogRecord) (record : LogRecord) :
    dropless (log.push record) = dropless log ++ [record].filter (!·.isDrop) := by
  simp [dropless]

theorem dropless_append (log : Array LogRecord) (records : List LogRecord) :
    dropless (log ++ records) = dropless log ++ records.filter (!·.isDrop) := by
  simp [dropless]

/-- The tasks are where a session is between two polls.  A session goes on as if the writer took
diagnostics also after it has failed, and only these may be told as dropped or not. -/
structure Mirrors (disk : Disk) (tree : FileTree) (settings : Settings) (q : State) (p : Tasks) :
    Prop where
  stream_eq : p.stream = q.stream
  output_eq : p.output = q.output
  dropless_eq : dropless p.log = dropless q.log
  log_eq : p.storeError? = none → p.log = q.log
  tasks :
    match p.writer? with
    | none => settings.deadLetterDir = none ∧ p.sink = .logger ∧ q.sink = .logger
    | some w => w.disk = disk ∧ settings.deadLetterDir = some w.directory ∧
      q.sink = .channel queue ∧
      ∃ c, p.sink = .channel c ∧ w.CaughtUp tree q.letters.toList c

variable {disk : Disk} {tree : FileTree} {settings : Settings} {q : State} {p : Tasks}

/-- One poll of a session is one of the ways in which the tasks can go on. -/
theorem Mirrors.exists_run_poll (format : PrintFormat) (h : Mirrors disk tree settings q p)
    (hpolling : p.decoding = .polling) :
    ∃ next, Run format p next ∧ next.decoding = .telling [] q.poll.2 ∧
      Mirrors disk tree settings q.poll.1 next := by
  obtain ⟨stream, decoding, sink, output, log, writer?⟩ := p
  obtain ⟨stream', sink', output', letters, log'⟩ := q
  obtain ⟨rfl, rfl, hdropless, hlog, htasks⟩ := h
  have htold : Run format _ _ := Relation.ReflTransGen.head (.poll hpolling)
    (run_tell (p := ⟨stream.poll.1, .telling stream.poll.2.2 stream.poll.2.1,
      sink, output, log, writer?⟩) rfl)
  cases writer? with
  | none =>
      obtain ⟨hnone, rfl, rfl⟩ := htasks
      obtain rfl : log = log' := hlog rfl
      have hsink := Sink.acceptAll_logger stream.poll.2.2
      refine ⟨_, htold, rfl, ⟨rfl, rfl, rfl, fun _ => rfl, ?_⟩⟩
      refine ⟨hnone, hsink, ?_⟩
      simp only [State.poll, hsink]
      rfl
  | some w =>
      obtain ⟨hdisk, hdirectory, rfl, c, rfl, hcaught⟩ := htasks
      obtain ⟨next, hnext, -, -, -, hrecords⟩ := Sink.acceptAll_channel c stream.poll.2.2
      obtain ⟨taken, htaken, hcapacity, hclosed, -, hrecords'⟩ :=
        Sink.acceptAll_channel queue stream.poll.2.2
      obtain ⟨after, rest, hrun, hkept, hsame, hwaits, hgone⟩ :=
        hcaught.exists_run_acceptAll false hnext
      have hqueue : (Sink.channel taken).receiveAll = (.channel queue, taken.waiting) := by
        obtain ⟨capacity, hpos, waiting, closed⟩ := taken
        obtain ⟨rfl, rfl⟩ : capacity = queue.capacity ∧ closed = false := ⟨hcapacity, hclosed⟩
        rfl
      have hfailed : after.progress.error? = none → w.progress.error? = none := by
        intro hgoing
        by_cases hw : w.progress.error? = none
        · exact hw
        · have hstill := (hgone hw []).progress_eq
          rw [List.append_nil, hkept, hsame, ← hcaught.progress_eq] at hstill
          exact hstill ▸ hgoing
      have hpoll : State.poll ⟨stream, .channel queue, output, letters, log'⟩ =
          (⟨stream.poll.1, .channel queue, output, letters ++ taken.waiting,
            log' ++ ((Sink.channel queue).acceptAll stream.poll.2.2).2⟩, stream.poll.2.1) := by
        simp only [State.poll, htaken, hqueue]
      rw [hpoll]
      refine ⟨_, htold.trans (run_write rfl hnext hrun), rfl, ⟨rfl, rfl, ?_, ?_, ?_⟩⟩
      · simp only [dropless_append, hrecords, hrecords', hdropless]
      · intro hgoing
        have hw := hfailed hgoing
        obtain rfl : c = queue := (hcaught.waits hw).2
        obtain rfl : log = log' := hlog hw
        rfl
      · refine ⟨hkept.trans hdisk, hsame.symm ▸ hdirectory, rfl, rest, rfl, ?_⟩
        rw [Array.toList_appendList]
        by_cases hw : w.progress.error? = none
        · obtain rfl : c = queue := (hcaught.waits hw).2
          obtain rfl : next = taken := Sink.channel.inj (hnext.symm.trans htaken)
          exact hwaits hw
        · exact hgone hw _

theorem Mirrors.with_output (h : Mirrors disk tree settings q p) (output : Device)
    (decoding : Decoding) :
    Mirrors disk tree settings { q with output } { p with output, decoding } :=
  { h with output_eq := rfl }

theorem Mirrors.exists_run_act (format : PrintFormat) (h : Mirrors disk tree settings q p)
    (hpolling : p.decoding = .polling) {next : State} {answer : PollAnswer Event}
    (hpoll : q.poll = (next, answer)) :
    ∃ told, Run format p (told.act format answer) ∧ Mirrors disk tree settings next told := by
  obtain ⟨told, hrun, htold, hmirrors⟩ := h.exists_run_poll format hpolling
  rw [hpoll] at htold hmirrors
  exact ⟨told, hrun.tail (.act htold), hmirrors⟩

/-- The end of a session is one of the ends to which the tasks can come. -/
theorem Mirrors.exists_run (format : PrintFormat) (h : Mirrors disk tree settings q p)
    (hpolling : p.decoding = .polling) :
    ∃ last, Run format p (last.stop (q.run format).2) ∧
      Mirrors disk tree settings (q.run format).1 last := by
  fun_induction State.run format q generalizing p with
  | case1 q next answer hpoll output failure? hreact =>
      obtain ⟨told, hrun, hmirrors⟩ := h.exists_run_act format hpolling hpoll
      rw [act, hmirrors.output_eq, hreact] at hrun
      exact ⟨_, hrun, hmirrors.with_output output told.decoding⟩
  | case2 q next answer hpoll output hreact ih =>
      obtain ⟨told, hrun, hmirrors⟩ := h.exists_run_act format hpolling hpoll
      rw [act, hmirrors.output_eq, hreact] at hrun
      obtain ⟨last, hlater, hlast⟩ := ih (hmirrors.with_output output .polling) rfl
      exact ⟨last, hrun.trans hlater, hlast⟩

theorem exists_mirrors_start (format : PrintFormat) (disk : Disk) (tree : FileTree)
    (settings : Settings) (splitter : Splitter) (source : List SourceItem)
    (log : Array LogRecord) :
    ∃ p, Run format (start disk tree settings splitter source log) p ∧ p.decoding = .polling ∧
      Mirrors disk tree settings (Session.start settings splitter source log) p := by
  cases hdirectory : settings.deadLetterDir with
  | none =>
      have hsink : sinkFor settings = .logger := by simp [sinkFor, hdirectory]
      have hwriter : (start disk tree settings splitter source log).writer? = none := by
        simp [start, hdirectory]
      refine ⟨_, .refl, rfl, ⟨rfl, rfl, rfl, fun _ => rfl, ?_⟩⟩
      rw [hwriter]
      exact ⟨hdirectory, hsink, hsink⟩
  | some directory =>
      have hsink : sinkFor settings = .channel queue := by simp [sinkFor, hdirectory]
      have hwriter : (start disk tree settings splitter source log).writer? =
          some { disk, directory, progress := { tree } } := by
        simp [start, hdirectory]
      let ready : Writer :=
        { disk, directory, writing := .receiving
          progress := DeadLetter.store disk tree directory [] }
      have hready : Writer.Step false
          (({ disk, directory, progress := { tree } } : Writer), queue) (ready, queue) := .prepare rfl
      by_cases hgoing : ready.progress.error? = none
      · refine ⟨_, run_write (x := (_, queue)) hwriter hsink (.single hready), rfl,
          ⟨rfl, rfl, rfl, fun _ => rfl, ?_⟩⟩
        refine ⟨rfl, hdirectory, hsink, queue, rfl, rfl, fun _ => ⟨rfl, rfl⟩, ?_⟩
        intro hfailed
        exact absurd hgoing hfailed
      · refine ⟨_, run_write (x := (_, queue)) hwriter hsink
          (.head hready (.single (.fail rfl hgoing))), rfl, ⟨rfl, rfl, rfl, fun _ => rfl, ?_⟩⟩
        refine ⟨rfl, hdirectory, hsink, queue.close, rfl, rfl, ?_, fun _ => ⟨rfl, rfl⟩⟩
        intro herror
        exact absurd herror hgoing

/-- Once a session has come to its end, the writer can come to its end as well. -/
theorem Mirrors.exists_run_stop (format : PrintFormat) (h : Mirrors disk tree settings q p)
    (failure? : Option SessionError) :
    ∃ last, Run format (p.stop failure?) last ∧ last.Over ∧
      last.decoding = .stopped failure? ∧ last.output = q.output ∧
      dropless last.log = dropless (q.log.push (finished q.stream)) ∧
      (last.storeError? = none → last.log = q.log.push (finished q.stream)) ∧
      match last.writer? with
      | none => settings.deadLetterDir = none
      | some w => settings.deadLetterDir = some w.directory ∧
        w.progress = DeadLetter.store disk tree w.directory q.letters.toList := by
  have hdropless : dropless (p.log.push (finished p.stream)) =
      dropless (q.log.push (finished q.stream)) := by
    rw [dropless_push, dropless_push, h.dropless_eq, h.stream_eq]
  have hlog (hgoing : p.storeError? = none) :
      p.log.push (finished p.stream) = q.log.push (finished q.stream) := by
    rw [h.log_eq hgoing, h.stream_eq]
  have htasks := h.tasks
  cases hwriter : p.writer? with
  | none =>
      rw [hwriter] at htasks
      refine ⟨p.stop failure?, .refl, ⟨rfl, ?_⟩, rfl, h.output_eq, hdropless, hlog, ?_⟩
      · simp [stop, hwriter]
      · simp only [stop, hwriter]
        exact htasks.1
  | some w =>
      rw [hwriter] at htasks
      obtain ⟨rfl, hdirectory, -, c, hsink, hcaught⟩ := htasks
      have hstored : p.storeError? = w.progress.error? := by simp [storeError?, hwriter]
      by_cases hgoing : w.progress.error? = none
      · obtain ⟨hreceiving, rfl⟩ := hcaught.waits hgoing
        refine ⟨_, run_write (p := p.stop failure?) (x := (w, queue)) hwriter hsink
          (.single (.finish rfl hreceiving hgoing rfl)), ⟨rfl, ?_⟩, rfl, h.output_eq, hdropless,
          fun _ => hlog (hstored.trans hgoing), hdirectory, hcaught.progress_eq⟩
        rintro _ ⟨⟩
        rfl
      · refine ⟨p.stop failure?, .refl, ⟨rfl, ?_⟩, rfl, h.output_eq, hdropless, hlog, ?_⟩
        · intro w' hw'
          obtain rfl : w = w' := Option.some.inj (hwriter.symm.trans hw')
          exact (hcaught.gone hgoing).1
        · simp only [stop, hwriter]
          exact ⟨hdirectory, hcaught.progress_eq⟩

/-- What a session leaves behind is what its tasks leave behind in one of the orders that there
are, but for the diagnostics that are told as dropped once something could not be stored. -/
theorem exists_run_decode (disk : Disk) (tree : FileTree) (settings : Settings)
    (splitter : Splitter) (source : List SourceItem) (log : Array LogRecord) :
    ∃ p, Run settings.output (start disk tree settings splitter source log) p ∧ p.Over ∧
      (p.storeError? = none → decode disk tree settings splitter source log = p.outcome tree) ∧
      (decode disk tree settings splitter source log).withoutDrops =
        (p.outcome tree).withoutDrops := by
  obtain ⟨ready, hready, hpolling, hmirrors⟩ :=
    exists_mirrors_start settings.output disk tree settings splitter source log
  obtain ⟨told, hrun, htold⟩ := hmirrors.exists_run settings.output hpolling
  obtain ⟨p, hstop, hover, hdecoding, houtput, hdropless, hlog, hwriter⟩ :=
    htold.exists_run_stop settings.output
      ((Session.start settings splitter source log).run settings.output).2
  refine ⟨p, hready.trans (hrun.trans hstop), hover, ?_⟩
  unfold decode outcome
  generalize (Session.start settings splitter source log).run settings.output = r at *
  obtain ⟨q, failure?⟩ := r
  dsimp only at hdecoding houtput hdropless hlog
  cases htask : p.writer? with
  | none =>
      rw [htask] at hwriter
      simp only [hwriter, hdecoding, Decoding.failure?, houtput, Outcome.withoutDrops, hdropless,
        and_true]
      intro hgoing
      rw [hlog hgoing]
  | some w =>
      rw [htask] at hwriter
      simp only [hwriter.1, ← hwriter.2, hdecoding, Decoding.failure?, houtput]
      constructor
      · intro hgoing
        rw [hlog hgoing]
      · simp only [Outcome.withoutDrops, dropless_append, hdropless]

end Tasks

end Session

end ServerSentEvents
