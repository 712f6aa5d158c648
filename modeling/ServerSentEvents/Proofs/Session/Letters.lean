import ServerSentEvents.Proofs.Session.Truth
import ServerSentEvents.Proofs.Splitter.Policies

/-!
# What becomes of rerouted lines

Every diagnostic that the decoding task reports is refused by the channel and told as dropped, waits
in it, is in the hand of the writer or has been stored.  The invariant `Tasks.Delivers` keeps this
account whatever the tasks do, so in the end every oversized line of the stream has a file of its
own or is told as dropped, and nothing is dropped that the channel has room for.
-/

namespace ServerSentEvents

open DeadLetter (Letter queue)

/-! ## The oversized lines of a source -/

/-- The lines that end before a source fails, and the one that its end leaves. -/
def SourceItem.endedLines (source : List SourceItem) : List Bytes :=
  let stream := (chunks source).flatten
  Bytes.lines stream ++
    if failure? source = none ∧ Bytes.remainder stream ≠ [] then [Bytes.remainder stream] else []

namespace LineLimits

/-- The oversized ones among lines, with their numbers. -/
def letters (limits : LineLimits) (lines : List Bytes) : List Letter :=
  numbered (fun number line => if limits.admits line then none else some ⟨number, line⟩) lines

theorem diagnostics_of_letters {limits : LineLimits} (hpolicy : limits.overflow = .deadLetter)
    (lines : List Bytes) :
    numbered limits.diagnostic? lines = (limits.letters lines).map (·.diagnostic) := by
  rw [letters, map_numbered]
  congr 1
  funext number line
  by_cases hfits : limits.admits line = true <;>
    simp [diagnostic?, reported?, Letter.diagnostic, hfits, hpolicy]

theorem length_letters (limits : LineLimits) (lines : List Bytes) :
    (limits.letters lines).length = lines.countP (!limits.admits ·) := by
  induction lines using List.reverseRecOn with
  | nil => rfl
  | append_singleton lines line ih =>
      rw [letters, numbered_concat, List.length_append, List.countP_append, ← letters, ih]
      by_cases hfits : limits.admits line = true <;> simp [hfits]

theorem nodup_number_letters (limits : LineLimits) (lines : List Bytes) :
    ((limits.letters lines).map (·.number)).Nodup := by
  have hnumbers : (lines.zipIdx 1).Pairwise fun a b => a.2 < b.2 := by
    rw [← List.pairwise_map, List.zipIdx_map_snd]
    exact List.pairwise_lt_range'
  rw [List.nodup_iff_pairwise_ne, List.pairwise_map, letters, numbered, List.pairwise_filterMap]
  refine hnumbers.imp ?_
  rintro ⟨line, number⟩ ⟨line', number'⟩ hless made hmade made' hmade'
  obtain ⟨-, rfl⟩ : limits.admits line = false ∧ (⟨number, line⟩ : Letter) = made := by
    simpa using hmade
  obtain ⟨-, rfl⟩ : limits.admits line' = false ∧ (⟨number', line'⟩ : Letter) = made' := by
    simpa using hmade'
  exact hless.ne

end LineLimits

namespace Decoder

/-- Where oversized lines are rerouted, the diagnostics of a stream are its letters, and each is
counted. -/
theorem letters_of_ending {limits : LineLimits} (hpos : 0 < limits.maxSize)
    (hpolicy : limits.overflow = .deadLetter) (source : List SourceItem) :
    let fed := (start limits hpos).readAll (SourceItem.chunks source)
    let ended := fed.1.ending (SourceItem.failure? source)
    let letters := limits.letters (SourceItem.endedLines source)
    Notice.diagnostics (fed.2.2 ++ ended.2.2) = letters.map (·.diagnostic) ∧
      ended.1.counts.rerouted = letters.length := by
  have hbears (c : Course) : limits.Bears c := by
    intro hfail
    rw [hpolicy] at hfail
    cases hfail
  have hread : Splitter.Follows limits _ _ _ :=
    Splitter.Follows.respondAll hpos (hbears (Course.of ((SourceItem.chunks source).map .read)))
  rw [Splitter.respondAll_read, Course.of_map_read] at hread
  have hgoing := hread.going (hbears _)
  have hclosed := hread.close hgoing
  have herror := Splitter.error?_eq_none_iff.mpr hgoing
  have hcounts : (limits.countsOf (SourceItem.endedLines source)).rerouted =
      (limits.letters (SourceItem.endedLines source)).length := by
    rw [LineLimits.length_letters, LineLimits.countsOf, hpolicy]
  rw [readAll_eq (sound_start limits hpos)]
  dsimp only
  rw [← hcounts, ← LineLimits.diagnostics_of_letters hpolicy]
  cases hfailure : SourceItem.failure? source with
  | some cause =>
      have hended : SourceItem.endedLines source =
          Bytes.lines (SourceItem.chunks source).flatten := by
        simp [SourceItem.endedLines, hfailure]
      simp only [ending, error?, start, herror, hended]
      refine ⟨?_, congrArg (·.rerouted) hread.counts_eq⟩
      rw [List.append_nil]
      exact hread.diagnostics_eq
  | none =>
      have hended : SourceItem.endedLines source =
          (Course.next { stream := (SourceItem.chunks source).flatten } .close).ended := by
        rw [Course.ended_next_close]
        by_cases hopen : Bytes.remainder (SourceItem.chunks source).flatten = [] <;>
          simp [SourceItem.endedLines, Course.ended, Course.openBytes, hfailure, hopen]
      simp only [ending, error?, start, herror, hended]
      refine ⟨?_, congrArg (·.rerouted) hclosed.counts_eq⟩
      rw [close, Notice.diagnostics_append, Notice.diagnostics_append,
        BlockReader.diagnostics_close, List.append_nil, ← hclosed.diagnostics_eq,
        Signal.diagnostics_append]
      rfl

end Decoder

/-- The number of the line that a record tells as dropped. -/
def LogRecord.droppedNumber? : LogRecord → Option Nat
  | diagnosticDropped number _ => some number
  | _ => none

namespace Session

/-- The numbers of the lines that a log tells as dropped. -/
def droppedNumbers (log : Array LogRecord) : List Nat :=
  log.toList.filterMap LogRecord.droppedNumber?

/-! ## The account of the diagnostics -/

/-- The diagnostic that the writer has in hand. -/
def Writing.inHand : Writing → List Diagnostic
  | storing d => [d]
  | _ => []

/-- What has become of the diagnostics that were reported.  The writer has handled some of them, in
order.  Unless it has failed, every other is in its hand, waits in the channel or was dropped. -/
structure Writer.Accounts (tree : FileTree) (deserted : Bool) (reported : List Diagnostic)
    (dropped : List Nat) (w : Writer) (c : Channel) (handled : List Diagnostic) : Prop where
  fresh : w.writing = .starting → w.progress = { tree } ∧ handled = []
  progress_eq :
    w.writing ≠ .starting → w.progress = DeadLetter.store w.disk tree w.directory handled
  taken : (handled ++ w.writing.inHand ++ c.waiting).Sublist reported
  isOpen : w.progress.error? = none → c.closed = false
  accounted : w.progress.error? = none →
    ((handled ++ w.writing.inHand ++ c.waiting).map (·.lineNumber) ++ dropped).Perm
      (reported.map (·.lineNumber))
  /-- Nothing is dropped that the channel has room for. -/
  full : w.progress.error? = none → dropped ≠ [] → c.capacity < reported.length
  stopped : w.progress.error? = none → w.writing = .stopped → deserted = true ∧ c.waiting = []

namespace Writer

variable {tree : FileTree} {deserted : Bool} {reported handled : List Diagnostic}
  {dropped : List Nat} {w : Writer} {c : Channel}

theorem Step.kept {next : Writer} {rest : Channel} (hstep : Step deserted (w, c) (next, rest)) :
    next.disk = w.disk ∧ next.directory = w.directory ∧ rest.capacity = c.capacity := by
  cases hstep <;> exact ⟨rfl, rfl, rfl⟩

/-- A step of the writer keeps the account. -/
theorem Accounts.step (h : Accounts tree deserted reported dropped w c handled) {next : Writer}
    {rest : Channel} (hstep : Step deserted (w, c) (next, rest)) :
    ∃ handled, Accounts tree deserted reported dropped next rest handled := by
  have htaken := h.taken
  have haccounted := h.accounted
  cases hstep with
  | prepare hstarting =>
      obtain ⟨hprogress, rfl⟩ := h.fresh hstarting
      have hgoing : w.progress.error? = none := by rw [hprogress]
      rw [hstarting] at htaken haccounted
      exact ⟨[], nofun, fun _ => by rw [hprogress], htaken, fun _ => h.isOpen hgoing,
        fun _ => haccounted hgoing, fun _ => h.full hgoing, nofun⟩
  | receive hreceiving _ hwaiting =>
      rw [hreceiving, hwaiting] at htaken haccounted
      refine ⟨handled, nofun, fun _ => h.progress_eq (by simp [hreceiving]), ?_, h.isOpen, ?_,
        h.full, nofun⟩
      · simpa [Writing.inHand] using htaken
      · simpa [Writing.inHand] using haccounted
  | @store _ _ d hstoring =>
      have hbefore : (w.progress.handle w.disk w.directory d).error? = none →
          w.progress.error? = none :=
        DeadLetter.Progress.error?_of_handle
      rw [hstoring] at htaken haccounted
      refine ⟨handled ++ [d], nofun, ?_, ?_, fun hgoing => h.isOpen (hbefore hgoing), ?_,
        fun hgoing => h.full (hbefore hgoing), nofun⟩
      · intro _
        rw [h.progress_eq (by simp [hstoring]), DeadLetter.store_append]
        rfl
      · simpa [Writing.inHand] using htaken
      · intro hgoing
        simpa [Writing.inHand] using haccounted (hbefore hgoing)
  | fail hreceiving hfailed =>
      rw [hreceiving, List.append_assoc] at htaken
      refine ⟨handled, nofun, fun _ => h.progress_eq (by simp [hreceiving]), ?_,
        fun hgoing => absurd hgoing hfailed, fun hgoing => absurd hgoing hfailed,
        fun hgoing => absurd hgoing hfailed, fun hgoing => absurd hgoing hfailed⟩
      simpa [Writing.inHand, Channel.close] using (List.sublist_append_left handled _).trans htaken
  | finish hdeserted hreceiving _ hwaiting =>
      rw [hreceiving] at htaken haccounted
      exact ⟨handled, nofun, fun _ => h.progress_eq (by simp [hreceiving]), htaken, h.isOpen,
        haccounted, h.full, fun _ _ => ⟨hdeserted, hwaiting⟩⟩

theorem Accounts.desert (h : Accounts tree false reported dropped w c handled) :
    Accounts tree true reported dropped w c handled :=
  { h with stopped := fun hgoing hover => absurd (h.stopped hgoing hover).1 Bool.false_ne_true }

theorem Accounts.send (h : Accounts tree false reported dropped w c handled) (d : Diagnostic) :
    Accounts tree false (reported ++ [d]) dropped w { c with waiting := c.waiting ++ [d] }
      handled where
  fresh := h.fresh
  progress_eq := h.progress_eq
  taken := by
    rw [← List.append_assoc]
    exact h.taken.append (List.Sublist.refl [d])
  isOpen := h.isOpen
  accounted := by
    intro hgoing
    have hmore := (h.accounted hgoing).append_right [d.lineNumber]
    simp only [List.map_append, List.map_singleton, List.append_assoc] at hmore ⊢
    refine List.Perm.trans ?_ hmore
    exact ((List.perm_append_comm.append_left _).append_left _).append_left _
  full := fun hgoing hsome =>
    (h.full hgoing hsome).trans_le (List.sublist_append_left reported [d]).length_le
  stopped := fun hgoing hover => absurd (h.stopped hgoing hover).1 Bool.false_ne_true

theorem Accounts.refuse (h : Accounts tree false reported dropped w c handled) (d : Diagnostic)
    (hfull : w.progress.error? = none → c.capacity ≤ c.waiting.length) :
    Accounts tree false (reported ++ [d]) (dropped ++ [d.lineNumber]) w c handled where
  fresh := h.fresh
  progress_eq := h.progress_eq
  taken := h.taken.trans (List.sublist_append_left reported [d])
  isOpen := h.isOpen
  accounted := by
    intro hgoing
    have hmore := (h.accounted hgoing).append_right [d.lineNumber]
    simpa only [List.map_append, List.map_singleton, List.append_assoc] using hmore
  full := by
    intro hgoing _
    have hwaiting := hfull hgoing
    have htaken := h.taken.length_le
    simp only [List.length_append, List.length_singleton] at htaken ⊢
    omega
  stopped := fun hgoing hover => absurd (h.stopped hgoing hover).1 Bool.false_ne_true

/-- A diagnostic that is reported is sent or dropped. -/
theorem Accounts.report (h : Accounts tree false reported dropped w c handled) (d : Diagnostic) :
    ∃ next, ((Sink.channel c).report d).1 = .channel next ∧
      Accounts tree false (reported ++ [d])
        (dropped ++ ((Sink.channel c).report d).2.filterMap LogRecord.droppedNumber?) w next
        handled := by
  rcases Sink.report_channel_cases c d with
    ⟨hclosed, hrefused⟩ | ⟨-, -, hsent⟩ | ⟨-, hfull, hrefused⟩
  · rw [hrefused]
    refine ⟨c, rfl, h.refuse d fun hgoing => ?_⟩
    rw [h.isOpen hgoing] at hclosed
    cases hclosed
  · rw [hsent, List.filterMap_nil, List.append_nil]
    exact ⟨_, rfl, h.send d⟩
  · rw [hrefused]
    exact ⟨c, rfl, h.refuse d fun _ => hfull⟩

/-- A writer that has stopped without failing has handled all that was not dropped. -/
theorem Accounts.of_stopped (h : Accounts tree deserted reported dropped w c handled)
    (hstopped : w.writing = .stopped) :
    w.progress = DeadLetter.store w.disk tree w.directory handled ∧ handled.Sublist reported ∧
      (w.progress.error? = none →
        (handled.map (·.lineNumber) ++ dropped).Perm (reported.map (·.lineNumber)) ∧
          (reported.length ≤ c.capacity → dropped = [])) := by
  have htaken := h.taken
  have haccounted := h.accounted
  rw [hstopped, List.append_assoc] at htaken
  rw [hstopped] at haccounted
  refine ⟨h.progress_eq (by simp [hstopped]),
    (List.sublist_append_left handled _).trans htaken, ?_⟩
  intro hgoing
  have hwaiting : c.waiting = [] := (h.stopped hgoing hstopped).2
  refine ⟨?_, ?_⟩
  · simpa [Writing.inHand, hwaiting] using haccounted hgoing
  · intro hroom
    by_contra hsome
    exact absurd (h.full hgoing hsome) (Nat.not_lt_of_le hroom)

end Writer

/-- Records of a stream tell nothing as dropped. -/
theorem droppedNumbers_append_record {log : Array LogRecord} {record : LogRecord}
    (hrecord : record.isOfStream = true) :
    droppedNumbers (log ++ [record]) = droppedNumbers log := by
  have hnone : record.droppedNumber? = none := by
    cases record <;> first | rfl | cases hrecord
  simp [droppedNumbers, hnone]

theorem droppedNumbers_append (log : Array LogRecord) (records : List LogRecord) :
    droppedNumbers (log ++ records) =
      droppedNumbers log ++ records.filterMap LogRecord.droppedNumber? := by
  simp [droppedNumbers]

theorem droppedNumbers_push_finished (log : Array LogRecord) (stream : PolledEvents) :
    droppedNumbers (log.push (finished stream)) = droppedNumbers log := by
  simp [droppedNumbers, finished, LogRecord.droppedNumber?]

namespace Tasks

/-- The account of the diagnostics among the notices that have been passed on. -/
structure Delivers (disk : Disk) (tree : FileTree) (directory : String) (told : List Notice)
    (p : Tasks) (w : Writer) (c : Channel) (handled : List Diagnostic) : Prop where
  writer_eq : p.writer? = some w
  sink_eq : p.sink = .channel c
  disk_eq : w.disk = disk
  directory_eq : w.directory = directory
  capacity_eq : c.capacity = queue.capacity
  accounts : w.Accounts tree p.decoding.isOver (Notice.diagnostics told) (droppedNumbers p.log) c
    handled

namespace Delivers

variable {disk : Disk} {tree : FileTree} {directory : String} {told : List Notice} {p : Tasks}
  {w : Writer} {c : Channel} {handled : List Diagnostic}

theorem start (disk : Disk) (tree : FileTree) (settings : Settings)
    (hdirectory : settings.deadLetterDir = some directory) (splitter : Splitter)
    (source : List SourceItem) :
    Delivers disk tree directory [] (Tasks.start disk tree settings splitter source #[])
      { disk, directory, progress := { tree } } queue [] where
  writer_eq := by simp [Tasks.start, hdirectory]
  sink_eq := by simp [Tasks.start, sinkFor, hdirectory]
  disk_eq := rfl
  directory_eq := rfl
  capacity_eq := rfl
  accounts := {
    fresh := fun _ => ⟨rfl, rfl⟩
    progress_eq := fun h => absurd rfl h
    taken := .refl []
    isOpen := fun _ => rfl
    accounted := fun _ => .refl []
    full := fun _ hsome => absurd rfl hsome
    stopped := nofun }

theorem poll (h : Delivers disk tree directory told p w c handled)
    (hpolling : p.decoding = .polling) :
    Delivers disk tree directory told
      { p with
        stream := p.stream.poll.1
        decoding := .telling p.stream.poll.2.2 p.stream.poll.2.1 } w c handled := by
  have haccounts := h.accounts
  rw [hpolling] at haccounts
  exact { h with accounts := haccounts }

theorem tell (h : Delivers disk tree directory told p w c handled) {notice : Notice}
    {untold : List Notice} {answer : PollAnswer Event}
    (htelling : p.decoding = .telling (notice :: untold) answer)
    (hrecord : Notice.OfStream [notice]) :
    ∃ next, Delivers disk tree directory (told ++ [notice])
      { p with
        decoding := .telling untold answer
        sink := (p.sink.accept notice).1
        log := p.log ++ (p.sink.accept notice).2 } w next handled := by
  have haccounts := h.accounts
  rw [htelling] at haccounts
  obtain ⟨next, hnext, hcapacity, -⟩ := Sink.accept_channel c notice
  rw [h.sink_eq]
  refine ⟨next, h.writer_eq, hnext, h.disk_eq, h.directory_eq, hcapacity.trans h.capacity_eq, ?_⟩
  rw [Notice.diagnostics_append]
  cases notice with
  | record record =>
      obtain rfl : c = next := Sink.channel.inj hnext
      rw [Sink.accept, droppedNumbers_append_record (hrecord record List.mem_cons_self)]
      simpa [Decoding.isOver] using haccounts
  | diagnostic d =>
      obtain ⟨last, hlast, hafter⟩ := haccounts.report d
      obtain rfl : last = next := Sink.channel.inj (hlast.symm.trans hnext)
      rw [droppedNumbers_append]
      exact hafter

theorem act (h : Delivers disk tree directory told p w c handled) (format : PrintFormat)
    {answer : PollAnswer Event} (htold : p.decoding = .telling [] answer) :
    Delivers disk tree directory told (p.act format answer) w c handled := by
  have haccounts := h.accounts
  rw [htold] at haccounts
  obtain ⟨hwriter, hsink, hcases⟩ := p.act_cases format answer
  refine ⟨hwriter.trans h.writer_eq, hsink.trans h.sink_eq, h.disk_eq, h.directory_eq,
    h.capacity_eq, ?_⟩
  rcases hcases with ⟨hover, hlog⟩ | ⟨hover, hlog⟩
  · rw [hover, hlog]
    exact haccounts
  · rw [hover, hlog, droppedNumbers_push_finished]
    exact haccounts.desert

theorem write (h : Delivers disk tree directory told p w c handled) {v next : Writer}
    {b rest : Channel} (hwriter : p.writer? = some v) (hsink : p.sink = .channel b)
    (hstep : Writer.Step p.decoding.isOver (v, b) (next, rest)) :
    ∃ handled, Delivers disk tree directory told
      { p with sink := .channel rest, writer? := some next } next rest handled := by
  obtain rfl : w = v := Option.some.inj (h.writer_eq.symm.trans hwriter)
  obtain rfl : c = b := Sink.channel.inj (h.sink_eq.symm.trans hsink)
  obtain ⟨hdisk, hdirectory, hcapacity⟩ := hstep.kept
  obtain ⟨handled, hafter⟩ := h.accounts.step hstep
  exact ⟨handled, rfl, rfl, hdisk.trans h.disk_eq, hdirectory.trans h.directory_eq,
    hcapacity.trans h.capacity_eq, hafter⟩

/-- Whatever either task does next, both invariants hold. -/
theorem step {format : PrintFormat} {f : Forecast Event (Splitter × BlockReader)}
    (hf : Notice.OfStream f.notices) {printed : List Event} (htells : Tells format f printed told p)
    (h : Delivers disk tree directory told p w c handled) {next : Tasks}
    (hstep : Step format p next) :
    ∃ printed told w c handled,
      Tells format f printed told next ∧ Delivers disk tree directory told next w c handled := by
  cases hstep with
  | poll hpolling => exact ⟨printed, told, w, c, handled, htells.poll hpolling, h.poll hpolling⟩
  | tell htelling =>
      obtain ⟨rest, htold⟩ := h.tell htelling (htells.ofStream_of_telling hf htelling)
      exact ⟨printed, _, w, rest, handled, htells.tell hf htelling, htold⟩
  | act htold =>
      obtain ⟨printed, hact⟩ := htells.act htold
      exact ⟨printed, told, w, c, handled, hact, h.act format htold⟩
  | write hwriter hsink hstep =>
      obtain ⟨handled, hwrite⟩ := h.write hwriter hsink hstep
      exact ⟨printed, told, _, _, handled, htells.write _ _, hwrite⟩

/-- Whatever the tasks have done, both invariants hold. -/
theorem run {format : PrintFormat} {f : Forecast Event (Splitter × BlockReader)}
    (hf : Notice.OfStream f.notices) {printed : List Event} (htells : Tells format f printed told p)
    (h : Delivers disk tree directory told p w c handled) {last : Tasks} (hrun : Run format p last) :
    ∃ printed told w c handled,
      Tells format f printed told last ∧ Delivers disk tree directory told last w c handled := by
  induction hrun with
  | refl => exact ⟨printed, told, w, c, handled, htells, h⟩
  | tail _ hstep ih =>
      obtain ⟨printed, told, w, c, handled, htells, h⟩ := ih
      exact h.step hf htells hstep

end Delivers

theorem droppedNumbers_outcome (tree : FileTree) (p : Tasks) :
    droppedNumbers (p.outcome tree).log = droppedNumbers p.log := by
  unfold outcome
  split
  · rfl
  · rw [droppedNumbers_append, List.append_right_eq_self, List.filterMap_eq_nil_iff]
    intro record hrecord
    rw [eq_of_mem_conclude hrecord]
    rfl

end Tasks

/-! ## What is stored in the end -/

/-- In whatever order the tasks have done what they do, the writer has tried to store some of the
oversized lines of the stream, in order.  Unless it has failed, each of them has a file of its own
that holds the whole line, no other file is new, and every other oversized line is told as dropped.
None is, if the channel has room for all of them. -/
theorem run_delivers {settings : Settings} {directory : String}
    (hdirectory : settings.deadLetterDir = some directory)
    (hpolicy : settings.limits.overflow = .deadLetter) (hpos : 0 < settings.limits.maxSize)
    (disk : Disk) (tree : FileTree) (source : List SourceItem) {p : Tasks}
    (hrun : Tasks.Run settings.output
      (.start disk tree settings (.start settings.limits hpos) source #[]) p) (hover : p.Over) :
    let oversized := settings.limits.letters (SourceItem.endedLines source)
    let stored (letters : List Letter) :=
      DeadLetter.store disk tree directory (letters.map (·.diagnostic))
    let dropped := droppedNumbers (p.outcome tree).log
    ∃ letters : List Letter, letters.Sublist oversized ∧
      p.writer?.map (·.progress) = some (stored letters) ∧
      (p.outcome tree).tree = (stored letters).tree ∧
      (p.storeError? = none →
        DeadLetter.Stored tree directory letters (stored letters) ∧
          letters.Pairwise (fun a b =>
            (stored letters).tree.place? (DeadLetter.path directory a.number) ≠
              (stored letters).tree.place? (DeadLetter.path directory b.number)) ∧
          (letters.map (·.number) ++ dropped).Perm (oversized.map (·.number)) ∧
          p.stream.counts.rerouted = letters.length + dropped.length ∧
          (oversized.length ≤ queue.capacity → letters = oversized ∧ dropped = [])) := by
  intro oversized stored dropped
  obtain ⟨printed, told, w, c, handled, htells, hdelivers⟩ := Tasks.Delivers.run
    (PolledEvents.ofStream_forecast_start settings.limits hpos source)
    (Tasks.Tells.start disk tree settings hpos source (by simp))
    (Tasks.Delivers.start disk tree settings hdirectory _ source) hrun
  obtain ⟨-, -, hfinished, hnotices⟩ := htells.of_over hover.1
  obtain ⟨-, -, -, hdiagnostics⟩ := PolledEvents.forecast_start settings.limits hpos source
  obtain ⟨hletters, hrerouted⟩ := Decoder.letters_of_ending hpos hpolicy source
  have hreported : Notice.diagnostics told = oversized.map (·.diagnostic) := by
    rw [← hnotices, hdiagnostics, hletters]
  have hcounts : p.stream.counts.rerouted = oversized.length := by
    rw [← hrerouted]
    exact congrArg (·.rerouted) (LogRecord.streamFinished.inj hfinished).2.1
  have hwriter := hdelivers.writer_eq
  obtain ⟨hprogress, hhandled, hending⟩ :=
    hdelivers.accounts.of_stopped (hover.2 w hwriter)
  rw [hreported] at hhandled hending
  obtain ⟨letters, hsublist, rfl⟩ : ∃ letters : List Letter, letters.Sublist oversized ∧
      handled = letters.map (·.diagnostic) :=
    List.sublist_map_iff.mp hhandled
  rw [hdelivers.disk_eq, hdelivers.directory_eq] at hprogress
  refine ⟨letters, hsublist, by simp [hwriter, hprogress, stored],
    by simp [Tasks.outcome, hwriter, hprogress, stored], ?_⟩
  intro hgoing
  have hstored : w.progress.error? = none := by simpa [Tasks.storeError?, hwriter] using hgoing
  obtain ⟨hperm, hroom⟩ := hending hstored
  have hdropped : dropped = droppedNumbers p.log := Tasks.droppedNumbers_outcome tree p
  have hapart : (letters.map (·.number)).Nodup :=
    (LineLimits.nodup_number_letters _ _).sublist (hsublist.map _)
  have hfiles : DeadLetter.Stored tree directory letters (stored letters) :=
    DeadLetter.stored_store hapart (hprogress ▸ hstored)
  simp only [List.map_map, Function.comp_def, Letter.diagnostic, ← hdropped] at hperm
  have hlength : letters.length + dropped.length = oversized.length := by
    simpa using hperm.length_eq
  refine ⟨hfiles, hfiles.place?_ne hapart, hperm, by rw [hcounts, hlength], ?_⟩
  intro hfew
  have hnone : dropped = [] := by
    rw [hdropped]
    exact hroom (by rwa [List.length_map, hdelivers.capacity_eq])
  refine ⟨hsublist.eq_of_length ?_, hnone⟩
  simpa [hnone] using hlength

/-- The second of three lines is too long, and is found in its file. -/
theorem run_delivers_of_stream :
    let settings : Settings := { limits := ⟨2, .deadLetter⟩, deadLetterDir := some "letters" }
    let source := [SourceItem.chunk (Utf8.encode "a\nbcd\ne")]
    ∃ p, Tasks.Run settings.output
        (.start {} {} settings (.start settings.limits (by decide)) source #[]) p ∧
      p.Over ∧ p.stream.counts.rerouted = 1 ∧
      (p.outcome {}).tree.contents? "letters/line-0000000002.bin" =
        some (Utf8.encode "bcd") := by
  intro settings source
  obtain ⟨p, hrun, hover, -⟩ :=
    Tasks.exists_run_decode {} {} settings (.start settings.limits (by decide)) source #[]
  obtain ⟨letters, hsublist, hprogress, htree, hdelivered⟩ :=
    run_delivers rfl rfl (by decide) {} {} source hrun hover
  have hoversized : settings.limits.letters (SourceItem.endedLines source) =
      [⟨2, Utf8.encode "bcd"⟩] := by decide +kernel
  rw [hoversized] at hsublist hdelivered
  have hgoing : p.storeError? = none := by
    have herror : p.storeError? = (p.writer?.map (·.progress)).bind (·.error?) := by
      rw [Tasks.storeError?, Option.bind_map]
      rfl
    rw [herror, hprogress]
    rcases List.sublist_singleton.mp hsublist with rfl | rfl <;> decide +kernel
  obtain ⟨hstored, -, -, hrerouted, hall⟩ := hdelivered hgoing
  obtain ⟨rfl, hnone⟩ := hall (by decide)
  refine ⟨p, hrun, hover, ?_, ?_⟩
  · rw [hrerouted, hnone]
    rfl
  · rw [htree]
    exact hstored.contents _ List.mem_cons_self

end Session

end ServerSentEvents
