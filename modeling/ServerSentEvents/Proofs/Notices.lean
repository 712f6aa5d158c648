import ServerSentEvents.BlockReader
import ServerSentEvents.Proofs.Splitter.Bytewise
import ServerSentEvents.Sink

/-!
# What a stream makes known

The log records among the notices of a stream are of three kinds (`LogRecord.isOfStream`), and none
of these tells of a diagnostic that was dropped: that is told by a channel, in the place of the
diagnostic (`Sink.report_channel_cases`).  What a sink logs for a diagnostic is of other kinds
(`LogRecord.isOfSink`), so that the records of a stream are in the log as they were told, whatever
the sink is (`Sink.logged_eq`).
-/

namespace ServerSentEvents

/-! ## The records of a stream -/

/-- Whether a record is one of those that a stream makes known. -/
def LogRecord.isOfStream : LogRecord → Bool
  | lineTooLong .. | sourceEnded .. | blockDiscarded => true
  | _ => false

/-- Whether a record tells that a diagnostic was dropped. -/
def LogRecord.isDrop : LogRecord → Bool
  | diagnosticDropped .. => true
  | _ => false

theorem LogRecord.isDrop_of_isOfStream {record : LogRecord} (hrecord : record.isOfStream = true) :
    record.isDrop = false := by
  cases record <;> first | rfl | cases hrecord

/-- The records among notices are those of a stream. -/
def Notice.OfStream (notices : List Notice) : Prop :=
  ∀ record, .record record ∈ notices → record.isOfStream = true

namespace Notice

theorem ofStream_append {a b : List Notice} :
    OfStream (a ++ b) ↔ OfStream a ∧ OfStream b := by
  simp only [OfStream, List.mem_append, or_imp, forall_and]

/-- The log records among notices, in order. -/
def records (notices : List Notice) : List LogRecord :=
  notices.filterMap record?

@[simp] theorem records_nil : records [] = [] := rfl

@[simp] theorem records_cons_diagnostic (d : Diagnostic) (rest : List Notice) :
    records (.diagnostic d :: rest) = records rest := rfl

@[simp] theorem records_cons_record (r : LogRecord) (rest : List Notice) :
    records (.record r :: rest) = r :: records rest := rfl

@[simp] theorem records_append (a b : List Notice) : records (a ++ b) = records a ++ records b :=
  List.filterMap_append

theorem mem_records_iff {record : LogRecord} {notices : List Notice} :
    record ∈ records notices ↔ .record record ∈ notices := by
  constructor
  · intro hrecord
    obtain ⟨notice, hnotice, hsame⟩ := List.mem_filterMap.mp hrecord
    cases notice with
    | diagnostic d => cases hsame
    | record r =>
        cases hsame
        exact hnotice
  · intro hnotice
    exact List.mem_filterMap.mpr ⟨_, hnotice, rfl⟩

theorem ofStream_iff {notices : List Notice} :
    OfStream notices ↔ ∀ record ∈ records notices, record.isOfStream = true := by
  simp only [OfStream, mem_records_iff]

end Notice

namespace Splitter

@[simp] theorem records_endLine (s : Splitter) :
    Notice.records (Signal.notices s.endLine.2) = [] := by
  unfold endLine
  split
  · rfl
  · next handling length _ => cases handling <;> rfl
  · rfl

@[simp] theorem records_close (s : Splitter) :
    Notice.records (Signal.notices s.close.2) = [] := by
  unfold close
  split
  · split
    · rfl
    · exact s.records_endLine
  · exact s.records_endLine
  · rfl

/-- Nothing but a line that was too long is told of a stretch. -/
theorem eq_of_mem_records_append {s : Splitter} {stretch : Bytes} {record : LogRecord}
    (hrecord : record ∈ Notice.records (Signal.notices (s.append stretch).2)) :
    record = .lineTooLong (s.ended + 1) s.limit := by
  unfold append outgrow at hrecord
  split at hrecord
  · dsimp only at hrecord
    split at hrecord
    · cases hrecord
    · split at hrecord
      · simpa using hrecord
      all_goals cases hrecord
  · cases hrecord
  · cases hrecord

theorem exists_of_mem_records_step {s : Splitter} {b : UInt8} {record : LogRecord}
    (hrecord : record ∈ Notice.records (Signal.notices (s.step b).2)) :
    ∃ number limit, record = .lineTooLong number limit := by
  unfold step at hrecord
  split at hrecord
  · cases hrecord
  split at hrecord
  · split at hrecord
    · cases hrecord
    · simp at hrecord
  split at hrecord
  · simp at hrecord
  · exact ⟨_, _, eq_of_mem_records_append hrecord⟩

/-- While it reads, a splitter tells nothing but lines that were too long. -/
theorem exists_of_mem_records_readAll {s : Splitter} {chunks : List Bytes} {record : LogRecord}
    (hrecord : record ∈ Notice.records (Signal.notices (s.readAll chunks).2)) :
    ∃ number limit, record = .lineTooLong number limit := by
  rw [readAll_eq_run] at hrecord
  generalize chunks.flatten = stream at hrecord
  induction stream generalizing s with
  | nil => cases hrecord
  | cons b rest ih =>
      rw [Transducer.run_cons, Signal.notices_append, Notice.records_append] at hrecord
      rcases List.mem_append.mp hrecord with hfirst | hrest
      · exact exists_of_mem_records_step hfirst
      · exact ih hrest

theorem filter_records_readAll {kind : LogRecord → Bool}
    (hkind : ∀ number limit, kind (.lineTooLong number limit) = false) (s : Splitter)
    (chunks : List Bytes) :
    (Notice.records (Signal.notices (s.readAll chunks).2)).filter kind = [] := by
  refine List.filter_eq_nil_iff.mpr fun record hrecord => ?_
  obtain ⟨number, limit, rfl⟩ := exists_of_mem_records_readAll hrecord
  simp [hkind]

theorem ofStream_readAll (s : Splitter) (chunks : List Bytes) :
    Notice.OfStream (Signal.notices (s.readAll chunks).2) := by
  rw [Notice.ofStream_iff]
  intro record hrecord
  obtain ⟨number, limit, rfl⟩ := exists_of_mem_records_readAll hrecord
  rfl

theorem ofStream_close (s : Splitter) : Notice.OfStream (Signal.notices s.close.2) := by
  simp [Notice.ofStream_iff]

end Splitter

namespace BlockReader

@[simp] theorem records_close (r : BlockReader) :
    Notice.records r.close.2 = if r.holdsField then [.blockDiscarded] else [] := by
  unfold close
  dsimp only
  split <;> rfl

theorem ofStream_close (r : BlockReader) : Notice.OfStream r.close.2 := by
  rw [Notice.ofStream_iff, records_close]
  split <;> simp [LogRecord.isOfStream]

end BlockReader

/-! ## Records in the log -/

/-- Whether a record is one of those that a sink logs for diagnostics. -/
def LogRecord.isOfSink : LogRecord → Bool
  | oversizedLine .. | diagnosticDropped .. => true
  | _ => false

namespace Sink

/-- What of this kind is logged for notices. -/
def logged (sink : Sink) (kind : LogRecord → Bool) (notices : List Notice) : List LogRecord :=
  (sink.acceptAll notices).2.filter kind

theorem isOfSink_of_mem_report {sink : Sink} {d : Diagnostic} {record : LogRecord}
    (hrecord : record ∈ (sink.report d).2) : record.isOfSink = true := by
  cases sink with
  | collector seen => cases hrecord
  | logger =>
      obtain rfl := List.mem_singleton.mp hrecord
      rfl
  | channel c =>
      simp only [report] at hrecord
      split at hrecord
      · cases hrecord
      · obtain rfl := List.mem_singleton.mp hrecord
        rfl

variable {kind : LogRecord → Bool}

theorem filter_accept (hkind : ∀ record, record.isOfSink = true → kind record = false)
    (sink : Sink) (notice : Notice) :
    (sink.accept notice).2.filter kind = (Notice.records [notice]).filter kind := by
  cases notice with
  | record r => rfl
  | diagnostic d =>
      refine List.filter_eq_nil_iff.mpr fun record hrecord => ?_
      simp [hkind record (isOfSink_of_mem_report hrecord)]

/-- Whatever the sink is, the records that are none of its own are logged as they are told. -/
theorem logged_eq (hkind : ∀ record, record.isOfSink = true → kind record = false)
    (sink : Sink) (notices : List Notice) :
    sink.logged kind notices = (Notice.records notices).filter kind := by
  induction notices generalizing sink with
  | nil => rfl
  | cons notice notices ih =>
      have hrest := ih (sink.accept notice).1
      rw [logged, acceptAll] at hrest
      rw [logged, acceptAll, Transducer.run_cons, List.filter_append, hrest,
        filter_accept hkind, ← List.filter_append, ← Notice.records_append]
      rfl

end Sink

/-! ## Channels as sinks -/

namespace Sink

/-- A channel whose receiver is gone refuses a diagnostic, and so does one that is full.  Otherwise
the diagnostic waits behind the others. -/
theorem report_channel_cases (c : Channel) (d : Diagnostic) :
    (c.closed = true ∧
        (channel c).report d = (channel c, [.diagnosticDropped d.lineNumber true])) ∨
      (c.closed = false ∧ c.waiting.length < c.capacity ∧
        (channel c).report d = (channel { c with waiting := c.waiting ++ [d] }, [])) ∨
      (c.closed = false ∧ c.capacity ≤ c.waiting.length ∧
        (channel c).report d = (channel c, [.diagnosticDropped d.lineNumber false])) := by
  cases hclosed : c.closed with
  | true => exact Or.inl ⟨rfl, by simp [report, Channel.send, hclosed]⟩
  | false =>
      by_cases hroom : c.waiting.length < c.capacity
      · exact Or.inr (Or.inl ⟨rfl, hroom, by simp [report, Channel.send, hclosed, hroom]⟩)
      · exact Or.inr (Or.inr ⟨rfl, Nat.le_of_not_lt hroom,
          by simp [report, Channel.send, hclosed, hroom]⟩)

end Sink

end ServerSentEvents
