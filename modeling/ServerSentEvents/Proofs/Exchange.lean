import ServerSentEvents.Proofs.Composition
import ServerSentEvents.Proofs.Notices
import ServerSentEvents.Proofs.Splitter.Accounting

/-!
# A decoder and the receiver of its diagnostics

Whatever reads a stream passes its notices on one by one, and between any two of them the receiver
of its diagnostics may take one or go away.  `Exchange.Run` lets that happen in any order.  What is
read and answered does not depend on it (`Exchange.Run.answers_eq`), and every diagnostic that has
been reported is accounted for: the invariant is `Exchange.Accounts`, and every step keeps it.
-/

namespace ServerSentEvents

/-! ## Readers -/

namespace Splitter

/-- What was asked between two states of a splitter made these notices known. -/
def Moves (s t : Splitter) (notices : List Notice) : Prop :=
  ∃ requests, (s.respondAll requests).1 = t ∧
    Signal.diagnostics (s.respondAll requests).2 = Notice.diagnostics notices ∧
    Notice.OfStream notices

namespace Moves

variable {s t last : Splitter} {notices later : List Notice}

theorem refl (s : Splitter) : Moves s s [] :=
  ⟨[], rfl, rfl, by simp [Notice.OfStream]⟩

theorem trans (first : Moves s t notices) (second : Moves t last later) :
    Moves s last (notices ++ later) := by
  obtain ⟨requests, rfl, hdiagnostics, hstream⟩ := first
  obtain ⟨more, hlast, hlater, hmore⟩ := second
  refine ⟨requests ++ more, ?_, ?_, Notice.ofStream_append.mpr ⟨hstream, hmore⟩⟩
  · rw [respondAll_append]
    exact hlast
  · rw [respondAll_append, Signal.diagnostics_append, Notice.diagnostics_append, hdiagnostics,
      hlater]

theorem of_respond (s : Splitter) (request : Request) :
    Moves s (s.respond request).1 (Signal.notices (s.respond request).2) := by
  refine ⟨[request], rfl, ?_, ?_⟩
  · simp [respondAll_cons, Signal.diagnostics]
  · cases request with
    | read chunk =>
        have hread := s.ofStream_readAll [chunk]
        rw [readAll_eq_read] at hread
        simpa [respond] using hread
    | close => exact s.ofStream_close
    | forget => simp [respond, Notice.OfStream]

/-- Records that tell something else of the stream may come in between. -/
theorem append_records (h : Moves s t notices) (hnone : Notice.diagnostics later = [])
    (hstream : Notice.OfStream later) : Moves s t (notices ++ later) := by
  obtain ⟨requests, hnext, hdiagnostics, hfirst⟩ := h
  refine ⟨requests, hnext, ?_, Notice.ofStream_append.mpr ⟨hfirst, hstream⟩⟩
  rw [Notice.diagnostics_append, hnone, List.append_nil, hdiagnostics]

end Moves

end Splitter

/-- Whatever answers requests and makes notices known on the way, by means of a splitter. -/
structure Reader (σ ρ α : Type) where
  serve : σ → ρ → σ × α × List Notice
  splitter : σ → Splitter
  moves : ∀ s request,
    (splitter s).Moves (splitter (serve s request).1) (serve s request).2.2

namespace PolledLines

theorem moves_takeChunk (s : PolledLines) (chunk : Bytes) :
    s.splitter.Moves (s.takeChunk chunk).1.splitter (s.takeChunk chunk).2 :=
  .of_respond s.splitter (.read chunk)

theorem moves_takeEnd (s : PolledLines) :
    s.splitter.Moves s.takeEnd.1.splitter s.takeEnd.2.2 := by
  obtain ⟨requests, hnext, hdiagnostics, hstream⟩ := Splitter.Moves.of_respond s.splitter .close
  refine ⟨requests, hnext, hdiagnostics, fun record hrecord => ?_⟩
  rcases List.mem_cons.mp hrecord with htold | hclose
  · cases htold
    rfl
  · exact hstream record hclose

theorem moves_poll (s : PolledLines) : s.splitter.Moves s.poll.1.splitter s.poll.2.2 := by
  fun_induction poll s with
  | case1 s line ready hready => exact .refl s.splitter
  | case2 s hready error hphase => exact .of_respond s.splitter .forget
  | case3 s hready hphase => exact .refl s.splitter
  | case4 s hready hphase hsource => exact moves_takeEnd _
  | case5 s hready hphase source hsource => exact .refl s.splitter
  | case6 s hready hphase cause source hsource => exact .of_respond s.splitter .forget
  | case7 s hready hphase bytes source hsource taken notices htaken next answer later hrest ih =>
      have hfirst := moves_takeChunk { s with source, sourcePolls := s.sourcePolls + 1 } bytes
      rw [htaken] at hfirst
      rw [hrest] at ih
      exact hfirst.trans ih

end PolledLines

namespace PolledEvents

theorem moves_poll (s : PolledEvents) :
    s.lines.splitter.Moves s.poll.1.lines.splitter s.poll.2.2 := by
  have hpoll {s : PolledEvents} {lines : PolledLines} {answer : PollAnswer Line}
      {notices : List Notice} (hpolled : s.lines.poll = (lines, answer, notices)) :
      s.lines.splitter.Moves lines.splitter notices := by
    have hlines := s.lines.moves_poll
    rwa [hpolled] at hlines
  fun_induction poll s with
  | case1 s lines line notices hpolled => exact hpoll hpolled
  | case2 s lines line notices hpolled blocks htaken next answer later hrest ih =>
      rw [hrest] at ih
      exact (hpoll hpolled).trans ih
  | case3 s lines error notices hpolled => exact hpoll hpolled
  | case4 s lines notices hpolled => exact hpoll hpolled
  | case5 s lines notices hpolled blocks told hclosed =>
      have hnone := s.blocks.diagnostics_close
      have hstream := s.blocks.ofStream_close
      rw [hclosed] at hnone hstream
      exact (hpoll hpolled).append_records hnone hstream

end PolledEvents

namespace Reader

/-- A splitter answers with the lines that it hands out, and with its error once it has failed. -/
def splitting : Reader Splitter Splitter.Request (List Line × Option StreamError) where
  serve s request :=
    ((s.respond request).1, (Signal.lines (s.respond request).2, (s.respond request).1.error?),
      Signal.notices (s.respond request).2)
  splitter s := s
  moves := Splitter.Moves.of_respond

/-- A decoder answers with the events that are complete, and with its error once it has failed. -/
def decoding : Reader Decoder Decoder.Request (List Event × Option StreamError) where
  serve d
    | .read chunk =>
      ((d.read chunk).1, ((d.read chunk).2.1, (d.read chunk).1.error?), (d.read chunk).2.2)
    | .close => (d.close.1, ([], d.close.1.error?), d.close.2)
  splitter := Decoder.splitter
  moves d request := by
    cases request with
    | read chunk => exact .of_respond d.splitter (.read chunk)
    | close =>
        exact (Splitter.Moves.of_respond d.splitter .close).append_records
          d.blocks.diagnostics_close d.blocks.ofStream_close

/-- Lines that are polled. -/
def pollingLines : Reader PolledLines Unit (PollAnswer Line) where
  serve s _ := s.poll
  splitter := PolledLines.splitter
  moves s _ := s.moves_poll

/-- Events that are polled. -/
def pollingEvents : Reader PolledEvents Unit (PollAnswer Event) where
  serve s _ := s.poll
  splitter s := s.lines.splitter
  moves s _ := s.moves_poll

variable {σ ρ α : Type} (r : Reader σ ρ α)

/-- Answers requests: every answer goes with the notices that were made known for it. -/
def serveAll (s : σ) (requests : List ρ) : σ × List (α × List Notice) :=
  Transducer.run (fun s request => ((r.serve s request).1, [(r.serve s request).2])) s requests

/-- What is made known while requests are answered. -/
def notices (s : σ) (requests : List ρ) : List Notice :=
  (r.serveAll s requests).2.flatMap (·.2)

theorem serveAll_concat (s : σ) (requests : List ρ) (request : ρ) :
    r.serveAll s (requests ++ [request]) =
      ((r.serve (r.serveAll s requests).1 request).1,
        (r.serveAll s requests).2 ++ [(r.serve (r.serveAll s requests).1 request).2]) := by
  rw [serveAll, Transducer.run_append]
  rfl

theorem notices_concat (s : σ) (requests : List ρ) (request : ρ) :
    r.notices s (requests ++ [request]) =
      r.notices s requests ++ (r.serve (r.serveAll s requests).1 request).2.2 := by
  simp [notices, serveAll_concat]

theorem moves_serveAll (s : σ) (requests : List ρ) :
    (r.splitter s).Moves (r.splitter (r.serveAll s requests).1) (r.notices s requests) := by
  induction requests using List.reverseRecOn with
  | nil => exact .refl _
  | append_singleton requests request ih =>
      rw [notices_concat, serveAll_concat]
      exact ih.trans (r.moves _ request)

/-- From the start of a stream, the diagnostics that are made known are about one line after
another. -/
theorem diagnostics_increase {s : σ} {limits : LineLimits} {hpos : 0 < limits.maxSize}
    (hstart : r.splitter s = .start limits hpos) (requests : List ρ) :
    ((Notice.diagnostics (r.notices s requests)).map (·.lineNumber)).Pairwise (· < ·) := by
  obtain ⟨asked, -, hdiagnostics, -⟩ := r.moves_serveAll s requests
  rw [← hdiagnostics, hstart]
  obtain ⟨hbooks, -⟩ := Splitter.books_respondAll (Splitter.aligned_start limits hpos) asked
  exact hbooks.diagnostics_increase

end Reader

/-! ## Exchanges -/

namespace Sink

/-- Whether this is a channel whose receiver is gone. -/
def isGone : Sink → Bool
  | channel c => c.closed
  | _ => false

/-- The diagnostics that wait to be received. -/
def waiting : Sink → List Diagnostic
  | channel c => c.waiting
  | _ => []

end Sink

/-- The reporting of a diagnostic. -/
structure Reporting where
  diagnostic : Diagnostic
  /-- Whether the receiver was gone at that moment. -/
  gone : Bool
  /-- How many diagnostics waited at that moment. -/
  waiting : Nat
  deriving DecidableEq, Repr

namespace Reporting

/-- Whether a sink with so much room refuses the diagnostic. -/
def isRefused (capacity : Nat) (report : Reporting) : Bool :=
  report.gone || report.waiting == capacity

/-- What is logged for a diagnostic that is refused. -/
def dropRecord (report : Reporting) : LogRecord :=
  .diagnosticDropped report.diagnostic.lineNumber report.gone

end Reporting

/-- A reader at work, its sink, and what has happened so far. -/
structure Exchange (σ α : Type) where
  reader : σ
  answers : List α := []
  /-- The notices that have still to be passed on. -/
  untold : List Notice := []
  sink : Sink
  log : List LogRecord := []
  /-- The diagnostics that have been reported, in order. -/
  reports : List Reporting := []
  received : List Diagnostic := []
  /-- What waited for the receiver when it went away. -/
  lost : List Diagnostic := []

namespace Exchange

variable {σ ρ α : Type}

/-- Passes a notice on to the sink, which leaves `untold` to be passed on. -/
def tell (p : Exchange σ α) (notice : Notice) (untold : List Notice) : Exchange σ α :=
  { p with
    untold
    sink := (p.sink.accept notice).1
    log := p.log ++ (p.sink.accept notice).2
    reports := p.reports ++
      notice.diagnostic?.toList.map fun d => ⟨d, p.sink.isGone, p.sink.waiting.length⟩ }

/-- An exchange that began with this reader and this sink may get so far while these requests are
made.  The reader passes on all notices of a request before it is asked for more.  The receiver
takes what has waited longest, or goes away, at any time. -/
inductive Run (r : Reader σ ρ α) (reader : σ) (sink : Sink) : List ρ → Exchange σ α → Prop where
  | start : Run r reader sink [] { reader, sink }
  | ask {requests : List ρ} {p : Exchange σ α} (hrun : Run r reader sink requests p)
      (htold : p.untold = []) (request : ρ) :
      Run r reader sink (requests ++ [request])
        { p with
          reader := (r.serve p.reader request).1
          answers := p.answers ++ [(r.serve p.reader request).2.1]
          untold := (r.serve p.reader request).2.2 }
  | tell {requests : List ρ} {p : Exchange σ α} {notice : Notice} {untold : List Notice}
      (hrun : Run r reader sink requests p) (huntold : p.untold = notice :: untold) :
      Run r reader sink requests (p.tell notice untold)
  | receive {requests : List ρ} {p : Exchange σ α} {c : Channel} {d : Diagnostic}
      {waiting : List Diagnostic} (hrun : Run r reader sink requests p)
      (hsink : p.sink = .channel c) (hwaiting : c.waiting = d :: waiting) :
      Run r reader sink requests
        { p with sink := .channel { c with waiting }, received := p.received ++ [d] }
  | close {requests : List ρ} {p : Exchange σ α} {c : Channel}
      (hrun : Run r reader sink requests p) (hsink : p.sink = .channel c)
      (hopen : c.closed = false) :
      Run r reader sink requests { p with sink := .channel c.close, lost := c.waiting }

/-- The diagnostics that have been reported. -/
def reported (p : Exchange σ α) : List Diagnostic :=
  p.reports.map (·.diagnostic)

theorem reported_tell (p : Exchange σ α) (notice : Notice) (untold : List Notice) :
    (p.tell notice untold).reported = p.reported ++ notice.diagnostic?.toList := by
  simp [reported, tell, Function.comp_def]

/-- The reports that a sink with so much room has refused. -/
def refused (capacity : Nat) (p : Exchange σ α) : List Reporting :=
  p.reports.filter (·.isRefused capacity)

namespace Run

variable {r : Reader σ ρ α} {reader : σ} {sink : Sink} {requests : List ρ} {p : Exchange σ α}

/-- What is read and answered, and what there is to be told, depends on the requests alone. -/
theorem answers_eq (h : Run r reader sink requests p) :
    p.reader = (r.serveAll reader requests).1 ∧
      p.answers = (r.serveAll reader requests).2.map (·.1) ∧
      p.reported ++ Notice.diagnostics p.untold =
        Notice.diagnostics (r.notices reader requests) := by
  induction h with
  | start => exact ⟨rfl, rfl, rfl⟩
  | ask _ htold request ih =>
      obtain ⟨hreader, hanswers, hnotices⟩ := ih
      rw [htold, Notice.diagnostics_nil, List.append_nil] at hnotices
      rw [r.notices_concat, r.serveAll_concat, Notice.diagnostics_append, ← hnotices, ← hreader,
        List.map_append, ← hanswers]
      exact ⟨rfl, rfl, rfl⟩
  | @tell _ p notice untold _ huntold ih =>
      obtain ⟨hreader, hanswers, hnotices⟩ := ih
      refine ⟨hreader, hanswers, ?_⟩
      rw [← hnotices, huntold, reported_tell, List.append_assoc]
      cases notice <;> rfl
  | receive _ _ _ ih => exact ih
  | close _ _ _ ih => exact ih

/-- Nothing keeps a reader from passing its notices on. -/
theorem exists_told (h : Run r reader sink requests p) :
    ∃ q, Run r reader sink requests q ∧ q.untold = [] := by
  obtain ⟨untold, huntold⟩ : ∃ untold, p.untold = untold := ⟨_, rfl⟩
  induction untold generalizing p with
  | nil => exact ⟨p, h, huntold⟩
  | cons notice untold ih => exact ih (h.tell huntold) rfl

theorem exists_run (r : Reader σ ρ α) (reader : σ) (sink : Sink) (requests : List ρ) :
    ∃ p, Run r reader sink requests p ∧ p.untold = [] := by
  induction requests using List.reverseRecOn with
  | nil => exact ⟨_, .start, rfl⟩
  | append_singleton requests request ih =>
      obtain ⟨p, hrun, htold⟩ := ih
      exact (hrun.ask htold request).exists_told

/-- A collector has all that has been reported. -/
theorem sink_eq_collector (h : Run r reader (.collector []) requests p) :
    p.sink = .collector p.reported := by
  induction h with
  | start => rfl
  | ask _ _ _ ih => exact ih
  | @tell _ p notice _ _ _ ih =>
      rw [reported_tell]
      cases notice <;> simp [Exchange.tell, ih, Sink.accept, Sink.report, Notice.diagnostic?]
  | receive _ hsink _ ih => cases hsink.symm.trans ih
  | close _ hsink _ ih => cases hsink.symm.trans ih

end Run

/-! ## The account of the diagnostics -/

/-- What has become of the diagnostics that were reported to a channel with so much room.  Each is
received, waits, was lost with the receiver or was refused, and for each that was refused the log
tells its line and whether the receiver was gone. -/
structure Accounts (capacity : Nat) (p : Exchange σ α) (c : Channel) : Prop where
  sink_eq : p.sink = .channel c
  capacity_eq : c.capacity = capacity
  waiting_le : c.waiting.length ≤ capacity
  /-- What is received and what waits is in the order in which it was reported. -/
  sublist : (p.received ++ c.waiting).Sublist p.reported
  perm : (p.received ++ c.waiting ++ p.lost ++ (p.refused capacity).map (·.diagnostic)).Perm
    p.reported
  log_eq : p.log.filter (·.isDrop) = (p.refused capacity).map (·.dropRecord)
  /-- Nothing is lost before the receiver goes away, and nothing waits after that. -/
  present : c.closed = false → p.lost = []
  gone : c.closed = true → c.waiting = []
  ofStream : Notice.OfStream p.untold

namespace Accounts

variable {r : Reader σ ρ α} {capacity : Nat} {p : Exchange σ α} {c : Channel}

theorem start (reader : σ) (c : Channel) (hempty : c.waiting = []) :
    Accounts c.capacity ({ reader, sink := .channel c } : Exchange σ α) c where
  sink_eq := rfl
  capacity_eq := rfl
  waiting_le := by simp [hempty]
  sublist := by simp [hempty]
  perm := by simp [hempty, refused, reported]
  log_eq := rfl
  present := fun _ => rfl
  gone := fun _ => hempty
  ofStream := by simp [Notice.OfStream]

/-- A diagnostic that is refused is told. -/
theorem refuse (h : Accounts capacity p c) {report : Reporting}
    (hrefused : report.isRefused capacity = true) :
    Accounts capacity
      { p with log := p.log ++ [report.dropRecord], reports := p.reports ++ [report] } c where
  sink_eq := h.sink_eq
  capacity_eq := h.capacity_eq
  waiting_le := h.waiting_le
  sublist := by
    rw [reported, List.map_append]
    exact h.sublist.trans (List.sublist_append_left _ _)
  perm := by
    have hmore := h.perm.append_right [report.diagnostic]
    simpa [refused, reported, hrefused] using hmore
  log_eq := by
    have hdrop : report.dropRecord.isDrop = true := rfl
    simpa [refused, hrefused, hdrop] using h.log_eq
  present := h.present
  gone := h.gone
  ofStream := h.ofStream

/-- A diagnostic that is sent waits behind the others. -/
theorem send (h : Accounts capacity p c) {report : Reporting}
    (hsent : report.isRefused capacity = false) (hopen : c.closed = false)
    (hroom : c.waiting.length < capacity) :
    Accounts capacity
      { p with
        sink := .channel { c with waiting := c.waiting ++ [report.diagnostic] }
        reports := p.reports ++ [report] }
      { c with waiting := c.waiting ++ [report.diagnostic] } where
  sink_eq := rfl
  capacity_eq := h.capacity_eq
  waiting_le := by
    rw [List.length_append, List.length_singleton]
    exact hroom
  sublist := by
    rw [reported, List.map_append, ← List.append_assoc]
    exact h.sublist.append (List.Sublist.refl [report.diagnostic])
  perm := by
    -- The diagnostic goes in before all that was lost or refused earlier.
    have hmore := h.perm.append_right [report.diagnostic]
    have hlast : ([report.diagnostic] ++
        (p.lost ++ (p.refused capacity).map (·.diagnostic))).Perm _ := List.perm_append_comm
    simp only [List.append_assoc] at hmore hlast
    simpa [refused, reported, hsent] using
      ((hlast.append_left c.waiting).append_left p.received).trans hmore
  log_eq := by simpa [refused, hsent] using h.log_eq
  present := h.present
  gone := by simp [hopen]
  ofStream := h.ofStream

theorem receive (h : Accounts capacity p c) {d : Diagnostic} {waiting : List Diagnostic}
    (hwaiting : c.waiting = d :: waiting) :
    Accounts capacity
      { p with sink := .channel { c with waiting }, received := p.received ++ [d] }
      { c with waiting } where
  sink_eq := rfl
  capacity_eq := h.capacity_eq
  waiting_le := by
    have hle := h.waiting_le
    rw [hwaiting, List.length_cons] at hle
    exact (Nat.le_succ _).trans hle
  sublist := by simpa [hwaiting, reported] using h.sublist
  perm := by simpa [hwaiting, reported, refused] using h.perm
  log_eq := h.log_eq
  present := h.present
  gone := by
    intro hclosed
    rw [h.gone hclosed] at hwaiting
    cases hwaiting
  ofStream := h.ofStream

/-- What waits for the receiver is lost with it. -/
theorem close (h : Accounts capacity p c) (hopen : c.closed = false) :
    Accounts capacity { p with sink := .channel c.close, lost := c.waiting } c.close where
  sink_eq := rfl
  capacity_eq := h.capacity_eq
  waiting_le := Nat.zero_le _
  sublist := by
    simpa [Channel.close, reported] using (List.sublist_append_left p.received _).trans h.sublist
  perm := by simpa [Channel.close, h.present hopen, reported, refused] using h.perm
  log_eq := h.log_eq
  present := nofun
  gone := fun _ => rfl
  ofStream := h.ofStream

/-- A channel refuses what it is no longer to take, or has no room for, and nothing else. -/
theorem report_cases (h : Accounts capacity p c) (d : Diagnostic) :
    let report : Reporting := ⟨d, c.closed, c.waiting.length⟩
    (report.isRefused capacity = true ∧
        (Sink.channel c).report d = (.channel c, [report.dropRecord])) ∨
      (report.isRefused capacity = false ∧ c.closed = false ∧ c.waiting.length < capacity ∧
        (Sink.channel c).report d = (.channel { c with waiting := c.waiting ++ [d] }, [])) := by
  intro report
  rcases Sink.report_channel_cases c d with
    ⟨hclosed, hrefused⟩ | ⟨hopen, hroom, hsent⟩ | ⟨hopen, hfull, hrefused⟩
  · refine Or.inl ⟨?_, ?_⟩
    · simp [report, Reporting.isRefused, hclosed]
    · rw [hrefused, ← hclosed]
      rfl
  · rw [h.capacity_eq] at hroom
    refine Or.inr ⟨?_, hopen, hroom, hsent⟩
    simp [report, Reporting.isRefused, hopen, hroom.ne]
  · rw [h.capacity_eq] at hfull
    refine Or.inl ⟨?_, ?_⟩
    · simp [report, Reporting.isRefused, Nat.le_antisymm h.waiting_le hfull]
    · rw [hrefused, ← hopen]
      rfl

/-- A notice that is passed on is logged, or its diagnostic is sent or refused. -/
theorem tell (h : Accounts capacity p c) {notice : Notice} {untold : List Notice}
    (huntold : p.untold = notice :: untold) :
    ∃ next, Accounts capacity (p.tell notice untold) next := by
  have hstream := h.ofStream
  rw [huntold] at hstream
  have hrest : Notice.OfStream untold := fun record hrecord =>
    hstream record (List.mem_cons_of_mem _ hrecord)
  have hnext : Accounts capacity { p with untold } c := { h with ofStream := hrest }
  cases notice with
  | record record =>
      have hdrop := LogRecord.isDrop_of_isOfStream (hstream record List.mem_cons_self)
      have htell : p.tell (.record record) untold =
          { p with untold, log := p.log ++ [record] } := by
        simp [Exchange.tell, Sink.accept, Notice.diagnostic?]
      rw [htell]
      refine ⟨c, { hnext with log_eq := ?_ }⟩
      rw [List.filter_append, List.filter_singleton, hdrop]
      simpa [refused] using h.log_eq
  | diagnostic d =>
      have htell : p.tell (.diagnostic d) untold =
          { p with
            untold
            sink := ((Sink.channel c).report d).1
            log := p.log ++ ((Sink.channel c).report d).2
            reports := p.reports ++ [⟨d, c.closed, c.waiting.length⟩] } := by
        rw [Exchange.tell, h.sink_eq]
        rfl
      rw [htell]
      rcases h.report_cases d with ⟨hrefused, hsame⟩ | ⟨hkept, hopen, hroom, hsent⟩
      · rw [hsame, ← h.sink_eq]
        exact ⟨c, hnext.refuse hrefused⟩
      · rw [hsent, List.append_nil]
        exact ⟨_, hnext.send hkept hopen hroom⟩

theorem run {reader : σ} {requests : List ρ} (hempty : c.waiting = [])
    (h : Run r reader (.channel c) requests p) : ∃ now, Accounts c.capacity p now := by
  induction h with
  | start => exact ⟨c, start reader c hempty⟩
  | @ask _ p _ _ request ih =>
      obtain ⟨now, haccounts⟩ := ih
      obtain ⟨-, -, -, hstream⟩ := r.moves p.reader request
      exact ⟨now, { haccounts with ofStream := hstream }⟩
  | tell _ huntold ih =>
      obtain ⟨now, haccounts⟩ := ih
      exact haccounts.tell huntold
  | receive _ hsink hwaiting ih =>
      obtain ⟨now, haccounts⟩ := ih
      obtain rfl := Sink.channel.inj (hsink.symm.trans haccounts.sink_eq)
      exact ⟨_, haccounts.receive hwaiting⟩
  | close _ hsink hopen ih =>
      obtain ⟨now, haccounts⟩ := ih
      obtain rfl := Sink.channel.inj (hsink.symm.trans haccounts.sink_eq)
      exact ⟨_, haccounts.close hopen⟩

end Accounts

/-! ## Conservation -/

/-- However far a reader and the receiver of its channel have come, the diagnostics that it has
reported are accounted for, and the reader is where it is with a collector in the place of the
channel: it has the same counters and has given the same answers.  What the collector gets is about
one line after another, and the receiver has a part of it, in the same order. -/
def Conserves (r : Reader σ ρ α) (reader : σ) (c : Channel) : Prop :=
  ∀ requests p, Run r reader (.channel c) requests p →
    (∃ now, Accounts c.capacity p now) ∧
    (∃ q, Run r reader (.collector []) requests q ∧ q.untold = []) ∧
    ∀ q, Run r reader (.collector []) requests q →
      q.reader = p.reader ∧ q.answers = p.answers ∧
        (q.untold = [] →
          let seen := p.reported ++ Notice.diagnostics p.untold
          q.sink = .collector seen ∧ (seen.map (·.lineNumber)).Pairwise (· < ·) ∧
            p.received.Sublist seen)

theorem conserves_of_start (r : Reader σ ρ α) {reader : σ} {limits : LineLimits}
    {hpos : 0 < limits.maxSize} (hstart : r.splitter reader = .start limits hpos) {c : Channel}
    (hempty : c.waiting = []) : Conserves r reader c := by
  intro requests p hrun
  obtain ⟨now, haccounts⟩ := Accounts.run hempty hrun
  obtain ⟨hreader, hanswers, hreported⟩ := hrun.answers_eq
  refine ⟨⟨now, haccounts⟩, Run.exists_run r reader _ requests, fun q hcollected => ?_⟩
  obtain ⟨hreader', hanswers', hreported'⟩ := hcollected.answers_eq
  refine ⟨hreader'.trans hreader.symm, hanswers'.trans hanswers.symm, fun htold => ⟨?_, ?_, ?_⟩⟩
  · rw [hcollected.sink_eq_collector, hreported, ← hreported', htold, Notice.diagnostics_nil,
      List.append_nil]
  · rw [hreported]
    exact r.diagnostics_increase hstart requests
  · have hreceived := (List.sublist_append_left p.received _).trans haccounts.sublist
    exact hreceived.trans (List.sublist_append_left _ _)

/-- Diagnostics that go into a channel are conserved, and have no influence on the decoding.  This
holds of whatever reads a stream from its start, and in every order in which it can pass its
diagnostics on, the receiver take them, and the receiver go away. -/
theorem diagnostics_conserved {n : Nat} {c : Channel} (hc : Channel.ofCapacity n = .ok c)
    (limits : LineLimits) (hpos : 0 < limits.maxSize) (source : List SourceItem) :
    c.capacity = n ∧
      Conserves .splitting (.start limits hpos) c ∧
      Conserves .decoding (.start limits hpos) c ∧
      Conserves .pollingLines (.start limits hpos source) c ∧
      Conserves .pollingEvents (.start limits hpos source) c := by
  obtain ⟨hcapacity, hempty⟩ : c.capacity = n ∧ c.waiting = [] := by
    unfold Channel.ofCapacity at hc
    split at hc
    · cases hc
    · split at hc
      · cases hc
      · cases hc
        exact ⟨rfl, rfl⟩
  exact ⟨hcapacity, conserves_of_start _ rfl hempty, conserves_of_start _ rfl hempty,
    conserves_of_start _ rfl hempty, conserves_of_start _ rfl hempty⟩

/-- Of three diagnostics the first is received, the second finds the channel full, and the third
finds the receiver gone. -/
theorem diagnostics_conserved_of_close :
    let reader := Splitter.start ⟨1, .logAndSkip⟩ Nat.one_pos
    let request : Splitter.Request :=
      .read [0x61, 0x61, 0x0a, 0x62, 0x62, 0x0a, 0x63, 0x63, 0x0a]
    let c : Channel := ⟨1, Nat.one_pos, [], false⟩
    let about (number : Nat) : Diagnostic := ⟨.logAndSkip, number, 2, none⟩
    ∃ p, Run .splitting reader (.channel c) [request] p ∧ p.received = [about 1] ∧
      p.log = [.diagnosticDropped 2 false, .diagnosticDropped 3 true] ∧
      (∃ now, Accounts 1 p now) ∧
      ∃ q, Run .splitting reader (.collector []) [request] q ∧ q.answers = p.answers ∧
        q.sink = .collector [about 1, about 2, about 3] := by
  intro reader request c about
  have hnotices : (Reader.splitting.serve reader request).2.2 =
      [.diagnostic (about 1), .diagnostic (about 2), .diagnostic (about 3)] := by
    change Signal.notices (reader.read _).2 = _
    rw [Splitter.read_eq_run]
    decide
  have hstart : Run .splitting reader (.channel c) [] { reader, sink := .channel c } := .start
  have hasked := hstart.ask rfl request
  have hfull := (hasked.tell hnotices).tell rfl
  have hdeserted := (hfull.receive rfl rfl).close rfl rfl
  have hrun := hdeserted.tell rfl
  have hc : Channel.ofCapacity 1 = .ok c := rfl
  obtain ⟨-, hsplitting, -⟩ := diagnostics_conserved hc ⟨1, .logAndSkip⟩ Nat.one_pos []
  obtain ⟨haccounts, ⟨q, hcollected, htold⟩, hsame⟩ := hsplitting _ _ hrun
  obtain ⟨-, hanswers, hsink⟩ := hsame q hcollected
  exact ⟨_, hrun, rfl, rfl, haccounts, q, hcollected, hanswers, (hsink htold).1⟩

end Exchange

end ServerSentEvents
