import ServerSentEvents.Proofs.Splitter.WholeStream

/-!
# Whatever is asked of a splitter

A splitter may be handed chunks, be closed and be made to forget its open line, in any order and any
number of times.  `Course` tells what such requests amount to: the lines that they end, the lines
that they throw away, and the bytes since the last of them that ended a stream.  The invariant
`Splitter.Follows` computes the state of a splitter and all it has emitted from the course alone.
One more request keeps it (`Splitter.Follows.respond`) as long as no line fails the stream, so
that splitters with different limits can be compared by what they make of one course.
-/

namespace ServerSentEvents

namespace Splitter

/-- What can be asked of a splitter. -/
inductive Request where
  | read (chunk : Bytes)
  | close
  | forget
  deriving DecidableEq, Repr

def respond (s : Splitter) : Request → Splitter × List Signal
  | .read chunk => s.read chunk
  | .close => s.close
  | .forget => (s.forget, [])

/-- Does what is asked, in order. -/
def respondAll (s : Splitter) (requests : List Request) : Splitter × List Signal :=
  Transducer.run respond s requests

@[simp] theorem respondAll_nil (s : Splitter) : s.respondAll [] = (s, []) := rfl

theorem respondAll_cons (s : Splitter) (request : Request) (requests : List Request) :
    s.respondAll (request :: requests) =
      (((s.respond request).1.respondAll requests).1,
        (s.respond request).2 ++ ((s.respond request).1.respondAll requests).2) :=
  Transducer.run_cons respond s request requests

theorem respondAll_append (s : Splitter) (a b : List Request) :
    s.respondAll (a ++ b) =
      (((s.respondAll a).1.respondAll b).1,
        (s.respondAll a).2 ++ ((s.respondAll a).1.respondAll b).2) :=
  Transducer.run_append respond s a b

theorem respondAll_concat (s : Splitter) (requests : List Request) (request : Request) :
    s.respondAll (requests ++ [request]) =
      (((s.respondAll requests).1.respond request).1,
        (s.respondAll requests).2 ++ ((s.respondAll requests).1.respond request).2) := by
  rw [respondAll_append, respondAll_cons]
  simp

theorem respondAll_read (s : Splitter) (chunks : List Bytes) :
    s.respondAll (chunks.map .read) = s.readAll chunks := by
  induction chunks generalizing s with
  | nil => rfl
  | cons chunk chunks ih =>
      rw [readAll_cons, ← ih, List.map_cons, respondAll_cons]
      rfl

end Splitter

/-! ## The course of requests -/

/-- What requests amount to, whatever the limits are. -/
structure Course where
  /-- The lines that were ended in streams that are over. -/
  past : List Bytes := []
  /-- The open lines that were thrown away. -/
  forgotten : List Bytes := []
  /-- What has been read since. -/
  stream : Bytes := []

namespace Course

open Splitter (Request)

/-- The lines that were ended, in order. -/
def ended (c : Course) : List Bytes :=
  c.past ++ Bytes.lines c.stream

/-- The line that is open. -/
def openBytes (c : Course) : Bytes :=
  Bytes.remainder c.stream

/-- All lines of which anything was read. -/
def begun (c : Course) : List Bytes :=
  c.ended ++ c.forgotten ++ [c.openBytes]

/-- The course after one more request.  The end of a stream ends the open line, unless nothing of
it was read. -/
def next (c : Course) : Request → Course
  | .read chunk => { c with stream := c.stream ++ chunk }
  | .close =>
    { c with
      past := c.ended ++ if c.openBytes = [] then [] else [c.openBytes]
      stream := [] }
  | .forget => { past := c.ended, forgotten := c.forgotten ++ [c.openBytes] }

def of (requests : List Request) : Course :=
  requests.foldl next {}

/-- No line has ever been longer than this. -/
def Within (limit : Nat) (c : Course) : Prop :=
  ∀ line ∈ c.begun, line.length ≤ limit

instance (limit : Nat) (c : Course) : Decidable (c.Within limit) :=
  inferInstanceAs (Decidable (∀ line ∈ c.begun, line.length ≤ limit))

@[simp] theorem of_nil : of [] = {} := rfl

theorem of_concat (requests : List Request) (request : Request) :
    of (requests ++ [request]) = (of requests).next request := by
  simp [of]

theorem of_map_read (chunks : List Bytes) :
    of (chunks.map .read) = { stream := chunks.flatten } := by
  induction chunks using List.reverseRecOn with
  | nil => rfl
  | append_singleton chunks chunk ih =>
      rw [List.map_append, List.map_singleton, of_concat, ih]
      simp [next]

theorem next_read_append (c : Course) (a b : Bytes) :
    c.next (.read (a ++ b)) = (c.next (.read a)).next (.read b) := by
  simp [next]

theorem ended_next_close (c : Course) :
    (c.next .close).ended = c.ended ++ if c.openBytes = [] then [] else [c.openBytes] := by
  simp [next, ended]

theorem ended_next_forget (c : Course) : (c.next .forget).ended = c.ended := by
  simp [next, ended]

/-! ### One more byte -/

/-- A byte completes the terminator of a line that has ended, ends the open line or adds to it. -/
theorem next_byte_cases (c : Course) (b : UInt8) :
    (c.stream.getLast? = some Bytes.carriageReturn ∧ b = Bytes.lineFeed ∧
        (c.next (.read [b])).ended = c.ended ∧ (c.next (.read [b])).openBytes = c.openBytes) ∨
      (¬(c.stream.getLast? = some Bytes.carriageReturn ∧ b = Bytes.lineFeed) ∧
        Bytes.isTerminator b = true ∧ (c.next (.read [b])).ended = c.ended ++ [c.openBytes] ∧
        (c.next (.read [b])).openBytes = []) ∨
      (Bytes.isTerminator b = false ∧ (c.next (.read [b])).ended = c.ended ∧
        (c.next (.read [b])).openBytes = c.openBytes ++ [b]) := by
  simp only [next, ended, openBytes, Bytes.lines, Bytes.remainder]
  rcases Bytes.cut_concat_cases c.stream b with
    ⟨hreturn, hfeed, hcut⟩ | ⟨hapart, hb, hcut⟩ | ⟨hb, hcut⟩
  · exact Or.inl ⟨hreturn, hfeed, by rw [hcut], by rw [hcut]⟩
  · exact Or.inr (Or.inl ⟨hapart, hb, by rw [hcut, List.append_assoc], by rw [hcut]⟩)
  · exact Or.inr (Or.inr ⟨hb, by rw [hcut], by rw [hcut]⟩)

variable {limit : Nat} {c : Course}

theorem within_iff :
    c.Within limit ↔
      (∀ line ∈ c.ended, line.length ≤ limit) ∧ (∀ line ∈ c.forgotten, line.length ≤ limit) ∧
        c.openBytes.length ≤ limit := by
  simp only [Within, begun, List.forall_mem_append, List.forall_mem_singleton, and_assoc]

theorem Within.mono (h : c.Within limit) {wider : Nat} (hwider : limit ≤ wider) : c.Within wider :=
  fun line hline => (h line hline).trans hwider

/-- One more byte makes the open line the only one that may have become too long. -/
theorem within_next_byte_iff (c : Course) (b : UInt8) :
    (c.next (.read [b])).Within limit ↔
      c.Within limit ∧ (c.next (.read [b])).openBytes.length ≤ limit := by
  have hforgotten : (c.next (.read [b])).forgotten = c.forgotten := rfl
  rw [within_iff, within_iff, hforgotten]
  rcases c.next_byte_cases b with
    ⟨-, -, hended, hopen⟩ | ⟨-, -, hended, hopen⟩ | ⟨-, hended, hopen⟩
  · rw [hended, hopen]
    tauto
  · rw [hended, hopen, List.forall_mem_append, List.forall_mem_singleton]
    simp only [List.length_nil, Nat.zero_le]
    tauto
  · rw [hended, hopen, List.length_append, List.length_singleton]
    constructor
    · rintro ⟨hlines, hothers, hlength⟩
      exact ⟨⟨hlines, hothers, by omega⟩, hlength⟩
    · rintro ⟨⟨hlines, hothers, -⟩, hlength⟩
      exact ⟨hlines, hothers, hlength⟩

/-- A line that is too long stays so. -/
theorem Within.of_next {request : Request} (h : (c.next request).Within limit) :
    c.Within limit := by
  cases request with
  | read chunk =>
      induction chunk using List.reverseRecOn with
      | nil => simpa [next] using h
      | append_singleton chunk b ih =>
          rw [next_read_append] at h
          exact ih ((within_next_byte_iff _ b).mp h).1
  | close =>
      rw [within_iff, ended_next_close, List.forall_mem_append] at h
      obtain ⟨⟨hended, hopen⟩, hforgotten, -⟩ := h
      refine within_iff.mpr ⟨hended, hforgotten, ?_⟩
      by_cases hnone : c.openBytes = []
      · simp [hnone]
      · exact hopen _ (by simp [hnone])
  | forget =>
      rw [within_iff, ended_next_forget] at h
      obtain ⟨hended, hforgotten, -⟩ := h
      have hopen := List.forall_mem_append.mp hforgotten
      exact within_iff.mpr ⟨hended, hopen.1, hopen.2 _ List.mem_cons_self⟩

theorem Within.next_of_ne_read (h : c.Within limit) {request : Request}
    (hother : ∀ chunk, request ≠ .read chunk) : (c.next request).Within limit := by
  obtain ⟨hended, hforgotten, hopen⟩ := within_iff.mp h
  cases request with
  | read chunk => exact absurd rfl (hother chunk)
  | close =>
      rw [within_iff, ended_next_close, List.forall_mem_append]
      refine ⟨⟨hended, ?_⟩, hforgotten, Nat.zero_le _⟩
      intro line hline
      split at hline
      · cases hline
      · rwa [List.mem_singleton.mp hline]
  | forget =>
      rw [within_iff, ended_next_forget]
      refine ⟨hended, ?_, Nat.zero_le _⟩
      exact List.forall_mem_append.mpr ⟨hforgotten, List.forall_mem_singleton.mpr hopen⟩

end Course

namespace LineLimits

/-! ## Counting -/

/-- The counters after lines have ended. -/
def countsOf (limits : LineLimits) (lines : List Bytes) : LineCounts :=
  let within := lines.countP limits.admits
  let beyond := lines.countP (!limits.admits ·)
  match limits.overflow with
  | .failStream => { lines := within }
  | .logAndSkip => { lines := within, dropped := beyond }
  | .truncate => { lines := within + beyond, truncated := beyond }
  | .deadLetter => { lines := within, rerouted := beyond }

/-- The limits need not fail the stream on this course: their policy goes on after any line, or no
line has been too long. -/
def Bears (limits : LineLimits) (c : Course) : Prop :=
  limits.overflow = .failStream → c.Within limits.maxSize

variable {limits : LineLimits} {c : Course}

theorem Bears.of_next {request : Splitter.Request} (h : limits.Bears (c.next request)) :
    limits.Bears c :=
  fun hpolicy => (h hpolicy).of_next

theorem Bears.openLine_ne_rejected (h : limits.Bears c) :
    limits.openLine c.openBytes ≠ .rejected := by
  cases hfits : limits.admits c.openBytes with
  | true => simp [openLine, hfits]
  | false =>
      cases hpolicy : limits.overflow with
      | failStream =>
          have hopen := (Course.within_iff.mp (h hpolicy)).2.2
          simp [admits] at hfits
          omega
      | _ => simp [openLine, hfits, hpolicy]

end LineLimits

namespace Splitter

theorem counts_endLine {s : Splitter} {line : Bytes}
    (hcurrent : s.current = s.limits.openLine line) (hgoing : s.hasFailed = false)
    {lines : List Bytes} (hcounts : s.counts = s.limits.countsOf lines) :
    s.endLine.1.counts = s.limits.countsOf (lines ++ [line]) := by
  cases hfits : s.limits.admits line with
  | true =>
      rw [endLine, hcurrent, LineLimits.openLine, if_pos hfits]
      cases hpolicy : s.limits.overflow <;>
        simp [LineLimits.countsOf, hfits, hpolicy, hcounts, List.countP_append, Nat.add_right_comm]
  | false =>
      cases hpolicy : s.limits.overflow with
      | failStream => simp [hasFailed, hcurrent, LineLimits.openLine, hfits, hpolicy] at hgoing
      | _ =>
          simp [endLine, hcurrent, LineLimits.openLine, LineLimits.countsOf, hfits, hpolicy,
            hcounts, Handling.tally, List.countP_append, Nat.add_assoc]

theorem counts_append (s : Splitter) (stretch : Bytes) :
    (s.append stretch).1.counts = s.counts := by
  unfold append outgrow
  split
  · dsimp only
    split
    · rfl
    · split <;> rfl
  · rfl
  · rfl

/-! ## The invariant of a course -/

/-- A splitter with these limits has been taken along this course and has emitted `out`. -/
structure Follows (limits : LineLimits) (c : Course) (s : Splitter) (out : List Signal) :
    Prop where
  limits_eq : s.limits = limits
  current_eq : s.current = limits.openLine c.openBytes
  afterReturn_iff : s.afterReturn = true ↔ c.stream.getLast? = some Bytes.carriageReturn
  ended_eq : s.ended = c.ended.length
  counts_eq : s.counts = limits.countsOf c.ended
  lines_eq : Signal.lines out = LineLimits.numbered limits.line? c.ended
  diagnostics_eq : Signal.diagnostics out = LineLimits.numbered limits.diagnostic? c.ended

namespace Follows

variable {limits : LineLimits} {c : Course} {s : Splitter} {out : List Signal}

theorem start (limits : LineLimits) (hpos : 0 < limits.maxSize) :
    Follows limits {} (Splitter.start limits hpos) [] where
  limits_eq := rfl
  current_eq := (openLine_nil limits).symm
  afterReturn_iff := by simp [Splitter.start]
  ended_eq := rfl
  counts_eq := by
    cases hpolicy : limits.overflow <;>
      simp [Splitter.start, LineLimits.countsOf, Course.ended, hpolicy]
  lines_eq := rfl
  diagnostics_eq := rfl

theorem going (h : Follows limits c s out) (hbears : limits.Bears c) : s.hasFailed = false := by
  have hcurrent := h.current_eq ▸ hbears.openLine_ne_rejected
  rwa [ne_eq, ← hasFailed_eq_true_iff, Bool.not_eq_true] at hcurrent

/-- The end of the open line, where the course goes on with another stretch. -/
theorem endLine (h : Follows limits c s out) (hgoing : s.hasFailed = false) {next : Course}
    (hended : next.ended = c.ended ++ [c.openBytes]) (hopen : next.openBytes = []) {after : Bool}
    (hafter : after = true ↔ next.stream.getLast? = some Bytes.carriageReturn) :
    Follows limits next { s.endLine.1 with afterReturn := after } (out ++ s.endLine.2) := by
  have hcurrent : s.current = s.limits.openLine c.openBytes := h.limits_eq ▸ h.current_eq
  have hcounts : s.counts = s.limits.countsOf c.ended := h.limits_eq ▸ h.counts_eq
  obtain ⟨hlines, hdiagnostics⟩ := signals_endLine hcurrent hgoing
  obtain ⟨hlimits, hnext, hnumber⟩ := endLine_next hgoing
  rw [h.limits_eq, h.ended_eq] at hlines hdiagnostics
  exact {
    limits_eq := hlimits.trans h.limits_eq
    current_eq := by rw [hopen, openLine_nil]; exact hnext
    afterReturn_iff := hafter
    ended_eq := by
      rw [hended, List.length_append, List.length_singleton, ← h.ended_eq]
      exact hnumber
    counts_eq := by
      rw [hended, ← h.limits_eq]
      exact counts_endLine hcurrent hgoing hcounts
    lines_eq := by
      rw [Signal.lines_append, h.lines_eq, hlines, hended, LineLimits.numbered_concat]
    diagnostics_eq := by
      rw [Signal.diagnostics_append, h.diagnostics_eq, hdiagnostics, hended,
        LineLimits.numbered_concat] }

/-- Where no line ends, only the open line and what may follow it change. -/
theorem unended (h : Follows limits c s out) {next : Course} {t : Splitter} {new : List Signal}
    (hended : next.ended = c.ended)
    (hkept : t.limits = s.limits ∧ t.ended = s.ended ∧ t.counts = s.counts)
    (hsilent : Signal.lines new = [] ∧ Signal.diagnostics new = [])
    (hcurrent : t.current = limits.openLine next.openBytes)
    (hafter : t.afterReturn = true ↔ next.stream.getLast? = some Bytes.carriageReturn) :
    Follows limits next t (out ++ new) where
  limits_eq := hkept.1.trans h.limits_eq
  current_eq := hcurrent
  afterReturn_iff := hafter
  ended_eq := by rw [hkept.2.1, hended, h.ended_eq]
  counts_eq := by rw [hkept.2.2, hended, h.counts_eq]
  lines_eq := by rw [Signal.lines_append, hsilent.1, List.append_nil, hended, h.lines_eq]
  diagnostics_eq := by
    rw [Signal.diagnostics_append, hsilent.2, List.append_nil, hended, h.diagnostics_eq]

/-- One more byte keeps the invariant, also if it fails the stream. -/
theorem step (h : Follows limits c s out) (hgoing : s.hasFailed = false) (b : UInt8) :
    Follows limits (c.next (.read [b])) (s.step b).1 (out ++ (s.step b).2) := by
  have hlast : (c.next (.read [b])).stream.getLast? = some b := by simp [Course.next]
  rcases c.next_byte_cases b with
    ⟨hreturn, rfl, hended, hopen⟩ | ⟨hapart, hb, hended, hopen⟩ | ⟨hb, hended, hopen⟩
  · rw [step_of_afterReturn hgoing (h.afterReturn_iff.mpr hreturn)]
    refine h.unended hended ⟨rfl, rfl, rfl⟩ ⟨rfl, rfl⟩ ?_ ?_
    · rw [hopen]
      exact h.current_eq
    · simp [hlast, Bytes.lineFeed_ne_carriageReturn]
  · rw [step_of_isTerminator hgoing hb (by rwa [h.afterReturn_iff])]
    exact h.endLine hgoing hended hopen (by simp [hlast])
  · let t : Splitter := { s with afterReturn := false }
    obtain ⟨hlimits, hnumber, hsilent⟩ := append_quiet t [b]
    have hcurrent := append_byte (s := t) (h.limits_eq ▸ h.current_eq) hgoing b
    have hafter := append_afterReturn (s := t) rfl [b]
    rw [step_of_not_isTerminator hgoing hb]
    refine h.unended hended ⟨hlimits, hnumber, counts_append t [b]⟩ hsilent ?_ ?_
    · rw [hopen, ← h.limits_eq]
      exact hcurrent
    · simp [hafter, hlast, (Bytes.isTerminator_eq_false_iff.mp hb).2, t]

theorem read (h : Follows limits c s out) {chunk : Bytes}
    (hbears : limits.Bears (c.next (.read chunk))) :
    Follows limits (c.next (.read chunk)) (s.read chunk).1 (out ++ (s.read chunk).2) := by
  induction chunk using List.reverseRecOn with
  | nil => simpa [Course.next] using h
  | append_singleton chunk b ih =>
      rw [Course.next_read_append] at hbears ⊢
      have hread := ih hbears.of_next
      have hstep := hread.step (hread.going hbears.of_next) b
      rw [read_append, ← List.append_assoc, read_eq_run _ [b]]
      simpa [Transducer.run_cons] using hstep

theorem close (h : Follows limits c s out) (hgoing : s.hasFailed = false) :
    Follows limits (c.next .close) s.close.1 (out ++ s.close.2) := by
  have hended := c.ended_next_close
  by_cases hnone : c.openBytes = []
  · have hcurrent : s.current = .fitting #[] := by rw [h.current_eq, hnone, openLine_nil]
    have hclose : s.close = ({ s with afterReturn := false }, []) := by
      simp [Splitter.close, hcurrent]
    rw [if_pos hnone, List.append_nil] at hended
    rw [hclose]
    exact h.unended hended ⟨rfl, rfl, rfl⟩ ⟨rfl, rfl⟩
      (hcurrent.trans (openLine_nil limits).symm) (by simp [Course.next])
  · rw [if_neg hnone] at hended
    rw [close_eq_endLine (h.limits_eq ▸ h.current_eq) hgoing hnone, ← endLine_settled hgoing]
    exact h.endLine hgoing hended rfl (by simp [Course.next])

theorem forget (h : Follows limits c s out) (hgoing : s.hasFailed = false) :
    Follows limits (c.next .forget) s.forget (out ++ []) := by
  have hforget : s.forget = { s with current := .fitting #[], afterReturn := false } := by
    unfold Splitter.forget
    split
    · next hrejected => simp [hasFailed, hrejected] at hgoing
    · rfl
  rw [hforget]
  exact h.unended c.ended_next_forget ⟨rfl, rfl, rfl⟩ ⟨rfl, rfl⟩ (openLine_nil limits).symm
    (by simp [Course.next])

/-- One more request keeps the invariant, unless a line fails the stream. -/
theorem respond (h : Follows limits c s out) {request : Request}
    (hbears : limits.Bears (c.next request)) :
    Follows limits (c.next request) (s.respond request).1 (out ++ (s.respond request).2) := by
  have hgoing := h.going hbears.of_next
  cases request with
  | read chunk => exact h.read hbears
  | close => exact h.close hgoing
  | forget => exact h.forget hgoing

/-- Whatever is asked, the invariant holds, unless a line fails the stream. -/
theorem respondAll (hpos : 0 < limits.maxSize) {requests : List Request}
    (hbears : limits.Bears (Course.of requests)) :
    Follows limits (Course.of requests) ((Splitter.start limits hpos).respondAll requests).1
      ((Splitter.start limits hpos).respondAll requests).2 := by
  induction requests using List.reverseRecOn with
  | nil => exact start limits hpos
  | append_singleton requests request ih =>
      rw [Course.of_concat] at hbears ⊢
      rw [respondAll_concat]
      exact (ih hbears.of_next).respond hbears

end Follows

end Splitter

end ServerSentEvents
