import ServerSentEvents.Proofs.Splitter.Requests

/-!
# Every line is accounted for once

A line that ends is handed out, whole or cut short, or a diagnostic stands in its place.
`Splitter.Books` says of two states and of what was emitted between them that the counters and the
number of ended lines have moved by just that.  The end of a line keeps the books
(`Splitter.Books.endLine`), and everything else that a splitter does leaves them alone
(`Splitter.Quiet`), so they are kept from one request to the next, a failure of the stream included.
-/

namespace ServerSentEvents

attribute [ext] LineCounts

/-- The counter of the oversized lines that a policy has dealt with. -/
def LineCounts.under (counts : LineCounts) : OverflowPolicy → Nat
  | .failStream => 0
  | .logAndSkip => counts.dropped
  | .truncate => counts.truncated
  | .deadLetter => counts.rerouted

/-- The policy that reads the rest of an oversized line in this way. -/
def Handling.policy : Handling → OverflowPolicy
  | skip => .logAndSkip
  | truncate _ => .truncate
  | capture _ => .deadLetter

@[simp] theorem Handling.policy_absorb (h : Handling) (more : Bytes) :
    (h.absorb more).policy = h.policy := by
  cases h <;> rfl

/-- Whether the rest of a line that has outgrown the limit is read as the policy has it. -/
def OpenLine.IsReadBy (policy : OverflowPolicy) : OpenLine → Prop
  | oversized handling _ => handling.policy = policy
  | _ => True

theorem Handling.lines_tally (h : Handling) (counts : LineCounts) :
    (h.tally counts).lines = counts.lines + h.line?.toList.length := by
  cases h <;> rfl

theorem Handling.under_tally (h : Handling) (counts : LineCounts) (policy : OverflowPolicy) :
    (h.tally counts).under policy =
      counts.under policy + if h.policy == policy then 1 else 0 := by
  cases h <;> cases policy <;> rfl

/-- Whether a diagnostic stands in the place of its line, of which nothing is handed out. -/
def Diagnostic.standsAlone (d : Diagnostic) : Bool :=
  d.policy == .logAndSkip || d.policy == .deadLetter

theorem Diagnostic.standsAlone_iff {d : Diagnostic} :
    d.standsAlone = true ↔ d.policy ≠ .failStream ∧ d.policy ≠ .truncate := by
  cases hpolicy : d.policy <;> simp [standsAlone, hpolicy]

theorem Diagnostic.countP_standsAlone (diagnostics : List Diagnostic) :
    diagnostics.countP (·.standsAlone) =
      diagnostics.countP (·.policy == .logAndSkip) +
        diagnostics.countP (·.policy == .deadLetter) := by
  induction diagnostics with
  | nil => rfl
  | cons d others ih =>
      simp only [List.countP_cons, ih]
      cases hpolicy : d.policy <;> simp [standsAlone, hpolicy] <;> omega

/-- Every diagnostic is due to a policy that goes on after an oversized line. -/
theorem Diagnostic.countP_policies {diagnostics : List Diagnostic}
    (hgoes : ∀ d ∈ diagnostics, d.policy ≠ .failStream) :
    diagnostics.countP (·.policy == .logAndSkip) + diagnostics.countP (·.policy == .truncate) +
        diagnostics.countP (·.policy == .deadLetter) =
      diagnostics.length := by
  induction diagnostics with
  | nil => rfl
  | cons d others ih =>
      obtain ⟨hd, hothers⟩ := List.forall_mem_cons.mp hgoes
      have hrest := ih hothers
      simp only [List.countP_cons, List.length_cons]
      cases hpolicy : d.policy with
      | failStream => exact absurd hpolicy hd
      | logAndSkip => simp; omega
      | truncate => simp; omega
      | deadLetter => simp; omega

namespace Signal

/-! ## The numbers of lines -/

/-- The number of the line that is settled with a signal. -/
def settled? : Signal → Option Nat
  | line l => some l.number
  | notice (.diagnostic d) => if d.standsAlone then some d.lineNumber else none
  | notice (.record _) => none

/-- The numbers of the lines that are handed out or have a diagnostic in their place, in order. -/
def settled (signals : List Signal) : List Nat :=
  signals.filterMap settled?

@[simp] theorem settled_nil : settled [] = [] := rfl

@[simp] theorem settled_append (a b : List Signal) : settled (a ++ b) = settled a ++ settled b :=
  List.filterMap_append

@[simp] theorem settled_cons_line (l : Line) (rest : List Signal) :
    settled (.line l :: rest) = l.number :: settled rest := rfl

@[simp] theorem settled_cons_record (r : LogRecord) (rest : List Signal) :
    settled (.notice (.record r) :: rest) = settled rest := rfl

theorem settled_cons_diagnostic (d : Diagnostic) (rest : List Signal) :
    settled (.notice (.diagnostic d) :: rest) =
      if d.standsAlone then d.lineNumber :: settled rest else settled rest := by
  cases halone : d.standsAlone <;> simp [settled, settled?, halone]

/-- A line is settled by being handed out or by a diagnostic in its place. -/
theorem settled_perm (signals : List Signal) :
    ((lines signals).map (·.number) ++
      ((diagnostics signals).filter (·.standsAlone)).map (·.lineNumber)).Perm
        (settled signals) := by
  induction signals with
  | nil => simp
  | cons signal rest ih =>
      cases signal with
      | line l => simpa using ih
      | notice n =>
          cases n with
          | record r => simpa using ih
          | diagnostic d =>
              rw [settled_cons_diagnostic, diagnostics_cons_diagnostic, List.filter_cons]
              cases d.standsAlone with
              | false => simpa using ih
              | true => simpa using List.perm_middle.trans (ih.cons d.lineNumber)

theorem numbers_lines_sublist (signals : List Signal) :
    ((lines signals).map (·.number)).Sublist (settled signals) := by
  induction signals with
  | nil => simp
  | cons signal rest ih =>
      cases signal with
      | line l => simpa using ih
      | notice n =>
          cases n with
          | record r => simpa using ih
          | diagnostic d =>
              rw [settled_cons_diagnostic, lines_cons_notice]
              split
              · exact ih.cons d.lineNumber
              · exact ih

theorem numbers_diagnostics_sublist (signals : List Signal) :
    (((diagnostics signals).filter (·.standsAlone)).map (·.lineNumber)).Sublist
      (settled signals) := by
  induction signals with
  | nil => simp
  | cons signal rest ih =>
      cases signal with
      | line l => exact ih.cons l.number
      | notice n =>
          cases n with
          | record r => simpa using ih
          | diagnostic d =>
              rw [settled_cons_diagnostic, diagnostics_cons_diagnostic, List.filter_cons]
              split
              · exact ih.cons_cons d.lineNumber
              · exact ih

/-- Where nothing is handed out or reported, no line is settled. -/
theorem settled_of_silent {signals : List Signal} (hlines : lines signals = [])
    (hdiagnostics : diagnostics signals = []) : settled signals = [] := by
  have hperm := settled_perm signals
  rw [hlines, hdiagnostics] at hperm
  exact hperm.nil_eq.symm

end Signal

namespace Splitter

/-! ## The books -/

/-- The open line is read as the policy has it. -/
def Aligned (s : Splitter) : Prop :=
  s.current.IsReadBy s.policy

theorem aligned_start (limits : LineLimits) (hpos : 0 < limits.maxSize) :
    (start limits hpos).Aligned :=
  trivial

/-- Nothing that is counted has happened between two states. -/
structure Quiet (s : Splitter) (out : List Signal) (t : Splitter) : Prop where
  limits_eq : t.limits = s.limits
  ended_eq : t.ended = s.ended
  counts_eq : t.counts = s.counts
  lines_eq : Signal.lines out = []
  diagnostics_eq : Signal.diagnostics out = []

/-- Between two states, the counters and the number of ended lines have moved by what was
emitted. -/
structure Books (s : Splitter) (out : List Signal) (t : Splitter) : Prop where
  limits_eq : t.limits = s.limits
  /-- The lines settled have the numbers after those before them. -/
  settled_eq : Signal.settled out = List.range' (s.ended + 1) (Signal.settled out).length
  ended_eq : t.ended = s.ended + (Signal.settled out).length
  lines_eq : t.counts.lines = s.counts.lines + (Signal.lines out).length
  under_eq : ∀ policy, t.counts.under policy =
    s.counts.under policy + (Signal.diagnostics out).countP (·.policy == policy)
  policy_eq : ∀ d ∈ Signal.diagnostics out, d.policy = s.policy
  /-- A truncated line has a diagnostic with the same number and the same bytes. -/
  heads_eq : ((Signal.lines out).filter (·.truncated)).map (fun l => (l.number, some l.bytes)) =
    ((Signal.diagnostics out).filter (·.policy == .truncate)).map fun d => (d.lineNumber, d.bytes)

theorem Quiet.books {s t : Splitter} {out : List Signal} (h : Quiet s out t) : Books s out t where
  limits_eq := h.limits_eq
  settled_eq := by simp [Signal.settled_of_silent h.lines_eq h.diagnostics_eq]
  ended_eq := by simp [Signal.settled_of_silent h.lines_eq h.diagnostics_eq, h.ended_eq]
  lines_eq := by simp [h.lines_eq, h.counts_eq]
  under_eq := by simp [h.diagnostics_eq, h.counts_eq]
  policy_eq := by simp [h.diagnostics_eq]
  heads_eq := by simp [h.lines_eq, h.diagnostics_eq]

namespace Books

theorem refl (s : Splitter) : Books s [] s :=
  Quiet.books ⟨rfl, rfl, rfl, rfl, rfl⟩

theorem trans {s t u : Splitter} {first second : List Signal} (h : Books s first t)
    (hnext : Books t second u) : Books s (first ++ second) u where
  limits_eq := hnext.limits_eq.trans h.limits_eq
  settled_eq := by
    have hfirst := h.settled_eq
    have hsecond := hnext.settled_eq
    rw [h.ended_eq, Nat.add_right_comm] at hsecond
    rw [Signal.settled_append, List.length_append, ← List.range'_append_1, ← hfirst, ← hsecond]
  ended_eq := by
    rw [hnext.ended_eq, h.ended_eq, Signal.settled_append, List.length_append, Nat.add_assoc]
  lines_eq := by
    rw [hnext.lines_eq, h.lines_eq, Signal.lines_append, List.length_append, Nat.add_assoc]
  under_eq := by
    intro policy
    rw [hnext.under_eq, h.under_eq, Signal.diagnostics_append, List.countP_append, Nat.add_assoc]
  policy_eq := by
    have hpolicy : t.policy = s.policy := congrArg LineLimits.overflow h.limits_eq
    intro d hd
    rcases List.mem_append.mp (Signal.diagnostics_append _ _ ▸ hd) with hfirst | hsecond
    · exact h.policy_eq d hfirst
    · exact (hnext.policy_eq d hsecond).trans hpolicy
  heads_eq := by
    simp only [Signal.lines_append, Signal.diagnostics_append, List.filter_append,
      List.map_append, h.heads_eq, hnext.heads_eq]

/-- The end of a line settles it and counts it once. -/
theorem endLine {s : Splitter} (haligned : s.Aligned) : Books s s.endLine.2 s.endLine.1 := by
  cases hcurrent : s.current with
  | rejected =>
      have hnone : s.endLine = (s, []) := by simp [Splitter.endLine, hcurrent]
      rw [hnone]
      exact refl s
  | fitting bytes =>
      constructor <;> simp [Splitter.endLine, hcurrent, LineCounts.under]
  | oversized handling length =>
      have hpolicy : handling.policy = s.policy := by
        simpa [Aligned, OpenLine.IsReadBy, hcurrent] using haligned
      -- What is emitted has one shape for each handling, and each shape settles the line once.
      cases handling <;> constructor <;>
        simp [Splitter.endLine, hcurrent, ← hpolicy, Handling.policy, Handling.under_tally,
          Handling.lines_tally, Handling.line?, Handling.captured?,
          Signal.settled_cons_diagnostic, Diagnostic.standsAlone]

end Books

/-! ## Keeping the books -/

theorem quiet_append (s : Splitter) (stretch : Bytes) :
    Quiet s (s.append stretch).2 (s.append stretch).1 := by
  obtain ⟨hlimits, hended, hlines, hdiagnostics⟩ := s.append_quiet stretch
  exact ⟨hlimits, hended, s.counts_append stretch, hlines, hdiagnostics⟩

theorem quiet_forget (s : Splitter) : Quiet s [] s.forget := by
  unfold forget
  split <;> exact ⟨rfl, rfl, rfl, rfl, rfl⟩

theorem aligned_endLine (s : Splitter) : s.endLine.1.Aligned := by
  cases hcurrent : s.current <;> simp [Aligned, endLine, hcurrent, OpenLine.IsReadBy]

/-- The policy's disposition of a line says how its rest is read. -/
theorem aligned_outgrow (s : Splitter) (head rest : Bytes) : (s.outgrow head rest).1.Aligned := by
  cases hpolicy : s.limits.overflow <;>
    simp [Aligned, outgrow, policy, hpolicy, OverflowPolicy.disposition, OpenLine.IsReadBy,
      Handling.absorb, Handling.policy]

theorem aligned_append {s : Splitter} (haligned : s.Aligned) (stretch : Bytes) :
    (s.append stretch).1.Aligned := by
  cases hcurrent : s.current with
  | fitting bytes =>
      by_cases hfits : stretch.length ≤ s.limit - bytes.size
      · simp [append_of_fits hcurrent hfits, Aligned, OpenLine.IsReadBy]
      · rw [append_of_outgrows hcurrent (Nat.not_le.mp hfits)]
        exact s.aligned_outgrow _ _
  | oversized handling length =>
      simpa [Aligned, append, hcurrent, OpenLine.IsReadBy, policy] using haligned
  | rejected =>
      rw [append_of_hasFailed (hasFailed_eq_true_iff.mpr hcurrent)]
      exact haligned

/-- One byte keeps the books. -/
theorem books_step {s : Splitter} (haligned : s.Aligned) (b : UInt8) :
    Books s (s.step b).2 (s.step b).1 ∧ (s.step b).1.Aligned := by
  cases hfailed : s.hasFailed with
  | true =>
      rw [step_of_hasFailed hfailed]
      exact ⟨Books.refl s, haligned⟩
  | false =>
      cases hb : Bytes.isTerminator b with
      | false =>
          let t : Splitter := { s with afterReturn := false }
          have hstart : Quiet s [] t := ⟨rfl, rfl, rfl, rfl, rfl⟩
          rw [step_of_not_isTerminator hfailed hb]
          exact ⟨hstart.books.trans (t.quiet_append [b]).books,
            aligned_append (s := t) haligned [b]⟩
      | true =>
          by_cases hpair : s.afterReturn = true ∧ b = Bytes.lineFeed
          · obtain ⟨hafter, rfl⟩ := hpair
            rw [step_of_afterReturn hfailed hafter]
            exact ⟨Quiet.books ⟨rfl, rfl, rfl, rfl, rfl⟩, haligned⟩
          · rw [step_of_isTerminator hfailed hb hpair]
            have hended := Books.endLine haligned
            exact ⟨⟨hended.limits_eq, hended.settled_eq, hended.ended_eq, hended.lines_eq,
              hended.under_eq, hended.policy_eq, hended.heads_eq⟩, s.aligned_endLine⟩

theorem books_read {s : Splitter} (haligned : s.Aligned) (chunk : Bytes) :
    Books s (s.read chunk).2 (s.read chunk).1 ∧ (s.read chunk).1.Aligned := by
  rw [read_eq_run]
  induction chunk generalizing s with
  | nil => exact ⟨Books.refl s, haligned⟩
  | cons b rest ih =>
      obtain ⟨hfirst, hnext⟩ := books_step haligned b
      obtain ⟨hothers, hlast⟩ := ih hnext
      rw [Transducer.run_cons]
      exact ⟨hfirst.trans hothers, hlast⟩

theorem books_close {s : Splitter} (haligned : s.Aligned) :
    Books s s.close.2 s.close.1 ∧ s.close.1.Aligned := by
  unfold close
  split
  · split
    · exact ⟨Quiet.books ⟨rfl, rfl, rfl, rfl, rfl⟩, haligned⟩
    · exact ⟨Books.endLine haligned, s.aligned_endLine⟩
  · exact ⟨Books.endLine haligned, s.aligned_endLine⟩
  · exact ⟨Quiet.books ⟨rfl, rfl, rfl, rfl, rfl⟩, haligned⟩

theorem aligned_forget {s : Splitter} (haligned : s.Aligned) : s.forget.Aligned := by
  unfold forget
  split
  · exact haligned
  · trivial

/-- One request keeps the books. -/
theorem books_respond {s : Splitter} (haligned : s.Aligned) (request : Request) :
    Books s (s.respond request).2 (s.respond request).1 ∧ (s.respond request).1.Aligned := by
  cases request with
  | read chunk => exact books_read haligned chunk
  | close => exact books_close haligned
  | forget => exact ⟨s.quiet_forget.books, aligned_forget haligned⟩

/-- Whatever is asked, the books are kept. -/
theorem books_respondAll {s : Splitter} (haligned : s.Aligned) (requests : List Request) :
    Books s (s.respondAll requests).2 (s.respondAll requests).1 ∧
      (s.respondAll requests).1.Aligned := by
  induction requests generalizing s with
  | nil => exact ⟨Books.refl s, haligned⟩
  | cons request requests ih =>
      obtain ⟨hfirst, hnext⟩ := books_respond haligned request
      obtain ⟨hothers, hlast⟩ := ih hnext
      rw [respondAll_cons]
      exact ⟨hfirst.trans hothers, hlast⟩

/-! ## What the books say -/

namespace Books

variable {s t : Splitter} {out : List Signal}

/-- The first line that is settled has the next number. -/
theorem head?_settled (h : Books s out t) :
    ∀ number ∈ (Signal.settled out).head?, number = s.ended + 1 := by
  intro number hnumber
  rw [h.settled_eq] at hnumber
  cases hlength : (Signal.settled out).length with
  | zero => simp [hlength] at hnumber
  | succ n => simpa [hlength, List.range'_succ, eq_comm] using hnumber

theorem policy_ne_failStream (h : Books s out t) :
    ∀ d ∈ Signal.diagnostics out, d.policy ≠ .failStream := by
  have hnone := h.under_eq .failStream
  simp only [LineCounts.under, Nat.zero_add] at hnone
  intro d hd
  simpa using List.countP_eq_zero.mp hnone.symm d hd

theorem numbers_increase (h : Books s out t) : (Signal.settled out).Pairwise (· < ·) := by
  rw [h.settled_eq]
  exact List.pairwise_lt_range'

/-- A diagnostic stands in the place of its line, or it goes with a truncated one. -/
theorem diagnostics_increase (h : Books s out t) :
    ((Signal.diagnostics out).map (·.lineNumber)).Pairwise (· < ·) := by
  by_cases hpolicy : s.policy = .truncate
  · have hall : (Signal.diagnostics out).filter (·.policy == .truncate) =
        Signal.diagnostics out := by
      refine List.filter_eq_self.mpr fun d hd => ?_
      simp [h.policy_eq d hd, hpolicy]
    have hnumbers := congrArg (List.map Prod.fst) h.heads_eq
    rw [hall, List.map_map, List.map_map] at hnumbers
    have hlines : (((Signal.lines out).filter (·.truncated)).map (·.number)).Sublist
        (Signal.settled out) :=
      (List.filter_sublist.map _).trans (Signal.numbers_lines_sublist out)
    exact h.numbers_increase.sublist (hnumbers ▸ hlines)
  · have hall : (Signal.diagnostics out).filter (·.standsAlone) = Signal.diagnostics out := by
      refine List.filter_eq_self.mpr fun d hd => ?_
      exact Diagnostic.standsAlone_iff.mpr
        ⟨h.policy_ne_failStream d hd, h.policy_eq d hd ▸ hpolicy⟩
    have halone := Signal.numbers_diagnostics_sublist out
    rw [hall] at halone
    exact h.numbers_increase.sublist halone

end Books

/-! ## The whole account -/

/-- The account of a stream that was read under a policy. -/
structure Accounted (policy : OverflowPolicy) (s : Splitter) (out : List Signal) : Prop where
  lines_eq : s.counts.lines = (Signal.lines out).length
  oversized_eq : s.counts.oversized = (Signal.diagnostics out).length
  /-- Only the policy's own counter counts. -/
  under_eq : ∀ other, other ≠ policy → s.counts.under other = 0
  ended_eq : s.ended = s.counts.lines + s.counts.dropped + s.counts.rerouted
  /-- Every line that has ended is handed out or has a diagnostic in its place, and only once. -/
  numbers_perm :
    ((Signal.lines out).map (·.number) ++
      ((Signal.diagnostics out).filter (·.standsAlone)).map (·.lineNumber)).Perm
        (List.range' 1 s.ended)
  lines_increase : ((Signal.lines out).map (·.number)).Pairwise (· < ·)
  diagnostics_increase : ((Signal.diagnostics out).map (·.lineNumber)).Pairwise (· < ·)
  heads_eq : ((Signal.lines out).filter (·.truncated)).map (fun l => (l.number, some l.bytes)) =
    ((Signal.diagnostics out).filter (·.policy == .truncate)).map fun d => (d.lineNumber, d.bytes)

/-- Books that begin with a stream are the account of the stream. -/
theorem Books.accounted {limits : LineLimits} {hpos : 0 < limits.maxSize} {s : Splitter}
    {out : List Signal} (h : Books (start limits hpos) out s) :
    Accounted limits.overflow s out where
  lines_eq := by simpa [start] using h.lines_eq
  oversized_eq := by
    have hdropped := h.under_eq .logAndSkip
    have htruncated := h.under_eq .truncate
    have hrerouted := h.under_eq .deadLetter
    have hall := Diagnostic.countP_policies h.policy_ne_failStream
    simp only [LineCounts.under, start, Nat.zero_add] at hdropped htruncated hrerouted
    rw [LineCounts.oversized, hdropped, htruncated, hrerouted, hall]
  under_eq := by
    intro other hother
    have hnone : (Signal.diagnostics out).countP (·.policy == other) = 0 := by
      refine List.countP_eq_zero.mpr fun d hd => ?_
      have hpolicy : d.policy = limits.overflow := h.policy_eq d hd
      simpa [hpolicy] using hother.symm
    rw [h.under_eq, hnone]
    cases other <;> rfl
  ended_eq := by
    have hdropped := h.under_eq .logAndSkip
    have hrerouted := h.under_eq .deadLetter
    have hsettled := (Signal.settled_perm out).length_eq
    have halone := Diagnostic.countP_standsAlone (Signal.diagnostics out)
    have hlines := h.lines_eq
    have hended := h.ended_eq
    rw [List.length_append, List.length_map, List.length_map, ← List.countP_eq_length_filter,
      halone] at hsettled
    simp only [LineCounts.under, start, Nat.zero_add] at hdropped hrerouted hlines hended
    omega
  numbers_perm := by
    have hended : s.ended = (Signal.settled out).length := by simpa [start] using h.ended_eq
    have hsettled : Signal.settled out = List.range' 1 s.ended := by
      rw [hended]
      exact h.settled_eq
    exact hsettled ▸ Signal.settled_perm out
  lines_increase := h.numbers_increase.sublist (Signal.numbers_lines_sublist out)
  diagnostics_increase := h.diagnostics_increase
  heads_eq := h.heads_eq

/-- Whatever is asked of a splitter, the counters, the numbers and the diagnostics account for every
line once.  Forgetting the open line changes no counter; the line that is settled next has the
number that the open line would have had. -/
theorem respondAll_accounted (limits : LineLimits) (hpos : 0 < limits.maxSize)
    (requests : List Request) :
    let ran := (start limits hpos).respondAll requests
    Accounted limits.overflow ran.1 ran.2 ∧
      ran.1.forget.counts = ran.1.counts ∧ ran.1.forget.ended = ran.1.ended ∧
      ∀ later,
        (∀ number ∈ (Signal.settled (ran.1.respondAll later).2).head?, number = ran.1.ended + 1) ∧
        ∀ number ∈ (Signal.settled (ran.1.forget.respondAll later).2).head?,
          number = ran.1.ended + 1 := by
  intro ran
  obtain ⟨hbooks, haligned⟩ := books_respondAll (aligned_start limits hpos) requests
  have hforget := ran.1.quiet_forget
  refine ⟨hbooks.accounted, hforget.counts_eq, hforget.ended_eq, fun later => ⟨?_, ?_⟩⟩
  · exact (books_respondAll haligned later).1.head?_settled
  · rw [← hforget.ended_eq]
    exact (books_respondAll (aligned_forget haligned) later).1.head?_settled

/-- An oversized line that is forgotten is neither reported nor counted, and leaves its number to
the line after it. -/
theorem respondAll_accounted_of_forget :
    let requests : List Request := [.read [0x61, 0x62, 0x63, 0x0d], .read [0x0a, 0x64, 0x65, 0x66]]
    let ran := (start ⟨2, .truncate⟩ Nat.zero_lt_two).respondAll requests
    Accounted .truncate ran.1 ran.2 ∧ ran.1.counts = ⟨1, 0, 1, 0⟩ ∧
      ran.1.forget.counts = ⟨1, 0, 1, 0⟩ ∧
      ∀ later, ∀ number ∈ (Signal.settled (ran.1.forget.respondAll later).2).head?, number = 2 := by
  intro requests ran
  obtain ⟨haccounted, hcounts, -, hnext⟩ :=
    respondAll_accounted ⟨2, .truncate⟩ Nat.zero_lt_two requests
  have hfollows : Follows ⟨2, .truncate⟩ (Course.of requests) ran.1 ran.2 :=
    Follows.respondAll Nat.zero_lt_two (by rintro ⟨⟩)
  have hnow : ran.1.counts = ⟨1, 0, 1, 0⟩ := hfollows.counts_eq.trans (by decide)
  have hended : ran.1.ended = 1 := hfollows.ended_eq.trans (by decide)
  refine ⟨haccounted, hnow, hcounts.trans hnow, fun later number hnumber => ?_⟩
  rw [(hnext later).2 number hnumber, hended]

end Splitter

end ServerSentEvents
