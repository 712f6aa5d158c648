import ServerSentEvents.Proofs.Splitter.Accounting

/-!
# Nothing of one line survives the end of its stream

After the end of a stream, or after its open line was forgotten, a splitter is a fresh one but for
the number of lines that have ended and for the counters.  `Splitter.carry` puts these into a
splitter, and every request commutes with it (`Splitter.respond_carry`): the splitter does the same
things, under numbers that are shifted.  So the run after the end is the run of a fresh splitter.
-/

namespace ServerSentEvents

/-- The counters of two streams together. -/
instance : Add LineCounts where
  add a b := ⟨a.lines + b.lines, a.dropped + b.dropped, a.truncated + b.truncated,
    a.rerouted + b.rerouted⟩

theorem LineCounts.add_def (a b : LineCounts) :
    a + b = ⟨a.lines + b.lines, a.dropped + b.dropped, a.truncated + b.truncated,
      a.rerouted + b.rerouted⟩ :=
  rfl

theorem Handling.tally_add (h : Handling) (before counts : LineCounts) :
    h.tally (before + counts) = before + h.tally counts := by
  cases h <;> rfl

/-! ## Shifted numbers -/

def Line.shift (n : Nat) (l : Line) : Line :=
  { l with number := n + l.number }

def Diagnostic.shift (n : Nat) (d : Diagnostic) : Diagnostic :=
  { d with lineNumber := n + d.lineNumber }

/-- The record of a line that was too long names the line by its number. -/
def LogRecord.shift (n : Nat) : LogRecord → LogRecord
  | lineTooLong lineNumber limit => lineTooLong (n + lineNumber) limit
  | record => record

def StreamError.shift (n : Nat) : StreamError → StreamError
  | transport cause => transport cause
  | lineTooLong limit lineNumber => lineTooLong limit (n + lineNumber)

namespace Signal

def shift (n : Nat) : Signal → Signal
  | line l => line (l.shift n)
  | notice (.diagnostic d) => notice (.diagnostic (d.shift n))
  | notice (.record r) => notice (.record (r.shift n))

theorem lines_map_shift (n : Nat) (signals : List Signal) :
    lines (signals.map (shift n)) = (lines signals).map (·.shift n) := by
  induction signals with
  | nil => rfl
  | cons signal rest ih =>
      match signal with
      | .line l => exact congrArg (l.shift n :: ·) ih
      | .notice (.diagnostic _) => exact ih
      | .notice (.record _) => exact ih

theorem diagnostics_map_shift (n : Nat) (signals : List Signal) :
    diagnostics (signals.map (shift n)) = (diagnostics signals).map (·.shift n) := by
  induction signals with
  | nil => rfl
  | cons signal rest ih =>
      match signal with
      | .line _ => exact ih
      | .notice (.diagnostic d) => exact congrArg (d.shift n :: ·) ih
      | .notice (.record _) => exact ih

end Signal

namespace Splitter

/-! ## A splitter that has read other streams before -/

/-- The splitter after `n` other lines, which were counted like this. -/
def carry (n : Nat) (counts : LineCounts) (s : Splitter) : Splitter :=
  { s with ended := n + s.ended, counts := counts + s.counts }

variable (n : Nat) (counts : LineCounts) (s : Splitter)

@[simp] theorem hasFailed_carry : (s.carry n counts).hasFailed = s.hasFailed :=
  rfl

theorem error?_carry : (s.carry n counts).error? = s.error?.map (·.shift n) := by
  rw [error?, error?, hasFailed_carry]
  split
  · simp [StreamError.shift, limit, carry, Nat.add_assoc]
  · rfl

theorem endLine_carry :
    (s.carry n counts).endLine =
      (s.endLine.1.carry n counts, s.endLine.2.map (Signal.shift n)) := by
  cases hcurrent : s.current with
  | rejected => simp [endLine, carry, hcurrent]
  | fitting bytes =>
      simp [endLine, carry, hcurrent, Signal.shift, Line.shift, LineCounts.add_def, Nat.add_assoc]
  | oversized handling length =>
      simp [endLine, carry, hcurrent, Signal.shift, Line.shift, Diagnostic.shift, policy,
        Handling.tally_add, Nat.add_assoc, Function.comp_def]

theorem outgrow_carry (head rest : Bytes) :
    (s.carry n counts).outgrow head rest =
      ((s.outgrow head rest).1.carry n counts, (s.outgrow head rest).2.map (Signal.shift n)) := by
  have hpolicy : (s.carry n counts).policy = s.policy := rfl
  unfold outgrow
  rw [hpolicy]
  cases s.policy.disposition head <;>
    simp [carry, limit, Signal.shift, LogRecord.shift, Nat.add_assoc]

theorem append_carry (stretch : Bytes) :
    (s.carry n counts).append stretch =
      ((s.append stretch).1.carry n counts, (s.append stretch).2.map (Signal.shift n)) := by
  cases hcurrent : s.current with
  | rejected => simp [append, carry, hcurrent]
  | oversized handling length => simp [append, carry, hcurrent]
  | fitting bytes =>
      have hcarried : (s.carry n counts).current = .fitting bytes := hcurrent
      by_cases hfits : stretch.length ≤ s.limit - bytes.size
      · rw [append_of_fits hcurrent hfits, append_of_fits hcarried hfits]
        rfl
      · have hbeyond : s.limit - bytes.size < stretch.length := Nat.lt_of_not_le hfits
        rw [append_of_outgrows hcurrent hbeyond, append_of_outgrows hcarried hbeyond]
        exact s.outgrow_carry n counts _ _

/-- One byte is read as by a splitter that has read no other stream before. -/
theorem step_carry (b : UInt8) :
    (s.carry n counts).step b =
      ((s.step b).1.carry n counts, (s.step b).2.map (Signal.shift n)) := by
  have hafter : (s.carry n counts).afterReturn = s.afterReturn := rfl
  unfold step
  rw [hasFailed_carry, hafter, endLine_carry]
  split
  · rfl
  split
  · split <;> rfl
  split
  · rfl
  · exact append_carry n counts { s with afterReturn := false } [b]

theorem read_carry (chunk : Bytes) :
    (s.carry n counts).read chunk =
      ((s.read chunk).1.carry n counts, (s.read chunk).2.map (Signal.shift n)) := by
  rw [read_eq_run, read_eq_run]
  exact Transducer.run_map (step_carry n counts) s chunk

theorem close_carry :
    (s.carry n counts).close = (s.close.1.carry n counts, s.close.2.map (Signal.shift n)) := by
  have hcurrent : (s.carry n counts).current = s.current := rfl
  unfold close
  rw [hcurrent, endLine_carry]
  split
  · split <;> rfl
  · rfl
  · rfl

theorem forget_carry : (s.carry n counts).forget = s.forget.carry n counts := by
  have hcurrent : (s.carry n counts).current = s.current := rfl
  unfold forget
  rw [hcurrent]
  split <;> rfl

theorem respond_carry (request : Request) :
    (s.carry n counts).respond request =
      ((s.respond request).1.carry n counts, (s.respond request).2.map (Signal.shift n)) := by
  cases request with
  | read chunk => exact s.read_carry n counts chunk
  | close => exact s.close_carry n counts
  | forget => exact Prod.ext (s.forget_carry n counts) rfl

/-- Whatever is asked, other lines before it do no more than shift the numbers. -/
theorem respondAll_carry (requests : List Request) :
    (s.carry n counts).respondAll requests =
      ((s.respondAll requests).1.carry n counts,
        (s.respondAll requests).2.map (Signal.shift n)) :=
  Transducer.run_map (respond_carry n counts) s requests

/-! ## The end of a stream -/

variable {s}

/-- What ends a stream leaves a fresh splitter that has read other lines before. -/
theorem eq_carry_of_fresh {t : Splitter} (hlimits : t.limits = s.limits)
    (hcurrent : t.current = .fitting #[]) (hafter : t.afterReturn = false) :
    t = (start s.limits s.limit_pos).carry t.ended t.counts := by
  obtain ⟨limits, hpos, current, after, ended, counts⟩ := t
  obtain rfl : limits = s.limits := hlimits
  obtain rfl : current = .fitting #[] := hcurrent
  obtain rfl : after = false := hafter
  rfl

/-- The end of a stream leaves a splitter at the start of a line, with nothing read before it. -/
theorem close_fresh (hgoing : s.hasFailed = false) :
    s.close.1.limits = s.limits ∧ s.close.1.current = .fitting #[] ∧
      s.close.1.afterReturn = false := by
  obtain ⟨hlimits, hcurrent, -⟩ := endLine_next hgoing
  obtain ⟨-, hafter⟩ := endLine_start hgoing
  unfold close
  split
  · next bytes hfitting =>
      split
      · next hempty =>
          refine ⟨rfl, ?_, rfl⟩
          rw [hfitting, Array.isEmpty_iff.mp hempty]
      · exact ⟨hlimits, hcurrent, hafter⟩
  · exact ⟨hlimits, hcurrent, hafter⟩
  · next hrejected => simp [hasFailed, hrejected] at hgoing

theorem close_eq_carry (hgoing : s.hasFailed = false) :
    s.close.1 = (start s.limits s.limit_pos).carry s.close.1.ended s.close.1.counts := by
  obtain ⟨hlimits, hcurrent, hafter⟩ := close_fresh hgoing
  exact eq_carry_of_fresh hlimits hcurrent hafter

theorem forget_eq_carry (hgoing : s.hasFailed = false) :
    s.forget = (start s.limits s.limit_pos).carry s.ended s.counts := by
  unfold forget
  split
  · next hrejected => simp [hasFailed, hrejected] at hgoing
  · apply eq_carry_of_fresh <;> rfl

/-- A request that ends a stream leaves a fresh splitter after the lines that have been counted. -/
theorem respond_eq_carry {out : List Signal} (hbooks : Books (start s.limits s.limit_pos) out s)
    (haligned : s.Aligned) (hgoing : s.hasFailed = false) {ending : Request}
    (hending : ending = .close ∨ ending = .forget) :
    let next := (s.respond ending).1
    next = (start s.limits s.limit_pos).carry
      (next.counts.lines + next.counts.dropped + next.counts.rerouted) next.counts := by
  intro next
  have hnext := (hbooks.trans (books_respond haligned ending).1).accounted.ended_eq
  rw [← hnext]
  rcases hending with rfl | rfl
  · exact close_eq_carry hgoing
  · have hforget := s.quiet_forget
    have hcarry := forget_eq_carry hgoing
    rwa [← hforget.ended_eq, ← hforget.counts_eq] at hcarry

/-- After the end of a stream that has not failed, or after its open line was forgotten, a splitter
does what a fresh one does, whatever is asked of either: the numbers of lines go on from the lines
that have been counted, and the counters are added to those before. -/
theorem respondAll_restarted (limits : LineLimits) (hpos : 0 < limits.maxSize)
    {history : List Request}
    (hgoing : ((start limits hpos).respondAll history).1.error? = none) {ending : Request}
    (hending : ending = .close ∨ ending = .forget) (later : List Request) :
    let before := ((start limits hpos).respondAll (history ++ [ending])).1
    let number := before.counts.lines + before.counts.dropped + before.counts.rerouted
    let here := before.respondAll later
    let fresh := (start limits hpos).respondAll later
    Signal.lines here.2 = (Signal.lines fresh.2).map (·.shift number) ∧
      Signal.diagnostics here.2 = (Signal.diagnostics fresh.2).map (·.shift number) ∧
      here.1.error? = fresh.1.error?.map (·.shift number) ∧
      here.1.counts = before.counts + fresh.1.counts ∧
      here.1 = fresh.1.carry number before.counts ∧
      here.2 = fresh.2.map (Signal.shift number) ∧
      ∀ request,
        (here.1.respond request).2 = (fresh.1.respond request).2.map (Signal.shift number) := by
  intro before number here fresh
  obtain ⟨hbooks, haligned⟩ := books_respondAll (aligned_start limits hpos) history
  have hlimits : ((start limits hpos).respondAll history).1.limits = limits := hbooks.limits_eq
  have hbefore : before = (start limits hpos).carry number before.counts := by
    have hnext := respond_eq_carry (s := ((start limits hpos).respondAll history).1)
      (by simpa only [hlimits] using hbooks) haligned (error?_eq_none_iff.mp hgoing) hending
    simpa only [before, number, respondAll_concat, hlimits] using hnext
  have hrun : here = (fresh.1.carry number before.counts, fresh.2.map (Signal.shift number)) := by
    have hcarry := respondAll_carry number before.counts (start limits hpos) later
    rwa [← hbefore] at hcarry
  have hstate : here.1 = fresh.1.carry number before.counts := congrArg Prod.fst hrun
  have hout : here.2 = fresh.2.map (Signal.shift number) := congrArg Prod.snd hrun
  refine ⟨?_, ?_, ?_, ?_, hstate, hout, ?_⟩
  · rw [hout, Signal.lines_map_shift]
  · rw [hout, Signal.diagnostics_map_shift]
  · rw [hstate, error?_carry]
  · rw [hstate]
    rfl
  · intro request
    rw [hstate, respond_carry]

/-- A line feed is not passed over once the carriage return before it belongs to a stream that was
given up, and neither is anything left of the oversized line. -/
theorem respondAll_restarted_of_return :
    let history : List Request := [.read [0x61, 0x62, 0x63, 0x0d]]
    let later : List Request := [.read [0x0a, 0x64, 0x65, 0x66], .close]
    let before := ((start ⟨2, .truncate⟩ Nat.zero_lt_two).respondAll (history ++ [.forget])).1
    Signal.lines (before.respondAll later).2 = [⟨[], 2, false⟩, ⟨[0x64, 0x65], 3, true⟩] ∧
      Signal.diagnostics (before.respondAll later).2 = [⟨.truncate, 3, 3, some [0x64, 0x65]⟩] ∧
      (before.respondAll later).1.counts = ⟨3, 0, 2, 0⟩ := by
  intro history later before
  have hbears (c : Course) : LineLimits.Bears ⟨2, .truncate⟩ c := nofun
  have hfirst : Follows ⟨2, .truncate⟩ (Course.of history) _ _ :=
    Follows.respondAll Nat.zero_lt_two (hbears _)
  have hended : Follows ⟨2, .truncate⟩ (Course.of (history ++ [.forget])) before _ :=
    Follows.respondAll Nat.zero_lt_two (hbears _)
  have hfresh : Follows ⟨2, .truncate⟩ (Course.of later) _ _ :=
    Follows.respondAll Nat.zero_lt_two (hbears _)
  have hcounts : before.counts = ⟨1, 0, 1, 0⟩ := hended.counts_eq.trans (by decide)
  obtain ⟨hlines, hdiagnostics, -, hsum, -⟩ := respondAll_restarted ⟨2, .truncate⟩ Nat.zero_lt_two
    (error?_eq_none_iff.mpr (hfirst.going (hbears _))) (Or.inr rfl) later
  rw [hcounts] at hlines hdiagnostics hsum
  rw [hfresh.lines_eq] at hlines
  rw [hfresh.diagnostics_eq] at hdiagnostics
  rw [hfresh.counts_eq] at hsum
  exact ⟨hlines.trans (by decide), hdiagnostics.trans (by decide), hsum.trans (by decide)⟩

end Splitter

end ServerSentEvents
