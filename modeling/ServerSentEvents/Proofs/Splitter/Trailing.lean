import ServerSentEvents.Proofs.Splitter.Holding
import ServerSentEvents.Proofs.Splitter.Restart

/-!
# The end of a stream ends its last line

A splitter that goes on holds a part of a line exactly if a byte has come since the last line
boundary (`Splitter.Tidy.holdsPart_iff`).  Then the end of the stream does what a terminator would
do, and only a carriage return leaves a memory behind.  In every other state the end of the stream
does nothing but clear that memory, so that a stream ends once.
-/

namespace ServerSentEvents.Splitter

/-- Whether anything is held of an open line: bytes of it, or that it has outgrown the limit. -/
def HoldsPart (s : Splitter) : Prop :=
  s.buffer ≠ [] ∨ s.isOversized = true

instance (s : Splitter) : Decidable s.HoldsPart :=
  inferInstanceAs (Decidable (_ ∨ _))

/-- A part of a line is held whichever way the line is read, also if no byte of it is. -/
theorem Tidy.holdsPart_iff {s : Splitter} {seen : Bytes} (h : s.Tidy seen)
    (hgoing : s.hasFailed = false) : s.HoldsPart ↔ seen ≠ [] := by
  cases hoversized : s.isOversized with
  | false => rw [HoldsPart, hoversized, h.fitting hgoing hoversized, or_iff_left (by decide)]
  | true =>
      have hsome : seen ≠ [] := by
        cases hcurrent : s.current with
        | fitting bytes => simp [isOversized, hcurrent] at hoversized
        | rejected => simp [isOversized, hcurrent] at hoversized
        | oversized handling length =>
            obtain ⟨hbeyond, hlength⟩ := h.oversized hcurrent
            rintro rfl
            rw [hlength] at hbeyond
            exact absurd hbeyond (Nat.not_lt_zero _)
      exact iff_of_true (Or.inr hoversized) hsome

theorem Tidy.not_holdsPart_of_hasFailed {s : Splitter} {seen : Bytes} (h : s.Tidy seen)
    (hfailed : s.hasFailed = true) : ¬s.HoldsPart := by
  obtain ⟨hbuffer, hoversized, -⟩ := h.failed hfailed
  simp [HoldsPart, hbuffer, hoversized]

/-- A splitter that waits for a line feed holds no part of a line. -/
theorem Tidy.afterReturn_eq_false {s : Splitter} {seen : Bytes} (h : s.Tidy seen)
    (hpart : s.HoldsPart) : s.afterReturn = false := by
  by_contra hafter
  obtain ⟨hbuffer, hoversized⟩ := h.fresh (by simpa using hafter)
  simp [HoldsPart, hbuffer, hoversized] at hpart

/-- A terminator ends the open line, and a carriage return alone is remembered. -/
theorem read_terminator {s : Splitter} (hgoing : s.hasFailed = false)
    (hafter : s.afterReturn = false) (t : Terminator) :
    s.read t.bytes =
      ({ s.endLine.1 with afterReturn := decide (t = .carriageReturn) }, s.endLine.2) := by
  rw [read_eq_run]
  cases t with
  | lineFeed =>
      rw [Terminator.bytes, run_step_terminator hgoing hafter (by decide)]
      simp [passTerminator, Bytes.lineFeed_ne_carriageReturn]
  | carriageReturn =>
      rw [Terminator.bytes, run_step_terminator hgoing hafter (by decide)]
      simp [passTerminator, passFeed]
  | returnAndFeed =>
      rw [Terminator.bytes, run_step_terminator hgoing hafter (by decide)]
      simp [passTerminator, passFeed]

/-- Where no part of a line is held, the end of the stream does next to nothing. -/
theorem close_of_not_holdsPart {s : Splitter} (hnone : ¬s.HoldsPart) :
    s.close = ({ s with afterReturn := false }, []) := by
  rw [HoldsPart, not_or, not_not] at hnone
  cases hcurrent : s.current with
  | fitting bytes =>
      have hempty : bytes = #[] := by simpa [buffer, hcurrent] using hnone.1
      simp [close, hcurrent, hempty]
  | oversized handling length => simp [isOversized, hcurrent] at hnone
  | rejected => simp [close, hcurrent]

/-- A stream ends once. -/
theorem close_close (s : Splitter) : s.close.1.close = (s.close.1, []) := by
  have hnone : ¬s.close.1.HoldsPart ∧ s.close.1.afterReturn = false := by
    cases hfailed : s.hasFailed with
    | false =>
        obtain ⟨-, hcurrent, hafter⟩ := close_fresh hfailed
        exact ⟨by simp [HoldsPart, buffer, isOversized, hcurrent], hafter⟩
    | true =>
        have hcurrent := hasFailed_eq_true_iff.mp hfailed
        simp [close, HoldsPart, buffer, isOversized, hcurrent]
  rw [close_of_not_holdsPart hnone.1, ← hnone.2]

/-- In a state that is reached by any requests and holds a part of a line, the end of the stream
resolves this line as a line feed would: it hands out and reports what the limits leave of the bytes
since the last line boundary, and leaves the same state.  Another terminator does the same, but for
the memory of a carriage return.  In every other state the end of the stream hands out and reports
nothing and clears that memory, and so does a second end after the first. -/
theorem respondAll_trailing (limits : LineLimits) (hpos : 0 < limits.maxSize)
    (requests : List Request) :
    let s := ((start limits hpos).respondAll requests).1
    let line := (Course.of requests).openBytes
    (s.hasFailed = false → (s.HoldsPart ↔ line ≠ [])) ∧
    (s.hasFailed = false → s.HoldsPart →
      s.close = s.read Terminator.lineFeed.bytes ∧
      (∀ t : Terminator, s.read t.bytes =
        ({ s.close.1 with afterReturn := decide (t = .carriageReturn) }, s.close.2)) ∧
      s.close.1.hasFailed = false ∧ s.close.1.afterReturn = false ∧
      Signal.lines s.close.2 = (limits.line? (s.ended + 1) line).toList ∧
      Signal.diagnostics s.close.2 = (limits.diagnostic? (s.ended + 1) line).toList) ∧
    (s.hasFailed = true ∨ ¬s.HoldsPart → s.close = ({ s with afterReturn := false }, [])) ∧
    s.close.1.close = (s.close.1, []) := by
  intro s line
  have htidy : s.Tidy line := tidy_respondAll limits hpos requests
  refine ⟨htidy.holdsPart_iff, ?_, ?_, close_close s⟩
  · intro hgoing hpart
    have hfollows : Follows limits (Course.of requests) s _ := follows_of_going hpos hgoing
    have hcurrent : s.current = s.limits.openLine line :=
      hfollows.limits_eq ▸ hfollows.current_eq
    have hclose : s.close = s.endLine :=
      close_eq_endLine hcurrent hgoing ((htidy.holdsPart_iff hgoing).mp hpart)
    have hread := read_terminator hgoing (htidy.afterReturn_eq_false hpart)
    obtain ⟨hnext, hafter⟩ := endLine_start hgoing
    obtain ⟨hlines, hdiagnostics⟩ := signals_endLine hcurrent hgoing
    rw [hfollows.limits_eq] at hlines hdiagnostics
    rw [hclose]
    refine ⟨?_, hread, hnext, hafter, hlines, hdiagnostics⟩
    rw [hread]
    exact Prod.ext (endLine_settled hgoing).symm rfl
  · rintro (hfailed | hnone)
    · exact close_of_not_holdsPart (htidy.not_holdsPart_of_hasFailed hfailed)
    · exact close_of_not_holdsPart hnone

/-- The line feed of a carriage return has been read before the line that is captured whole, of
which the splitter holds no byte in its buffer. -/
theorem respondAll_trailing_of_captured :
    let s := ((start ⟨2, .deadLetter⟩ Nat.zero_lt_two).respondAll
      [.read [0x61, 0x0d], .read [0x0a, 0x62, 0x63], .read [0x64]]).1
    s.buffer = [] ∧ s.HoldsPart ∧ s.close = s.read [Bytes.lineFeed] ∧
      Signal.lines s.close.2 = [] ∧
      Signal.diagnostics s.close.2 = [⟨.deadLetter, 2, 3, some [0x62, 0x63, 0x64]⟩] ∧
      s.close.1.close = (s.close.1, []) := by
  intro s
  have hfollows : Follows ⟨2, .deadLetter⟩ (Course.of
      [.read [0x61, 0x0d], .read [0x0a, 0x62, 0x63], .read [0x64]]) s _ :=
    Follows.respondAll Nat.zero_lt_two nofun
  have hgoing : s.hasFailed = false := hfollows.going nofun
  obtain ⟨hiff, hheld, -, hagain⟩ := respondAll_trailing ⟨2, .deadLetter⟩ Nat.zero_lt_two
    [.read [0x61, 0x0d], .read [0x0a, 0x62, 0x63], .read [0x64]]
  have hpart := (hiff hgoing).mpr (by decide)
  obtain ⟨hclose, -, -, -, hlines, hdiagnostics⟩ := hheld hgoing hpart
  have hended : s.ended = 1 := hfollows.ended_eq.trans (by decide)
  have hbuffer : s.buffer = [] := by
    rw [buffer, hfollows.current_eq]
    decide
  rw [hended] at hlines hdiagnostics
  exact ⟨hbuffer, hpart, hclose, hlines.trans (by decide), hdiagnostics.trans (by decide), hagain⟩

end ServerSentEvents.Splitter
