import Mathlib.Data.List.TakeWhile
import ServerSentEvents.Proofs.Terminators
import ServerSentEvents.Splitter

/-!
# Reading byte by byte

The splitter reads the stretches of a chunk between its terminators, looks ahead for the line feed
of a carriage return inside the chunk, and remembers a carriage return at the chunk's end.
`Splitter.step` reads the same stream one byte at a time and never looks ahead.  The main statement
is `Splitter.read_eq_run`: the two readings agree in every state, so the places where a stream is
cut into chunks leave no trace (`Splitter.read_append`).
-/

namespace ServerSentEvents

namespace Handling

@[simp] theorem absorb_nil (h : Handling) : h.absorb [] = h := by
  cases h <;> simp [absorb]

theorem absorb_append (h : Handling) (a b : Bytes) :
    h.absorb (a ++ b) = (h.absorb a).absorb b := by
  cases h <;> simp [absorb]

end Handling

namespace Splitter

/-! ## Stretches without a terminator -/

@[simp] theorem append_nil (s : Splitter) : s.append [] = (s, []) := by
  cases s with
  | mk limits hpos current afterReturn ended counts =>
      cases current <;> simp [append]

theorem hasFailed_eq_true_iff {s : Splitter} : s.hasFailed = true ↔ s.current = .rejected := by
  cases hcurrent : s.current <;> simp [hasFailed, hcurrent]

theorem hasFailed_of_error? {s : Splitter} {error : StreamError} (herror : s.error? = some error) :
    s.hasFailed = true := by
  unfold error? at herror
  split at herror
  · next hfailed => exact hfailed
  · cases herror

theorem error?_eq_none_iff {s : Splitter} : s.error? = none ↔ s.hasFailed = false := by
  simp [error?]

theorem append_of_hasFailed {s : Splitter} (hfailed : s.hasFailed = true) (a : Bytes) :
    s.append a = (s, []) := by
  simp [append, hasFailed_eq_true_iff.mp hfailed]

theorem append_of_fits {s : Splitter} {bytes : Array UInt8}
    (hcurrent : s.current = .fitting bytes) {a : Bytes} (ha : a.length ≤ s.limit - bytes.size) :
    s.append a = ({ s with current := .fitting (bytes ++ a.toArray) }, []) := by
  simp [append, hcurrent, ha]

theorem append_of_outgrows {s : Splitter} {bytes : Array UInt8}
    (hcurrent : s.current = .fitting bytes) {a : Bytes} (ha : s.limit - bytes.size < a.length) :
    s.append a =
      s.outgrow (bytes.toList ++ a.take (s.limit - bytes.size))
        (a.drop (s.limit - bytes.size)) := by
  simp [append, hcurrent, Nat.not_le.mpr ha]

/-- A stretch that outgrows the limit may be joined with what follows it. -/
theorem outgrow_append (s : Splitter) (head rest more : Bytes) :
    s.outgrow head (rest ++ more) =
      (((s.outgrow head rest).1.append more).1,
        (s.outgrow head rest).2 ++ ((s.outgrow head rest).1.append more).2) := by
  unfold outgrow
  cases s.policy.disposition head <;>
    simp [append, Handling.absorb_append, Nat.add_assoc]

/-- After a stretch that fits there is room for so much less. -/
theorem append_append_of_fits {s : Splitter} {bytes : Array UInt8}
    (hcurrent : s.current = .fitting bytes) {a : Bytes} (ha : a.length ≤ s.limit - bytes.size)
    (b : Bytes) :
    s.append (a ++ b) = { s with current := .fitting (bytes ++ a.toArray) }.append b := by
  have hnext : ({ s with current := .fitting (bytes ++ a.toArray) } : Splitter).current =
      .fitting (bytes ++ a.toArray) := rfl
  have hroom : s.limit - (bytes ++ a.toArray).size = s.limit - bytes.size - a.length := by
    simp
    omega
  by_cases hb : b.length ≤ s.limit - bytes.size - a.length
  · have hfits : b.length ≤ s.limit - (bytes ++ a.toArray).size := by omega
    have hboth : (a ++ b).length ≤ s.limit - bytes.size := by
      rw [List.length_append]
      omega
    rw [append_of_fits hcurrent hboth, append_of_fits hnext hfits]
    simp
  · have hover : s.limit - (bytes ++ a.toArray).size < b.length := by omega
    have hboth : s.limit - bytes.size < (a ++ b).length := by
      rw [List.length_append]
      omega
    -- Both sides hand the same head to the policy, because the cut falls into `b`.
    have htake : (a ++ b).take (s.limit - bytes.size) =
        a ++ b.take (s.limit - (bytes ++ a.toArray).size) := by
      rw [hroom, List.take_append, List.take_of_length_le ha]
    have hdrop : (a ++ b).drop (s.limit - bytes.size) =
        b.drop (s.limit - (bytes ++ a.toArray).size) := by
      rw [hroom, List.drop_append, List.drop_of_length_le ha, List.nil_append]
    rw [append_of_outgrows hcurrent hboth, append_of_outgrows hnext hover, htake, hdrop]
    simp [outgrow, limit, policy]

theorem append_append (s : Splitter) (a b : Bytes) :
    s.append (a ++ b) =
      (((s.append a).1.append b).1, (s.append a).2 ++ ((s.append a).1.append b).2) := by
  cases hcurrent : s.current with
  | rejected =>
      simp [append_of_hasFailed (hasFailed_eq_true_iff.mpr hcurrent)]
  | oversized handling length =>
      simp [append, hcurrent, Handling.absorb_append, Nat.add_assoc]
  | fitting bytes =>
      by_cases ha : a.length ≤ s.limit - bytes.size
      · rw [append_append_of_fits hcurrent ha, append_of_fits hcurrent ha]
        rfl
      · have htake : (a ++ b).take (s.limit - bytes.size) = a.take (s.limit - bytes.size) :=
          List.take_append_of_le_length (by omega)
        have hdrop :
            (a ++ b).drop (s.limit - bytes.size) = a.drop (s.limit - bytes.size) ++ b :=
          List.drop_append_of_le_length (by omega)
        rw [append_of_outgrows hcurrent (by simp; omega), append_of_outgrows hcurrent (by omega),
          htake, hdrop, outgrow_append]

/-! ## The end of a line -/

/-- The end of a line leaves the splitter at the start of the next one. -/
theorem endLine_start {s : Splitter} (hgoing : s.hasFailed = false) :
    s.endLine.1.hasFailed = false ∧ s.endLine.1.afterReturn = false := by
  cases hcurrent : s.current with
  | fitting bytes => simp [endLine, hcurrent, hasFailed]
  | oversized handling length => simp [endLine, hcurrent, hasFailed]
  | rejected => simp [hasFailed, hcurrent] at hgoing

/-- A line that has just begun waits for no line feed. -/
theorem endLine_settled {s : Splitter} (hgoing : s.hasFailed = false) :
    { s.endLine.1 with afterReturn := false } = s.endLine.1 := by
  rw [← (endLine_start hgoing).2]

theorem endLine_with_afterReturn {s : Splitter} (hgoing : s.hasFailed = false) (after : Bool) :
    { s with afterReturn := after }.endLine = s.endLine := by
  cases hcurrent : s.current with
  | fitting bytes => simp [endLine, hcurrent]
  | oversized handling length => simp [endLine, hcurrent, policy]
  | rejected => simp [hasFailed, hcurrent] at hgoing

/-! ## Single bytes -/

/-- Reads one byte.  After a failure nothing is read any more. -/
def step (s : Splitter) (b : UInt8) : Splitter × List Signal :=
  if s.hasFailed then (s, [])
  else if b = Bytes.lineFeed then
    if s.afterReturn then ({ s with afterReturn := false }, []) else s.endLine
  else if b = Bytes.carriageReturn then
    ({ s.endLine.1 with afterReturn := true }, s.endLine.2)
  else { s with afterReturn := false }.append [b]

theorem step_of_hasFailed {s : Splitter} (hfailed : s.hasFailed = true) (b : UInt8) :
    s.step b = (s, []) := by
  simp [step, hfailed]

theorem run_step_of_hasFailed {s : Splitter} (hfailed : s.hasFailed = true) (bytes : Bytes) :
    Transducer.run step s bytes = (s, []) := by
  induction bytes with
  | nil => rfl
  | cons b rest ih => simp [Transducer.run_cons, step_of_hasFailed hfailed, ih]

theorem append_afterReturn {s : Splitter} (hafter : s.afterReturn = false) (a : Bytes) :
    (s.append a).1.afterReturn = false := by
  unfold append outgrow
  split
  · dsimp only
    split
    · exact hafter
    · split <;> first | exact hafter | rfl
  · exact hafter
  · exact hafter

theorem step_of_afterReturn {s : Splitter} (hgoing : s.hasFailed = false)
    (hafter : s.afterReturn = true) :
    s.step Bytes.lineFeed = ({ s with afterReturn := false }, []) := by
  simp [step, hgoing, hafter]

theorem step_of_isTerminator {s : Splitter} (hgoing : s.hasFailed = false) {b : UInt8}
    (hb : Bytes.isTerminator b = true)
    (hapart : ¬(s.afterReturn = true ∧ b = Bytes.lineFeed)) :
    s.step b =
      ({ s.endLine.1 with afterReturn := decide (b = Bytes.carriageReturn) }, s.endLine.2) := by
  rcases Bytes.isTerminator_eq_true_iff.mp hb with rfl | rfl
  · have hafter : s.afterReturn = false := by simpa using hapart
    simp [step, hgoing, hafter, Bytes.lineFeed_ne_carriageReturn, endLine_settled hgoing]
  · simp [step, hgoing, Bytes.lineFeed_ne_carriageReturn.symm]

theorem step_of_not_isTerminator {s : Splitter} (hgoing : s.hasFailed = false) {b : UInt8}
    (hb : Bytes.isTerminator b = false) :
    s.step b = { s with afterReturn := false }.append [b] := by
  have hnot := Bytes.isTerminator_eq_false_iff.mp hb
  simp [step, hgoing, hnot]

/-- A stretch is read at once as it is read byte by byte. -/
theorem run_step_of_free {s : Splitter} (hafter : s.afterReturn = false) {stretch : Bytes}
    (hfree : ∀ b ∈ stretch, Bytes.isTerminator b = false) :
    Transducer.run step s stretch = s.append stretch := by
  induction stretch generalizing s with
  | nil => simp
  | cons b rest ih =>
      have hb := hfree b List.mem_cons_self
      have hrest : ∀ c ∈ rest, Bytes.isTerminator c = false := by
        intro c hc
        exact hfree c (List.mem_cons_of_mem b hc)
      have hstep : s.step b = s.append [b] := by
        have hsame : { s with afterReturn := false } = s := by rw [← hafter]
        cases hfailed : s.hasFailed with
        | true => rw [step_of_hasFailed hfailed, append_of_hasFailed hfailed]
        | false => rw [step_of_not_isTerminator hfailed hb, hsame]
      rw [Transducer.run_cons, hstep, ih (append_afterReturn hafter [b]) hrest]
      exact (append_append s [b] rest).symm

/-! ## Terminators -/

/-- Whether the last byte was a carriage return matters to a line feed alone. -/
theorem step_with_afterReturn {s : Splitter} (hgoing : s.hasFailed = false) {b : UInt8}
    (hb : b ≠ Bytes.lineFeed) (after : Bool) :
    { s with afterReturn := after }.step b = { s with afterReturn := false }.step b := by
  have hnext (x : Bool) : ({ s with afterReturn := x } : Splitter).hasFailed = false := hgoing
  simp [step, hnext, hb, endLine_with_afterReturn hgoing]

/-- The line feed of a carriage return is passed over as it is read. -/
theorem run_step_passFeed {s : Splitter} (hgoing : s.hasFailed = false) (rest : Bytes) :
    Transducer.run step { s with afterReturn := true } rest =
      Transducer.run step { s with afterReturn := (passFeed rest).2 } (passFeed rest).1 := by
  cases rest with
  | nil => rfl
  | cons c rest =>
      by_cases hc : c = Bytes.lineFeed
      · have hstep : ({ s with afterReturn := true } : Splitter).step Bytes.lineFeed =
            ({ s with afterReturn := false }, []) :=
          step_of_afterReturn hgoing rfl
        rw [hc, Transducer.run_cons, hstep]
        simp [passFeed]
      · simp only [passFeed, hc, if_false, Transducer.run_cons]
        rw [step_with_afterReturn hgoing hc]

theorem run_step_terminator {s : Splitter} (hgoing : s.hasFailed = false)
    (hafter : s.afterReturn = false) {b : UInt8} (hb : Bytes.isTerminator b = true)
    (rest : Bytes) :
    Transducer.run step s (b :: rest) =
      let next := { s.endLine.1 with afterReturn := (passTerminator b rest).2 }
      ((Transducer.run step next (passTerminator b rest).1).1,
        s.endLine.2 ++ (Transducer.run step next (passTerminator b rest).1).2) := by
  have hended := endLine_start hgoing
  have hstep := step_of_isTerminator hgoing hb (by simp [hafter])
  rw [Transducer.run_cons, hstep]
  by_cases hreturn : b = Bytes.carriageReturn
  · simp only [hreturn, decide_true, passTerminator, if_true]
    rw [run_step_passFeed hended.1]
  · simp [passTerminator, hreturn]

/-- What a terminator leaves of a chunk begins with no line feed that is still to be passed
over, unless nothing is left. -/
theorem passTerminator_spec (b : UInt8) (rest : Bytes) :
    (passTerminator b rest).2 = false ∨ (passTerminator b rest).1 = [] := by
  unfold passTerminator
  split
  · cases rest with
    | nil => exact Or.inr rfl
    | cons c rest =>
        left
        simp only [passFeed]
        split <;> rfl
  · exact Or.inl rfl

/-! ## Chunks -/

theorem run_step_of_dropWhile {s : Splitter} (hafter : s.afterReturn = false) {chunk : Bytes}
    {b : UInt8} {rest : Bytes} (hrest : chunk.dropWhile (!Bytes.isTerminator ·) = b :: rest) :
    Transducer.run step s chunk =
      let first := s.append (chunk.takeWhile (!Bytes.isTerminator ·))
      ((Transducer.run step first.1 (b :: rest)).1,
        first.2 ++ (Transducer.run step first.1 (b :: rest)).2) := by
  have hchunk : chunk.takeWhile (!Bytes.isTerminator ·) ++ b :: rest = chunk := by
    rw [← hrest, List.takeWhile_append_dropWhile]
  have hfree : ∀ c ∈ chunk.takeWhile (!Bytes.isTerminator ·), Bytes.isTerminator c = false :=
    Bytes.unbroken_takeWhile chunk
  conv => lhs; rw [← hchunk, Transducer.run_append, run_step_of_free hafter hfree]

/-- Scanning a chunk for its terminators is reading it byte by byte.  The signals come out in
reverse. -/
theorem scan_eq_run (s : Splitter) (chunk : Bytes) (out : List Signal)
    (hstart : s.afterReturn = false ∨ chunk = []) :
    s.scan chunk out =
      ((Transducer.run step s chunk).1, (Transducer.run step s chunk).2.reverse ++ out) := by
  fun_induction scan s chunk out with
  | case1 s chunk out hnone next new happend =>
      have hfree : ∀ b ∈ chunk, Bytes.isTerminator b = false := by
        simpa using List.dropWhile_eq_nil_iff.mp hnone
      have hrun : Transducer.run step s chunk = s.append chunk := by
        rcases hstart with hafter | hempty
        · exact run_step_of_free hafter hfree
        · simp [hempty]
      rw [hrun, happend]
  | case2 s chunk out b rest hrest next new happend hfailed =>
      have hafter : s.afterReturn = false := by
        refine hstart.resolve_right ?_
        rintro rfl
        simp at hrest
      rw [run_step_of_dropWhile hafter hrest]
      simp [happend, run_step_of_hasFailed hfailed]
  | case3 s chunk out b rest hrest next new happend hgoing last line hended ih =>
      have hafter : s.afterReturn = false := by
        refine hstart.resolve_right ?_
        rintro rfl
        simp at hrest
      have hnext : next.afterReturn = false := by
        simpa [happend] using
          append_afterReturn hafter (chunk.takeWhile (!Bytes.isTerminator ·))
      rw [run_step_of_dropWhile hafter hrest, ih (passTerminator_spec b rest)]
      simp only [happend]
      have hb : Bytes.isTerminator b = true := by simpa using eq_false_of_dropWhile hrest
      rw [run_step_terminator (by simpa using hgoing) hnext hb]
      simp [hended]

theorem run_step_resume {s : Splitter} (hgoing : s.hasFailed = false) (chunk : Bytes) :
    Transducer.run step s chunk = Transducer.run step (s.resume chunk).1 (s.resume chunk).2 := by
  cases chunk with
  | nil => rfl
  | cons b rest =>
      cases hafter : s.afterReturn with
      | false =>
          have hsame : { s with afterReturn := false } = s := by rw [← hafter]
          simp [resume, hafter, hsame]
      | true =>
          have hsame : s = { s with afterReturn := true } := by rw [← hafter]
          conv => lhs; rw [hsame, run_step_passFeed hgoing]
          by_cases hb : b = Bytes.lineFeed
          · simp [resume, passFeed, hafter, hb]
          · simp [resume, passFeed, hb]

theorem resume_spec (s : Splitter) (chunk : Bytes) :
    (s.resume chunk).1.afterReturn = false ∨ (s.resume chunk).2 = [] := by
  cases chunk with
  | nil => exact Or.inr rfl
  | cons b rest => exact Or.inl rfl

/-- Reading a chunk is reading its bytes one after another. -/
theorem read_eq_run (s : Splitter) (chunk : Bytes) :
    s.read chunk = Transducer.run step s chunk := by
  unfold read
  split
  · next hfailed => rw [run_step_of_hasFailed hfailed]
  · next hgoing =>
      have hscan := scan_eq_run (s.resume chunk).1 (s.resume chunk).2 [] (resume_spec s chunk)
      rw [run_step_resume (by simpa using hgoing)]
      simp [hscan]

/-- The places where a stream is cut into chunks leave no trace. -/
theorem read_append (s : Splitter) (a b : Bytes) :
    s.read (a ++ b) =
      (((s.read a).1.read b).1, (s.read a).2 ++ ((s.read a).1.read b).2) := by
  simp only [read_eq_run]
  exact Transducer.run_append step s a b

@[simp] theorem read_nil (s : Splitter) : s.read [] = (s, []) := by
  simp [read_eq_run]

theorem read_of_hasFailed {s : Splitter} (hfailed : s.hasFailed = true) (chunk : Bytes) :
    s.read chunk = (s, []) := by
  simp [read, hfailed]

@[simp] theorem readAll_nil (s : Splitter) : s.readAll [] = (s, []) := rfl

theorem readAll_cons (s : Splitter) (chunk : Bytes) (chunks : List Bytes) :
    s.readAll (chunk :: chunks) =
      (((s.read chunk).1.readAll chunks).1,
        (s.read chunk).2 ++ ((s.read chunk).1.readAll chunks).2) :=
  Transducer.run_cons read s chunk chunks

theorem readAll_append (s : Splitter) (a b : List Bytes) :
    s.readAll (a ++ b) =
      (((s.readAll a).1.readAll b).1, (s.readAll a).2 ++ ((s.readAll a).1.readAll b).2) :=
  Transducer.run_append read s a b

theorem readAll_eq_run (s : Splitter) (chunks : List Bytes) :
    s.readAll chunks = Transducer.run step s chunks.flatten := by
  induction chunks generalizing s with
  | nil => rfl
  | cons chunk chunks ih =>
      rw [readAll_cons, List.flatten_cons, Transducer.run_append, ih, read_eq_run]

theorem readAll_eq_read (s : Splitter) (chunks : List Bytes) :
    s.readAll chunks = s.read chunks.flatten := by
  rw [readAll_eq_run, read_eq_run]

theorem readAll_of_hasFailed {s : Splitter} (hfailed : s.hasFailed = true)
    (chunks : List Bytes) : s.readAll chunks = (s, []) := by
  rw [readAll_eq_run, run_step_of_hasFailed hfailed]

end Splitter

end ServerSentEvents
