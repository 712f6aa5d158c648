import Mathlib.Data.List.Basic
import ServerSentEvents.Proofs.ChunkBoundaries
import ServerSentEvents.Proofs.Splitter.Requests

/-!
# What the policies have in common

Splitters that differ in nothing but their policy for oversized lines are taken along one course.
The three policies that go on after an oversized line hand out the same lines but for the truncated
ones, and report the same lines (`Splitter.InStep`).  The policy that fails the stream agrees with
them until a line takes the byte that is too much for it, and where no line does, neither the policy
nor the limit makes a difference.
-/

namespace ServerSentEvents

namespace LineLimits

/-! ## Lines that are numbered -/

variable {β γ : Type}

theorem map_numbered (g : β → γ) (f : Nat → Bytes → Option β) (lines : List Bytes) :
    (numbered f lines).map g = numbered (fun number line => (f number line).map g) lines := by
  simp only [numbered, List.map_filterMap]

theorem filterMap_numbered (g : β → Option γ) (f : Nat → Bytes → Option β) (lines : List Bytes) :
    (numbered f lines).filterMap g =
      numbered (fun number line => (f number line).bind g) lines := by
  simp only [numbered, List.filterMap_filterMap]

theorem filter_numbered (p : β → Bool) (f : Nat → Bytes → Option β) (lines : List Bytes) :
    (numbered f lines).filter p = numbered (fun number line => (f number line).filter p) lines := by
  simp only [numbered, List.filter_filterMap]

theorem exists_of_mem_numbered {f : Nat → Bytes → Option β} {lines : List Bytes} {x : β}
    (hx : x ∈ numbered f lines) : ∃ number, ∃ line ∈ lines, f number line = some x := by
  obtain ⟨⟨line, number⟩, hmem, hmade⟩ := List.mem_filterMap.mp hx
  exact ⟨number, line, List.fst_mem_of_mem_zipIdx hmem, hmade⟩

theorem numbered_congr {f g : Nat → Bytes → Option β} {lines : List Bytes}
    (hsame : ∀ number, ∀ line ∈ lines, f number line = g number line) :
    numbered f lines = numbered g lines := by
  refine List.filterMap_congr ?_
  rintro ⟨line, number⟩ hmem
  exact hsame number line (List.fst_mem_of_mem_zipIdx hmem)

/-! ## Lines that all fit -/

variable {limits : LineLimits} {lines : List Bytes}

theorem numbered_line?_of_admits (hfit : ∀ line ∈ lines, limits.admits line = true) :
    numbered limits.line? lines = numbered (fun number line => some ⟨line, number, false⟩) lines :=
  numbered_congr fun number line hline => by simp [line?, hfit line hline]

theorem numbered_diagnostic?_of_admits (hfit : ∀ line ∈ lines, limits.admits line = true) :
    numbered limits.diagnostic? lines = [] := by
  rw [numbered_congr (g := fun _ _ => none) fun number line hline => by
    simp [diagnostic?, hfit line hline]]
  simp [numbered]

theorem countsOf_of_admits (hfit : ∀ line ∈ lines, limits.admits line = true) :
    limits.countsOf lines = { lines := lines.length } := by
  have hwithin : lines.countP limits.admits = lines.length := List.countP_eq_length.mpr hfit
  have hbeyond : lines.countP (!limits.admits ·) = 0 := by
    refine List.countP_eq_zero.mpr fun line hline => ?_
    simp [hfit line hline]
  cases hpolicy : limits.overflow <;> simp [countsOf, hpolicy, hwithin, hbeyond]

end LineLimits

namespace Splitter

/-- What the three policies that go on after an oversized line have made of the same requests:
skipping it, cutting it to `limit` bytes, and rerouting it. -/
structure InStep (limit : Nat) (skipped cut rerouted : Splitter × List Signal) : Prop where
  /-- The lines that are handed out whole are the same, with the same numbers. -/
  lines_eq : Signal.lines skipped.2 = Signal.lines rerouted.2
  whole_eq : (Signal.lines cut.2).filter (!·.truncated) = Signal.lines rerouted.2
  whole : ∀ line ∈ Signal.lines rerouted.2, line.truncated = false
  /-- The diagnostics are about the same lines, and differ in the bytes that they carry. -/
  skipped_eq : Signal.diagnostics skipped.2 =
    (Signal.diagnostics rerouted.2).map fun d => { d with policy := .logAndSkip, bytes := none }
  cut_eq : Signal.diagnostics cut.2 =
    (Signal.diagnostics rerouted.2).map fun d =>
      { d with policy := .truncate, bytes := d.bytes.map (·.take limit) }
  rerouted_eq : ∀ d ∈ Signal.diagnostics rerouted.2, ∃ line, limit < line.length ∧
    d = ⟨.deadLetter, d.lineNumber, line.length, some line⟩
  /-- The truncated lines are the heads of the rerouted ones. -/
  heads_eq : (Signal.lines cut.2).filter (·.truncated) =
    (Signal.diagnostics rerouted.2).filterMap fun d =>
      d.bytes.map fun line => ⟨line.take limit, d.lineNumber, true⟩
  /-- An oversized line is counted once, as dropped, as truncated or as rerouted. -/
  counts_eq : cut.1.counts.truncated = skipped.1.counts.dropped ∧
    rerouted.1.counts.rerouted = skipped.1.counts.dropped
  ended_eq : skipped.1.ended = rerouted.1.ended ∧ cut.1.ended = rerouted.1.ended

theorem Follows.inStep {m : Nat} {c : Course} {skipped cut rerouted : Splitter × List Signal}
    (hskipped : Follows ⟨m, .logAndSkip⟩ c skipped.1 skipped.2)
    (hcut : Follows ⟨m, .truncate⟩ c cut.1 cut.2)
    (hrerouted : Follows ⟨m, .deadLetter⟩ c rerouted.1 rerouted.2) :
    InStep m skipped cut rerouted where
  lines_eq := by
    rw [hskipped.lines_eq, hrerouted.lines_eq]
    rfl
  whole_eq := by
    rw [hcut.lines_eq, hrerouted.lines_eq, LineLimits.filter_numbered]
    congr 1
    funext number line
    by_cases hfits : line.length ≤ m <;> simp [LineLimits.line?, LineLimits.admits, hfits]
  whole := by
    intro line hline
    rw [hrerouted.lines_eq] at hline
    obtain ⟨number, bytes, -, hmade⟩ := LineLimits.exists_of_mem_numbered hline
    simp only [LineLimits.line?] at hmade
    split at hmade
    · cases hmade
      rfl
    · simp at hmade
  skipped_eq := by
    rw [hskipped.diagnostics_eq, hrerouted.diagnostics_eq, LineLimits.map_numbered]
    congr 1
    funext number line
    by_cases hfits : line.length ≤ m <;>
      simp [LineLimits.diagnostic?, LineLimits.reported?, LineLimits.admits, hfits]
  cut_eq := by
    rw [hcut.diagnostics_eq, hrerouted.diagnostics_eq, LineLimits.map_numbered]
    congr 1
    funext number line
    by_cases hfits : line.length ≤ m <;>
      simp [LineLimits.diagnostic?, LineLimits.reported?, LineLimits.admits, hfits]
  rerouted_eq := by
    intro d hd
    rw [hrerouted.diagnostics_eq] at hd
    obtain ⟨number, line, -, hmade⟩ := LineLimits.exists_of_mem_numbered hd
    simp only [LineLimits.diagnostic?] at hmade
    split at hmade
    · cases hmade
    · next hbeyond =>
        cases hmade
        exact ⟨line, by simpa [LineLimits.admits] using hbeyond, rfl⟩
  heads_eq := by
    rw [hcut.lines_eq, hrerouted.diagnostics_eq, LineLimits.filter_numbered,
      LineLimits.filterMap_numbered]
    congr 1
    funext number line
    by_cases hfits : line.length ≤ m <;>
      simp [LineLimits.line?, LineLimits.diagnostic?, LineLimits.reported?, LineLimits.admits,
        hfits]
  counts_eq := by
    rw [hskipped.counts_eq, hcut.counts_eq, hrerouted.counts_eq]
    exact ⟨rfl, rfl⟩
  ended_eq := by
    rw [hskipped.ended_eq, hcut.ended_eq, hrerouted.ended_eq]
    exact ⟨rfl, rfl⟩

/-! ## Where no line is too long -/

/-- Two runs have gone the same way, with nothing to report and no failure. -/
structure Alike (one other : Splitter × List Signal) : Prop where
  lines_eq : Signal.lines one.2 = Signal.lines other.2
  diagnostics_eq : Signal.diagnostics one.2 = [] ∧ Signal.diagnostics other.2 = []
  counts_eq : one.1.counts = other.1.counts
  ended_eq : one.1.ended = other.1.ended
  error_eq : one.1.error? = none ∧ other.1.error? = none

theorem Follows.of_within {limits : LineLimits} {c : Course} {s : Splitter} {out : List Signal}
    (h : Follows limits c s out) (hwithin : c.Within limits.maxSize) :
    Signal.lines out =
        LineLimits.numbered (fun number line => some ⟨line, number, false⟩) c.ended ∧
      Signal.diagnostics out = [] ∧ s.counts = { lines := c.ended.length } ∧ s.error? = none := by
  have hfit : ∀ line ∈ c.ended, limits.admits line = true := by
    intro line hline
    simpa [LineLimits.admits] using (Course.within_iff.mp hwithin).1 line hline
  have hgoing : s.hasFailed = false := h.going fun _ => hwithin
  rw [h.lines_eq, h.diagnostics_eq, h.counts_eq, error?_eq_none_iff]
  exact ⟨LineLimits.numbered_line?_of_admits hfit, LineLimits.numbered_diagnostic?_of_admits hfit,
    LineLimits.countsOf_of_admits hfit, hgoing⟩

/-- Where no line is too long for either, limits make no difference. -/
theorem respondAll_alike {limits others : LineLimits} (hpos : 0 < limits.maxSize)
    (hroom : 0 < others.maxSize) {requests : List Request}
    (hwithin : (Course.of requests).Within limits.maxSize)
    (hwider : limits.maxSize ≤ others.maxSize) :
    Alike ((start limits hpos).respondAll requests) ((start others hroom).respondAll requests) := by
  have hothers := hwithin.mono hwider
  have hone : Follows limits _ _ _ := Follows.respondAll hpos fun _ => hwithin
  have hother : Follows others _ _ _ := Follows.respondAll hroom fun _ => hothers
  obtain ⟨hlines, hnone, hcounts, hgoing⟩ := hone.of_within hwithin
  obtain ⟨hlines', hnone', hcounts', hgoing'⟩ := hother.of_within hothers
  exact {
    lines_eq := hlines.trans hlines'.symm
    diagnostics_eq := ⟨hnone, hnone'⟩
    counts_eq := hcounts.trans hcounts'.symm
    ended_eq := hone.ended_eq.trans hother.ended_eq.symm
    error_eq := ⟨hgoing, hgoing'⟩ }

/-! ## The byte that is too much -/

/-- With the byte that is too much the open line is. -/
theorem length_openBytes_of_beyond {limit : Nat} {c : Course} (hwithin : c.Within limit) {b : UInt8}
    (hbeyond : ¬(c.next (.read [b])).Within limit) :
    limit < (c.next (.read [b])).openBytes.length := by
  rw [Course.within_next_byte_iff, not_and, Nat.not_le] at hbeyond
  exact hbeyond hwithin

/-- A chunk in which a line becomes too long has a first byte with which it is. -/
theorem exists_byte_beyond {limit : Nat} {c : Course} (hwithin : c.Within limit) {chunk : Bytes}
    (hbeyond : ¬(c.next (.read chunk)).Within limit) :
    ∃ a b rest, chunk = a ++ b :: rest ∧ (c.next (.read a)).Within limit ∧
      ¬(c.next (.read (a ++ [b]))).Within limit := by
  induction chunk using List.reverseRecOn with
  | nil => exact absurd (by simpa [Course.next] using hwithin) hbeyond
  | append_singleton chunk last ih =>
      by_cases hchunk : (c.next (.read chunk)).Within limit
      · exact ⟨chunk, last, [], rfl, hchunk, hbeyond⟩
      · obtain ⟨a, b, rest, rfl, hfirst, hnext⟩ := ih hchunk
        exact ⟨a, b, rest ++ [last], by simp, hfirst, hnext⟩

theorem exists_request_beyond {limit : Nat} {requests : List Request}
    (hbeyond : ¬(Course.of requests).Within limit) :
    ∃ before a b rest after, requests = before ++ .read (a ++ b :: rest) :: after ∧
      (Course.of (before ++ [.read a])).Within limit ∧
      ¬(Course.of (before ++ [.read (a ++ [b])])).Within limit := by
  induction requests using List.reverseRecOn with
  | nil => exact absurd (by simp [Course.within_iff, Course.ended, Course.openBytes]) hbeyond
  | append_singleton requests request ih =>
      by_cases hwithin : (Course.of requests).Within limit
      · rw [Course.of_concat] at hbeyond
        cases request with
        | read chunk =>
            obtain ⟨a, b, rest, rfl, hfirst, hnext⟩ := exists_byte_beyond hwithin hbeyond
            refine ⟨requests, a, b, rest, [], rfl, ?_, ?_⟩
            · rwa [Course.of_concat]
            · rwa [Course.of_concat]
        | close => exact absurd (hwithin.next_of_ne_read (by simp)) hbeyond
        | forget => exact absurd (hwithin.next_of_ne_read (by simp)) hbeyond
      · obtain ⟨before, a, b, rest, after, rfl, hfirst, hnext⟩ := ih hwithin
        exact ⟨before, a, b, rest, after ++ [request], by simp, hfirst, hnext⟩

/-- After a failure a request changes nothing but the memory of a carriage return. -/
theorem respond_of_hasFailed {s : Splitter} (hfailed : s.hasFailed = true) (request : Request) :
    ∃ after, s.respond request = ({ s with afterReturn := after }, []) := by
  have hcurrent := hasFailed_eq_true_iff.mp hfailed
  cases request with
  | read chunk => exact ⟨s.afterReturn, read_of_hasFailed hfailed chunk⟩
  | close => exact ⟨false, by simp [respond, close, hcurrent]⟩
  | forget => exact ⟨false, by simp [respond, forget, hcurrent]⟩

theorem respondAll_of_hasFailed {s : Splitter} (hfailed : s.hasFailed = true)
    (requests : List Request) :
    ∃ after, s.respondAll requests = ({ s with afterReturn := after }, []) := by
  induction requests using List.reverseRecOn with
  | nil => exact ⟨s.afterReturn, rfl⟩
  | append_singleton requests request ih =>
      obtain ⟨after, hall⟩ := ih
      obtain ⟨last, hone⟩ :=
        respond_of_hasFailed (s := { s with afterReturn := after }) hfailed request
      exact ⟨last, by rw [respondAll_concat, hall, hone]; rfl⟩

/-- A byte with which a line is too long fails the stream where the policy says so, and ends no
line. -/
theorem Follows.step_of_beyond {limits : LineLimits} (hpolicy : limits.overflow = .failStream)
    {c : Course} {s : Splitter} {out : List Signal} (h : Follows limits c s out)
    (hwithin : c.Within limits.maxSize) {b : UInt8}
    (hbeyond : ¬(c.next (.read [b])).Within limits.maxSize) :
    (s.step b).1.error? = some (.lineTooLong limits.maxSize (s.ended + 1)) ∧
      (s.step b).1.counts = s.counts ∧
      Signal.lines (out ++ (s.step b).2) = Signal.lines out ∧
      Signal.diagnostics (out ++ (s.step b).2) = Signal.diagnostics out := by
  have hstep := h.step (h.going fun _ => hwithin) b
  have hlong := length_openBytes_of_beyond hwithin hbeyond
  have hended : (c.next (.read [b])).ended = c.ended := by
    rcases c.next_byte_cases b with ⟨-, -, hsame, -⟩ | ⟨-, -, -, hnone⟩ | ⟨-, hsame, -⟩
    · exact hsame
    · simp [hnone] at hlong
    · exact hsame
  have hfailed : (s.step b).1.hasFailed = true := by
    rw [hasFailed_eq_true_iff, hstep.current_eq]
    exact LineLimits.openLine_eq_rejected hpolicy (by simpa [LineLimits.admits] using hlong)
  refine ⟨?_, ?_, ?_, ?_⟩
  · rw [error?, hfailed, hstep.ended_eq, hended, ← h.ended_eq, limit, hstep.limits_eq]
    rfl
  · rw [hstep.counts_eq, hended, h.counts_eq]
  · rw [hstep.lines_eq, hended, h.lines_eq]
  · rw [hstep.diagnostics_eq, hended, h.diagnostics_eq]

/-- A splitter that fails the stream has made of it what it had made before the byte that was too
much. -/
theorem respondAll_of_beyond {m : Nat} (hm : 0 < m) {before : List Request} {a : Bytes} {b : UInt8}
    (hfirst : (Course.of (before ++ [.read a])).Within m)
    (hnext : ¬(Course.of (before ++ [.read (a ++ [b])])).Within m) (rest : Bytes)
    (after : List Request) :
    let agreed := (start ⟨m, .failStream⟩ hm).respondAll (before ++ [.read a])
    let failed := (start ⟨m, .failStream⟩ hm).respondAll (before ++ .read (a ++ b :: rest) :: after)
    Signal.lines failed.2 = Signal.lines agreed.2 ∧ Signal.diagnostics failed.2 = [] ∧
      failed.1.counts = agreed.1.counts ∧
      failed.1.error? = some (.lineTooLong m (agreed.1.ended + 1)) := by
  intro agreed failed
  have hfollows : Follows ⟨m, .failStream⟩ (Course.of (before ++ [.read a])) agreed.1 agreed.2 :=
    Follows.respondAll hm fun _ => hfirst
  have hbeyond : ¬((Course.of (before ++ [.read a])).next (.read [b])).Within m := by
    rwa [Course.of_concat, ← Course.next_read_append, ← Course.of_concat]
  obtain ⟨herror, hcounts, hlines, hdiagnostics⟩ := hfollows.step_of_beyond rfl hfirst hbeyond
  obtain ⟨last, hafter⟩ :=
    respondAll_of_hasFailed (hasFailed_of_error? herror) (.read rest :: after)
  have hbyte (s : Splitter) : s.read [b] = s.step b := by simp [read_eq_run, Transducer.run_cons]
  have hparts : a ++ b :: rest = a ++ [b] ++ rest := by simp
  have hwhole : failed =
      ({ (agreed.1.step b).1 with afterReturn := last }, agreed.2 ++ (agreed.1.step b).2) := by
    rw [respondAll_cons] at hafter
    simp only [failed, agreed, hparts, respondAll_append, respondAll_cons, respondAll_nil, respond,
      read_append, hbyte, List.append_nil, List.append_assoc] at hafter ⊢
    rw [(Prod.mk.inj hafter).1, (Prod.mk.inj hafter).2, List.append_nil]
  rw [hwhole]
  refine ⟨hlines, ?_, hcounts, herror⟩
  rw [hdiagnostics]
  exact (hfollows.of_within hfirst).2.1

theorem Follows.isOversized {limits : LineLimits} (hpolicy : limits.overflow ≠ .failStream)
    {c : Course} {s : Splitter} {out : List Signal} (h : Follows limits c s out)
    (hlong : limits.maxSize < c.openBytes.length) : s.isOversized = true := by
  have hbeyond : limits.admits c.openBytes = false := by simpa [LineLimits.admits] using hlong
  cases hoverflow : limits.overflow with
  | failStream => exact absurd hoverflow hpolicy
  | _ => simp [Splitter.isOversized, h.current_eq, LineLimits.openLine, hbeyond, hoverflow]

end Splitter

namespace Decoder

/-- Decoders that are handed the same lines return the same events. -/
theorem readAll_of_lines_eq {d e : Decoder} (hd : d.Sound) (he : e.Sound)
    (hblocks : d.blocks = e.blocks) {chunks others : List Bytes}
    (hlines : Signal.lines (d.splitter.readAll chunks).2 =
      Signal.lines (e.splitter.readAll others).2) :
    (d.readAll chunks).2.1 = (e.readAll others).2.1 ∧
      (d.readAll chunks).1.lastEventId = (e.readAll others).1.lastEventId := by
  have hid (failed : Bool) (r : BlockReader) :
      (if failed = true then r.abandon else r).lastEventId = r.lastEventId := by
    cases failed <;> rfl
  rw [readAll_eq hd, readAll_eq he]
  dsimp only
  rw [hlines, hblocks]
  refine ⟨rfl, ?_⟩
  simp only [lastEventId, hid]

end Decoder

namespace Splitter

/-! ## All policies -/

/-- Splitters that differ in their policy alone, and are asked the same.  After an oversized line,
three policies go on in step, and decoders that skip or reroute it return the same events.  Where no
line is too long, no policy and no larger limit makes a difference.  Where one is, the policy that
fails the stream agrees with the others up to the byte that is too much, at which they find the open
line oversized. -/
theorem respondAll_of_policies (m : Nat) (hm : 0 < m) (requests : List Request) :
    let run (policy : OverflowPolicy) := (start ⟨m, policy⟩ hm).respondAll
    InStep m (run .logAndSkip requests) (run .truncate requests) (run .deadLetter requests) ∧
      (∀ chunks,
        let skipped := (Decoder.start ⟨m, .logAndSkip⟩ hm).readAll chunks
        let rerouted := (Decoder.start ⟨m, .deadLetter⟩ hm).readAll chunks
        skipped.2.1 = rerouted.2.1 ∧ skipped.1.lastEventId = rerouted.1.lastEventId) ∧
      ((Course.of requests).Within m → ∀ limits hpos, m ≤ LineLimits.maxSize limits →
        Alike (run .failStream requests) ((start limits hpos).respondAll requests)) ∧
      (¬(Course.of requests).Within m →
        ∃ before a b rest after, requests = before ++ .read (a ++ b :: rest) :: after ∧
          (let agreed := run .failStream (before ++ [.read a])
            let failed := run .failStream requests
            (∀ policy, Alike agreed (run policy (before ++ [.read a]))) ∧
              Signal.lines failed.2 = Signal.lines agreed.2 ∧ Signal.diagnostics failed.2 = [] ∧
              failed.1.counts = agreed.1.counts ∧
              failed.1.error? = some (.lineTooLong m (agreed.1.ended + 1))) ∧
          ∀ policy, policy ≠ .failStream →
            (run policy (before ++ [.read (a ++ [b])])).1.isOversized = true) := by
  intro run
  have hbears {policy : OverflowPolicy} (hpolicy : policy ≠ .failStream) (c : Course) :
      LineLimits.Bears ⟨m, policy⟩ c := fun hfail => absurd hfail hpolicy
  have hinStep (requests : List Request) :
      InStep m (run .logAndSkip requests) (run .truncate requests) (run .deadLetter requests) :=
    Follows.inStep (Follows.respondAll hm (hbears (by decide) _))
      (Follows.respondAll hm (hbears (by decide) _)) (Follows.respondAll hm (hbears (by decide) _))
  refine ⟨hinStep requests, ?_, ?_, ?_⟩
  · intro chunks
    have hlines := (hinStep (chunks.map .read)).lines_eq
    simp only [run, respondAll_read] at hlines
    exact Decoder.readAll_of_lines_eq (Decoder.sound_start ⟨m, .logAndSkip⟩ hm)
      (Decoder.sound_start ⟨m, .deadLetter⟩ hm) rfl hlines
  · intro hwithin limits hpos hwider
    exact respondAll_alike hm hpos hwithin hwider
  · intro hbeyond
    obtain ⟨before, a, b, rest, after, rfl, hfirst, hnext⟩ := exists_request_beyond hbeyond
    refine ⟨before, a, b, rest, after, rfl, ⟨?_, ?_⟩, ?_⟩
    · intro policy
      exact respondAll_alike hm hm hfirst le_rfl
    · exact respondAll_of_beyond hm hfirst hnext rest after
    · intro policy hpolicy
      refine Follows.isOversized hpolicy (Follows.respondAll hm (hbears hpolicy _)) ?_
      have hparts (last : Bytes) : Course.of (before ++ [.read (a ++ last)]) =
          (Course.of (before ++ [.read a])).next (.read last) := by
        rw [Course.of_concat, Course.next_read_append, ← Course.of_concat]
      rw [hparts] at hnext ⊢
      exact length_openBytes_of_beyond hfirst hnext

/-- An oversized line may be forgotten, or be cut short by the end of a stream. -/
theorem respondAll_of_policies_of_forget :
    let run (policy : OverflowPolicy) := (start ⟨2, policy⟩ Nat.zero_lt_two).respondAll
    let requests : List Request := [.read [0x61, 0x62, 0x0d], .read [0x0a, 0x63, 0x64, 0x65],
      .forget, .read [0x66, 0x67, 0x68], .close, .read [0x69, 0x0a]]
    InStep 2 (run .logAndSkip requests) (run .truncate requests) (run .deadLetter requests) ∧
      Alike (run .failStream (requests.take 1))
        ((start ⟨7, .truncate⟩ (by decide)).respondAll (requests.take 1)) ∧
      ∃ number, (run .failStream requests).1.error? = some (.lineTooLong 2 number) := by
  intro run requests
  obtain ⟨hinStep, -, -, hbeyond⟩ := respondAll_of_policies 2 (by decide) requests
  obtain ⟨-, -, hwithin, -⟩ := respondAll_of_policies 2 (by decide) (requests.take 1)
  obtain ⟨_, _, _, _, _, -, ⟨-, -, -, -, herror⟩, -⟩ := hbeyond (by decide)
  exact ⟨hinStep, hwithin (by decide) ⟨7, .truncate⟩ (by decide) (by decide), _, herror⟩

end Splitter

end ServerSentEvents
