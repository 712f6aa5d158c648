import Mathlib.Data.List.Infix
import ServerSentEvents.Proofs.Composition
import ServerSentEvents.Proofs.Splitter.Policies

/-!
# A failure is final

Where the policy fails the stream, the stream fails with the first byte that is too much for a line,
wherever the terminator of that line may be.  `Splitter.FailsAt` says what has come out by then, and
after it nothing comes out any more, whatever is asked (`Splitter.respondAll_of_hasFailed`).  The
same holds of a decoder, whose splitter is asked for what the decoder is asked for.
-/

namespace ServerSentEvents

namespace Splitter

/-! ## Where a stream fails -/

/-- A stream has failed as soon as a line of it has become too long. -/
theorem error?_respondAll_eq_none_iff {m : Nat} (hm : 0 < m) (requests : List Request) :
    ((start ⟨m, .failStream⟩ hm).respondAll requests).1.error? = none ↔
      (Course.of requests).Within m := by
  constructor
  · intro hgoing
    by_contra hbeyond
    obtain ⟨before, a, b, rest, after, rfl, hfirst, hnext⟩ := exists_request_beyond hbeyond
    obtain ⟨-, -, -, herror⟩ := respondAll_of_beyond hm hfirst hnext rest after
    rw [hgoing] at herror
    cases herror
  · intro hwithin
    have hfollows : Follows ⟨m, .failStream⟩ (Course.of requests) _ _ :=
      Follows.respondAll hm fun _ => hwithin
    exact error?_eq_none_iff.mpr (hfollows.going fun _ => hwithin)

/-- A splitter that goes on has followed the course of its requests. -/
theorem follows_of_going {limits : LineLimits} (hpos : 0 < limits.maxSize)
    {requests : List Request}
    (hgoing : ((start limits hpos).respondAll requests).1.hasFailed = false) :
    Follows limits (Course.of requests) ((start limits hpos).respondAll requests).1
      ((start limits hpos).respondAll requests).2 := by
  -- It has met no line that would have failed it.
  have hbears : limits.Bears (Course.of requests) := by
    intro hpolicy
    obtain ⟨m, overflow⟩ := limits
    subst hpolicy
    exact (error?_respondAll_eq_none_iff hpos requests).mp (error?_eq_none_iff.mpr hgoing)
  exact Follows.respondAll hpos hbears

/-- The byte that is too much is the one right after all that the limit allows of the line. -/
theorem length_openBytes_eq_of_beyond {limit : Nat} {c : Course} (hwithin : c.Within limit)
    {b : UInt8} (hbeyond : ¬(c.next (.read [b])).Within limit) :
    (c.next (.read [b])).openBytes.length = limit + 1 := by
  apply Nat.le_antisymm
  · have hopen := (Course.within_iff.mp hwithin).2.2
    rcases c.next_byte_cases b with ⟨-, -, -, hnext⟩ | ⟨-, -, -, hnext⟩ | ⟨-, -, hnext⟩
    · rw [hnext]
      omega
    · rw [hnext]
      exact Nat.zero_le _
    · rw [hnext, List.length_append, List.length_singleton]
      omega
  · exact length_openBytes_of_beyond hwithin hbeyond

/-- After the course `c`, on which the splitter `s` has emitted `out`, a chunk that begins with `a`
and the byte `b` fails the stream: with `b` the open line is one byte too long. -/
structure FailsAt (m : Nat) (c : Course) (s : Splitter) (out : List Signal) (chunk a : Bytes)
    (b : UInt8) : Prop where
  isPrefix : a ++ [b] <+: chunk
  going : (s.read a).1.error? = none
  length_eq : (c.next (.read (a ++ [b]))).openBytes.length = m + 1
  /-- The chunk hands out what its part before the byte hands out. -/
  lines_eq : Signal.lines (s.read chunk).2 = Signal.lines (s.read a).2
  /-- Together with the lines handed out before, these are all that have ended before the byte. -/
  ended_eq : Signal.lines (out ++ (s.read chunk).2) =
    LineLimits.numbered (fun number line => some ⟨line, number, false⟩) (c.next (.read a)).ended
  diagnostics_eq : Signal.diagnostics (out ++ (s.read chunk).2) = []
  error_eq : (s.read chunk).1.error? =
    some (.lineTooLong m ((Signal.lines (out ++ (s.read chunk).2)).length + 1))
  held_eq : (s.read chunk).1.held = 0

theorem held_of_hasFailed {s : Splitter} (hfailed : s.hasFailed = true) : s.held = 0 := by
  simp [held, hasFailed_eq_true_iff.mp hfailed]

/-- What stands behind the byte that fails the stream is not read. -/
theorem read_of_step_fails {s : Splitter} {a : Bytes} {b : UInt8}
    (hfailed : ((s.read a).1.step b).1.hasFailed = true) (rest : Bytes) :
    s.read (a ++ b :: rest) =
      (((s.read a).1.step b).1, (s.read a).2 ++ ((s.read a).1.step b).2) := by
  rw [read_append, read_eq_run (s.read a).1, Transducer.run_cons, run_step_of_hasFailed hfailed,
    List.append_nil]

/-- A chunk in which a line becomes too long fails the stream with one of its bytes. -/
theorem Follows.exists_failsAt {m : Nat} {c : Course} {s : Splitter} {out : List Signal}
    (h : Follows ⟨m, .failStream⟩ c s out) (hwithin : c.Within m) {chunk : Bytes}
    (hbeyond : ¬(c.next (.read chunk)).Within m) : ∃ a b, FailsAt m c s out chunk a b := by
  obtain ⟨a, b, rest, rfl, hfirst, hnext⟩ := exists_byte_beyond hwithin hbeyond
  have hread : Follows ⟨m, .failStream⟩ (c.next (.read a)) (s.read a).1 (out ++ (s.read a).2) :=
    h.read fun _ => hfirst
  have hone : ¬((c.next (.read a)).next (.read [b])).Within m := by
    rwa [← Course.next_read_append]
  obtain ⟨hended, hnone, -, hgoing⟩ := hread.of_within hfirst
  obtain ⟨herror, -, hlines, hdiagnostics⟩ := hread.step_of_beyond rfl hfirst hone
  have hfailed := hasFailed_of_error? herror
  have hcount : (s.read a).1.ended = (Signal.lines (out ++ (s.read a).2)).length := by
    rw [hread.ended_eq, hended]
    simp [LineLimits.numbered]
  have hsame : Signal.lines ((s.read a).1.step b).2 = [] := by
    rw [Signal.lines_append] at hlines
    exact List.append_right_eq_self.mp hlines
  refine ⟨a, b, ?_, hgoing, ?_, ?_, ?_, ?_, ?_, ?_⟩
  · exact ⟨rest, by simp⟩
  · rw [Course.next_read_append]
    exact length_openBytes_eq_of_beyond hfirst hone
  all_goals rw [read_of_step_fails hfailed]
  · rw [Signal.lines_append, hsame, List.append_nil]
  · rw [← List.append_assoc, hlines, hended]
  · rw [← List.append_assoc, hdiagnostics, hnone]
  · rw [← List.append_assoc, hlines, ← hcount]
    exact herror
  · exact held_of_hasFailed hfailed

end Splitter

namespace Decoder

/-! ## Decoders that have failed -/

/-- What a request of a decoder asks of its splitter. -/
def Request.forSplitter : Request → Splitter.Request
  | .read chunk => .read chunk
  | .close => .close

theorem splitter_respondAll (d : Decoder) (requests : List Request) :
    (d.respondAll requests).1.splitter =
      (d.splitter.respondAll (requests.map Request.forSplitter)).1 := by
  induction requests generalizing d with
  | nil => rfl
  | cons request requests ih =>
      rw [respondAll_cons, ih, splitter_respond, List.map_cons, Splitter.respondAll_cons]
      cases request <;> rfl

theorem respond_of_hasFailed {d : Decoder} (hd : d.Sound) (hfailed : d.splitter.hasFailed = true)
    (request : Request) :
    ∃ after, d.respond request =
      ({ d with splitter := { d.splitter with afterReturn := after } }, []) := by
  have habandon := hd hfailed
  cases request with
  | read chunk =>
      refine ⟨d.splitter.afterReturn, ?_⟩
      rw [respond, read_of_hasFailed hfailed, habandon]
  | close =>
      obtain ⟨after, hclose⟩ := Splitter.respond_of_hasFailed hfailed .close
      rw [Splitter.respond] at hclose
      refine ⟨after, ?_⟩
      rw [respond, close, hclose, BlockReader.close, habandon]

/-- After a failure a decoder completes nothing, whatever is asked of it. -/
theorem respondAll_of_hasFailed {d : Decoder} (hd : d.Sound)
    (hfailed : d.splitter.hasFailed = true) (requests : List Request) :
    ∃ after, d.respondAll requests =
      ({ d with splitter := { d.splitter with afterReturn := after } }, []) := by
  induction requests generalizing d with
  | nil => exact ⟨d.splitter.afterReturn, rfl⟩
  | cons request requests ih =>
      obtain ⟨first, hone⟩ := respond_of_hasFailed hd hfailed request
      have hnext : (d.respond request).1.Sound := by
        rw [hone]
        exact hd
      have hstill : (d.respond request).1.splitter.hasFailed = true := by
        rw [hone]
        exact hfailed
      obtain ⟨last, hrest⟩ := ih hnext hstill
      refine ⟨last, ?_⟩
      rw [respondAll_cons, hrest, hone]
      rfl

/-- A decoder that has failed holds no field, so that its end tells nothing. -/
theorem silent_of_hasFailed {d : Decoder} (hd : d.Sound) (hfailed : d.splitter.hasFailed = true) :
    d.blocks.holdsField = false ∧ d.close.2 = [] ∧ ∀ chunk, (d.read chunk).2 = ([], []) := by
  have hblock : d.blocks.holdsField = false := by
    rw [← hd hfailed]
    rfl
  refine ⟨hblock, ?_, ?_⟩
  · obtain ⟨after, hclose⟩ := Splitter.respond_of_hasFailed hfailed .close
    rw [Splitter.respond] at hclose
    simp [close, hclose, BlockReader.close, hblock]
  · intro chunk
    rw [read_of_hasFailed hfailed]

end Decoder

namespace Splitter

/-! ## After the failure -/

/-- Where the policy fails the stream, the stream fails with the first byte that is too much for one
of its lines, with the lines before it handed out and the number of the next one told.  After that
every request is answered with the same error and with nothing else, and the counters stand.  The
same holds of a decoder, which holds no block any more. -/
theorem respondAll_failure (m : Nat) (hm : 0 < m) :
    let run := (start ⟨m, .failStream⟩ hm).respondAll
    let decode := (Decoder.start ⟨m, .failStream⟩ hm).respondAll
    (∀ requests, (run requests).1.error? = none ↔ (Course.of requests).Within m) ∧
    (∀ history chunk,
      let before := run history
      let failed := (before.1.read chunk).1
      before.1.error? = none → failed.error? ≠ none →
        (∃ a b, FailsAt m (Course.of history) before.1 before.2 chunk a b) ∧
        ∀ later,
          let after := failed.respondAll later
          after.2 = [] ∧ after.1.error? = failed.error? ∧ after.1.counts = failed.counts ∧
            after.1.held = 0) ∧
    (∀ history chunk,
      let before := (decode history).1
      let failed := (before.read chunk).1
      before.error? = (run (history.map Decoder.Request.forSplitter)).1.error? ∧
        (failed.error? ≠ none → ∀ later,
          let after := failed.respondAll later
          after.2 = [] ∧ after.1.error? = failed.error? ∧ after.1.counts = failed.counts ∧
            after.1.lastEventId = failed.lastEventId ∧ after.1.blocks.holdsField = false ∧
            after.1.close.2 = [] ∧ ∀ more, (after.1.read more).2 = ([], []))) := by
  intro run decode
  refine ⟨error?_respondAll_eq_none_iff hm, ?_, ?_⟩
  · intro history chunk before failed hgoing hfails
    have hwithin := (error?_respondAll_eq_none_iff hm history).mp hgoing
    have hbeyond : ¬((Course.of history).next (.read chunk)).Within m := by
      rwa [← Course.of_concat, ← error?_respondAll_eq_none_iff hm, respondAll_concat]
    have hfollows : Follows ⟨m, .failStream⟩ (Course.of history) before.1 before.2 :=
      Follows.respondAll hm fun _ => hwithin
    obtain ⟨error, herror⟩ := Option.ne_none_iff_exists'.mp hfails
    have hfailed : failed.hasFailed = true := hasFailed_of_error? herror
    refine ⟨hfollows.exists_failsAt hwithin hbeyond, fun later => ?_⟩
    obtain ⟨after, hlater⟩ := respondAll_of_hasFailed hfailed later
    rw [hlater]
    exact ⟨rfl, rfl, rfl, held_of_hasFailed hfailed⟩
  · intro history chunk before failed
    refine ⟨?_, fun hfails later => ?_⟩
    · rw [Decoder.error?, Decoder.splitter_respondAll]
      rfl
    · obtain ⟨error, herror⟩ := Option.ne_none_iff_exists'.mp hfails
      have hfailed : failed.splitter.hasFailed = true := hasFailed_of_error? herror
      have hsound : failed.Sound := before.sound_read chunk
      obtain ⟨last, hlater⟩ := Decoder.respondAll_of_hasFailed hsound hfailed later
      rw [hlater]
      exact ⟨rfl, rfl, rfl, rfl, Decoder.silent_of_hasFailed hsound hfailed⟩

/-- The third line fails the stream before its terminator has come, in a chunk that begins with the
line feed of the second one. -/
theorem respondAll_failure_of_open_line :
    let run := (start ⟨2, .failStream⟩ Nat.zero_lt_two).respondAll
    let chunk : Bytes := [0x0a, 0x63, 0x64, 0x65]
    let failed := ((run [.read [0x61, 0x0a], .forget, .read [0x62, 0x0d]]).1.read chunk).1
    let decoder := ((Decoder.start ⟨2, .failStream⟩ Nat.zero_lt_two).read chunk).1
    failed.error? = some (.lineTooLong 2 3) ∧
      (∀ later, (failed.respondAll later).2 = [] ∧
        (failed.respondAll later).1.error? = some (.lineTooLong 2 3)) ∧
      ∀ later, (decoder.respondAll later).2 = [] ∧
        (decoder.respondAll later).1.blocks.holdsField = false := by
  intro run chunk failed decoder
  obtain ⟨hiff, hsplitter, hdecoder⟩ := respondAll_failure 2 Nat.zero_lt_two
  have hgoing := (hiff [.read [0x61, 0x0a], .forget, .read [0x62, 0x0d]]).mpr (by decide)
  have hfails := (hiff [.read [0x61, 0x0a], .forget, .read [0x62, 0x0d], .read chunk]).not.mpr
    (by decide)
  obtain ⟨⟨a, b, hat⟩, hlater⟩ := hsplitter _ chunk hgoing hfails
  have hbyte : a ++ [b] = chunk := by
    have hprefixes : ∀ bytes ∈ chunk.inits,
        ((Course.of [.read [0x61, 0x0a], .forget, .read [0x62, 0x0d]]).next
          (.read bytes)).openBytes.length = 3 → bytes = chunk := by
      decide
    exact hprefixes _ (List.mem_inits _ _ |>.mpr hat.isPrefix) hat.length_eq
  obtain ⟨rfl, -⟩ : a = [0x0a, 0x63, 0x64] ∧ b = 0x65 := List.append_singleton_inj.mp hbyte
  have herror : failed.error? = some (.lineTooLong 2 3) := by
    rw [hat.error_eq, hat.ended_eq]
    decide
  refine ⟨herror, fun later => ?_, fun later => ?_⟩
  · obtain ⟨hnothing, hsame, -⟩ := hlater later
    exact ⟨hnothing, hsame.trans herror⟩
  · have hchunk := (hiff [.read chunk]).not.mpr (by decide)
    obtain ⟨hnothing, -, -, -, hblock, -⟩ := (hdecoder [] chunk).2 hchunk later
    exact ⟨hnothing, hblock⟩

end Splitter

end ServerSentEvents
