import ServerSentEvents.Proofs.Decoding
import ServerSentEvents.Proofs.Emission

/-!
# Which line loses its byte-order mark

A block reader removes a byte-order mark from the first line that it is given.  That is the first
line of the stream unless the stream begins with oversized lines that are dropped or rerouted: then
it is the line after them, and the mark that line loses is not at the start of the stream.
-/

namespace ServerSentEvents

/-- The field of a line, where the line with this number loses the mark at its start. -/
def Line.field? (marked : Nat) (line : Line) : Option Field :=
  Field.ofLine? (if line.number = marked then BlockReader.stripMark line.bytes else line.bytes)

namespace LineLimits

/-- Whether nothing is handed out for a line, not even its head. -/
def withholds (limits : LineLimits) (line : Bytes) : Bool :=
  !limits.admits line && limits.overflow != .truncate

/-- The number that the first line handed out has, if the stream has such a line. -/
def firstHandedOut (limits : LineLimits) (stream : Bytes) : Nat :=
  ((limits.reached (Bytes.lines stream)).takeWhile limits.withholds).length + 1

variable {limits : LineLimits} {stream : Bytes}

theorem line?_eq_none_iff {n : Nat} {line : Bytes} :
    limits.line? n line = none ↔ limits.withholds line = true := by
  cases hfits : limits.admits line <;> simp [line?, withholds, hfits]

/-- The lines handed out for lines that are numbered from `number`. -/
def linesFrom (limits : LineLimits) (number : Nat) (lines : List Bytes) : List Line :=
  (lines.zipIdx number).filterMap fun (line, number) => limits.line? number line

theorem linesFrom_cons (limits : LineLimits) (number : Nat) (line : Bytes) (lines : List Bytes) :
    limits.linesFrom number (line :: lines) =
      (limits.line? number line).toList ++ limits.linesFrom (number + 1) lines := by
  rw [linesFrom, List.zipIdx_cons, List.filterMap_cons]
  cases hline : limits.line? number line <;> simp [hline, linesFrom]

theorem le_number_of_mem_linesFrom {number : Nat} {lines : List Bytes} {made : Line}
    (hmade : made ∈ limits.linesFrom number lines) : number ≤ made.number := by
  obtain ⟨⟨line, n⟩, hmem, hline⟩ := List.mem_filterMap.mp hmade
  rw [number_of_line? hline]
  exact (List.mem_zipIdx hmem).1

/-- The first line handed out comes right after the lines that are not, and before all others. -/
theorem linesFrom_cases (limits : LineLimits) (number : Nat) (lines : List Bytes) :
    limits.linesFrom number lines = [] ∨
      ∃ first others, limits.linesFrom number lines = first :: others ∧
        first.number = number + (lines.takeWhile limits.withholds).length ∧
        ∀ other ∈ others, first.number < other.number := by
  induction lines generalizing number with
  | nil => exact Or.inl rfl
  | cons line lines ih =>
      rw [linesFrom_cons]
      cases hline : limits.line? number line with
      | none =>
          rw [List.takeWhile_cons_of_pos (line?_eq_none_iff.mp hline), List.length_cons]
          rcases ih (number + 1) with hnone | ⟨first, others, heq, hfirst, hothers⟩
          · exact Or.inl hnone
          · exact Or.inr ⟨first, others, heq, by rw [hfirst]; omega, hothers⟩
      | some made =>
          have hhanded : ¬limits.withholds line = true := by
            rw [← line?_eq_none_iff (n := number), hline]
            exact Option.some_ne_none made
          have hfirst := number_of_line? hline
          rw [List.takeWhile_cons_of_neg hhanded]
          refine Or.inr ⟨made, _, rfl, hfirst, ?_⟩
          intro other hother
          rw [hfirst]
          exact le_number_of_mem_linesFrom hother

/-- The first of the lines handed out has the number that no other has. -/
theorem linesOf_cases (limits : LineLimits) (stream : Bytes) :
    limits.linesOf stream = [] ∨
      ∃ first others, limits.linesOf stream = first :: others ∧
        first.number = limits.firstHandedOut stream ∧
        ∀ other ∈ others, other.number ≠ limits.firstHandedOut stream := by
  rcases limits.linesFrom_cases 1 (limits.reached (Bytes.lines stream)) with
    hnone | ⟨first, others, heq, hfirst, hothers⟩
  · exact Or.inl hnone
  · rw [Nat.add_comm] at hfirst
    refine Or.inr ⟨first, others, heq, hfirst, ?_⟩
    intro other hother
    have hlater := hothers other hother
    rw [hfirst] at hlater
    exact hlater.ne'

/-- The fields of the lines handed out are those of a stream that consists of them. -/
theorem ofLines_linesOf (limits : LineLimits) (stream : Bytes) :
    Field.ofLines ((limits.linesOf stream).map (·.bytes)) =
      (limits.linesOf stream).map (Line.field? (limits.firstHandedOut stream)) := by
  rcases limits.linesOf_cases stream with hnone | ⟨first, others, heq, hfirst, hothers⟩
  · simp [hnone, Field.ofLines]
  · have hunmarked : others.map (Line.field? (limits.firstHandedOut stream)) =
        others.map fun line => Field.ofLine? line.bytes := by
      refine List.map_congr_left fun other hother => ?_
      rw [Line.field?, if_neg (hothers other hother)]
    rw [heq, List.map_cons, List.map_cons, Field.ofLines, List.map_map, hunmarked, Line.field?,
      if_pos hfirst]
    rfl

/-- Only oversized lines come before the first line handed out, and only a policy that hands out
nothing for them lets them. -/
theorem before_firstHandedOut (limits : LineLimits) (stream : Bytes) :
    (∀ line ∈ (Bytes.lines stream).take (limits.firstHandedOut stream - 1),
        limits.admits line = false) ∧
      (limits.firstHandedOut stream ≠ 1 →
        limits.overflow = .logAndSkip ∨ limits.overflow = .deadLetter) := by
  have hsilent : (limits.reached (Bytes.lines stream)).takeWhile limits.withholds <+:
      Bytes.lines stream := by
    refine (List.takeWhile_prefix _).trans ?_
    unfold reached
    split
    · exact List.takeWhile_prefix _
    · exact List.prefix_rfl
  rw [firstHandedOut, Nat.add_sub_cancel, ← List.prefix_iff_eq_take.mp hsilent]
  have hbeyond : ∀ line ∈ (limits.reached (Bytes.lines stream)).takeWhile limits.withholds,
      line ∈ limits.reached (Bytes.lines stream) ∧ limits.admits line = false ∧
        limits.overflow ≠ .truncate := by
    intro line hline
    have hnothing := List.mem_takeWhile_imp hline
    refine ⟨(List.takeWhile_prefix _).subset hline, ?_⟩
    simpa [withholds] using hnothing
  refine ⟨fun line hline => (hbeyond line hline).2.1, ?_⟩
  intro hlater
  have hsome : 0 < ((limits.reached (Bytes.lines stream)).takeWhile limits.withholds).length := by
    omega
  obtain ⟨line, hline⟩ := List.exists_mem_of_length_pos hsome
  obtain ⟨hreached, hlong, hpolicy⟩ := hbeyond line hline
  cases hoverflow : limits.overflow with
  | failStream =>
      rw [reached, if_pos hoverflow] at hreached
      rw [List.mem_takeWhile_imp hreached] at hlong
      cases hlong
  | logAndSkip => exact Or.inl rfl
  | truncate => exact absurd hoverflow hpolicy
  | deadLetter => exact Or.inr rfl

end LineLimits

namespace Decoder

/-- The events of a stream are those of the lines that are handed out, where the first of them loses
the mark at its start and every other line is read as it is.  The first line handed out is the first
of the stream, or all lines before it are oversized and the policy hands out nothing for them. -/
theorem readAll_marked (limits : LineLimits) (hpos : 0 < limits.maxSize) (chunks : List Bytes) :
    let handed := limits.linesOf chunks.flatten
    let first := limits.firstHandedOut chunks.flatten
    let taken := ({ begun := !handed.isEmpty } : BlockReader).takeFields
      (handed.map (Line.field? first))
    let read := (start limits hpos).readAll chunks
    read.2.1 = taken.2 ∧ read.1.lastEventId = taken.1.lastEventId ∧
      (∀ source n, SourceItem.chunks source = chunks →
        read.2.1.length + 1 + SourceItem.waits source ≤ n →
          PollAnswer.items (pollTimes PolledEvents.poll (.start limits hpos source) n).2.1 =
            taken.2) ∧
      (∀ line ∈ handed.head?, line.number = first) ∧
      (∀ line ∈ (Bytes.lines chunks.flatten).take (first - 1), limits.admits line = false) ∧
      (first ≠ 1 → limits.overflow = .logAndSkip ∨ limits.overflow = .deadLetter) := by
  intro handed first taken read
  have hreads := Splitter.Reads.readAll limits hpos chunks
  have htaken : ({} : BlockReader).takeAll
      (Signal.lines ((Splitter.start limits hpos).readAll chunks).2) = taken := by
    rw [hreads.lines_eq, BlockReader.takeAll_start, LineLimits.ofLines_linesOf]
  have hread := readAll_eq (sound_start limits hpos) chunks
  have hevents : read.2.1 = taken.2 := by
    rw [← htaken]
    exact congrArg (·.2.1) hread
  have hid : read.1.lastEventId = taken.1.lastEventId := by
    rw [← htaken]
    refine (congrArg (·.1.lastEventId) hread).trans ?_
    dsimp only [lastEventId]
    split <;> rfl
  refine ⟨hevents, hid, ?_, ?_, limits.before_firstHandedOut chunks.flatten⟩
  · rintro source n rfl henough
    rw [← hevents]
    exact PolledEvents.items_pollTimes limits hpos source henough
  · intro line hline
    rcases limits.linesOf_cases chunks.flatten with hnone | ⟨head, others, heq, hfirst, -⟩
    · simp [handed, hnone] at hline
    · obtain rfl : head = line := by simpa [handed, heq] using hline
      exact hfirst

/-- After an oversized line that is dropped, the second line of the stream loses its mark. -/
theorem readAll_marked_of_dropped :
    let chunks := [Utf8.encode "data: toolong\n" ++ BlockReader.byteOrderMark ++
      Utf8.encode "data\n\n"]
    let source := chunks.map SourceItem.chunk
    let start := Decoder.start ⟨8, .logAndSkip⟩ (Nat.succ_pos 7)
    LineLimits.firstHandedOut ⟨8, .logAndSkip⟩ chunks.flatten = 2 ∧
      (start.readAll chunks).2.1 = [⟨none, none, none, ""⟩] ∧
      PollAnswer.items (pollTimes PolledEvents.poll
        (.start ⟨8, .logAndSkip⟩ (Nat.succ_pos 7) source) 2).2.1 = [⟨none, none, none, ""⟩] := by
  intro chunks source start
  obtain ⟨hevents, -, hpolled, -⟩ := readAll_marked ⟨8, .logAndSkip⟩ (Nat.succ_pos 7) chunks
  have hread : (start.readAll chunks).2.1 = [⟨none, none, none, ""⟩] :=
    hevents.trans (by decide +kernel)
  refine ⟨by decide +kernel, hread, (hpolled source 2 rfl ?_).trans (by decide +kernel)⟩
  rw [hread]
  decide

/-- It is not always the first line of the stream that loses its mark. -/
theorem not_readAll_of_marked_first :
    ¬∀ (limits : LineLimits) (hpos : 0 < limits.maxSize) (chunks : List Bytes),
      let handed := limits.linesOf chunks.flatten
      ((start limits hpos).readAll chunks).2.1 =
        (({ begun := !handed.isEmpty } : BlockReader).takeFields
          (handed.map (Line.field? 1))).2 := by
  intro hfirst
  have hevents := hfirst ⟨8, .logAndSkip⟩ (Nat.succ_pos 7)
    [Utf8.encode "data: toolong\n" ++ BlockReader.byteOrderMark ++ Utf8.encode "data\n\n"]
  rw [readAll_eq (sound_start _ _), Splitter.readAll_eq_run] at hevents
  exact absurd hevents (by decide +kernel)

end Decoder

end ServerSentEvents
