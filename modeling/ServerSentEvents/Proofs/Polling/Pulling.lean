import ServerSentEvents.Proofs.Polling.Lines
import ServerSentEvents.Proofs.Splitter.Accounting

/-!
# How far a stream of lines reads its source

A stream of lines polls its source only where all that the source has completed is out
(`MayPull`).  `PolledLines.Pulled` ties its state to the answers that the source has given and to
the lines that have been handed out; one poll keeps it (`PolledLines.Pulled.pulls_poll`), and so
does a run of polls.  A line is then found in the chunk that was taken last, because the lines of
the chunks before it had been handed out when the source was polled for it
(`PolledLines.pulledFor_of_item`).
-/

namespace ServerSentEvents

namespace SourceItem

variable {first : List SourceItem}

theorem chunks_append (hfirst : failure? first = none) (later : List SourceItem) :
    chunks (first ++ later) = chunks first ++ chunks later := by
  induction first with
  | nil => rfl
  | cons item rest ih =>
      cases item with
      | failure cause => cases hfirst
      | chunk bytes => exact congrArg (bytes :: ·) (ih hfirst)
      | pending => exact ih hfirst

theorem failure?_append (hfirst : failure? first = none) (later : List SourceItem) :
    failure? (first ++ later) = failure? later := by
  induction first with
  | nil => rfl
  | cons item rest ih =>
      cases item with
      | failure cause => cases hfirst
      | chunk bytes => exact ih hfirst
      | pending => exact ih hfirst

/-- Until a source fails, chunks are all it has to say. -/
theorem length_given (hfirst : failure? first = none) :
    (given first).length = (chunks first).length := by
  induction first with
  | nil => rfl
  | cons item rest ih =>
      cases item with
      | failure cause => cases hfirst
      | chunk bytes => simpa [given, chunks] using ih hfirst
      | pending => simpa [given, chunks] using ih hfirst

variable {source rest : List SourceItem} {taken : Nat} {item : SourceItem}

theorem chunks_take_succ (hitem : source[taken]? = some item)
    (hunfailed : failure? (source.take taken) = none) :
    chunks (source.take (taken + 1)) = chunks (source.take taken) ++ chunks [item] := by
  rw [List.take_add_one, hitem, chunks_append hunfailed]
  rfl

theorem failure?_take_succ (hitem : source[taken]? = some item)
    (hunfailed : failure? (source.take taken) = none) :
    failure? (source.take (taken + 1)) = failure? [item] := by
  rw [List.take_add_one, hitem, failure?_append hunfailed]
  rfl

/-- What is left of a source begins with its next item. -/
theorem getElem?_of_drop_eq_cons (hleft : source.drop taken = item :: rest) :
    source[taken]? = some item ∧ source.drop (taken + 1) = rest := by
  constructor
  · rw [← List.head?_drop, hleft, List.head?_cons]
  · rw [← List.tail_drop, hleft, List.tail_cons]

/-- The bytes that come before the source fails. -/
def stream (source : List SourceItem) : Bytes :=
  (chunks source).flatten

end SourceItem

open SourceItem (chunks failure? stream)

section

variable (limits : LineLimits) (hpos : 0 < limits.maxSize) (source : List SourceItem)

/-- What a splitter makes of the first items of a source. -/
def readTo (taken : Nat) : Splitter × List Signal :=
  (Splitter.start limits hpos).readAll (chunks (source.take taken))

/-- A source that has answered so often may be polled again: it has neither failed nor ended, no
line has outgrown the limit, and all that the answers complete has been handed out. -/
structure MayPull {α : Type} (complete : List Signal → List α) (taken : Nat) (handed : List α) :
    Prop where
  within : taken ≤ source.length
  unfailed : failure? (source.take taken) = none
  going : (readTo limits hpos source taken).1.error? = none
  all_out : handed = complete (readTo limits hpos source taken).2

variable {limits hpos source}

/-- Between one poll of the source and the next there is none. -/
theorem MayPull.of_once {α : Type} {complete : List Signal → List α} {taken next : Nat}
    {handed : List α} (hmay : MayPull limits hpos source complete taken handed)
    (hfrom : taken ≤ next) (hto : next < taken + 1) :
    MayPull limits hpos source complete next handed := by
  obtain rfl : next = taken := Nat.le_antisymm (Nat.le_of_lt_succ hto) hfrom
  exact hmay

theorem readTo_zero : readTo limits hpos source 0 = (.start limits hpos, []) := rfl

theorem readTo_of_length_le {taken : Nat} (hall : source.length ≤ taken) :
    readTo limits hpos source taken = (Splitter.start limits hpos).readAll (chunks source) := by
  rw [readTo, List.take_of_length_le hall]

theorem readTo_succ (limits : LineLimits) (hpos : 0 < limits.maxSize) {taken : Nat}
    {item : SourceItem} (hitem : source[taken]? = some item)
    (hunfailed : failure? (source.take taken) = none) :
    readTo limits hpos source (taken + 1) =
      let earlier := readTo limits hpos source taken
      let later := earlier.1.readAll (chunks [item])
      (later.1, earlier.2 ++ later.2) := by
  rw [readTo, SourceItem.chunks_take_succ hitem hunfailed, Splitter.readAll_append]
  rfl

end

/-- A count that passes a bound passes it at one step. -/
theorem exists_step_past (f : Nat → Nat) {bound n : Nat} (hfrom : f 0 ≤ bound) (hto : bound < f n) :
    ∃ m < n, f m ≤ bound ∧ bound < f (m + 1) := by
  induction n with
  | zero => exact absurd hto (Nat.not_lt.mpr hfrom)
  | succ n ih =>
      by_cases hearlier : bound < f n
      · obtain ⟨m, hm, hstep⟩ := ih hearlier
        exact ⟨m, Nat.lt_succ_of_lt hm, hstep⟩
      · exact ⟨n, Nat.lt_succ_self n, Nat.not_lt.mp hearlier, hto⟩

namespace PolledLines

open PollAnswer

/-! ## One poll -/

variable (limits : LineLimits) (hpos : 0 < limits.maxSize) (source : List SourceItem)

/-- A stream that has read this source from its start has handed out these lines. -/
structure Pulled (s : PolledLines) (handed : List Line) : Prop where
  source_eq : s.source = source.drop s.sourcePolls
  reading : s.phase = .reading →
    failure? (source.take s.sourcePolls) = none ∧
      s.splitter = (readTo limits hpos source s.sourcePolls).1 ∧ s.splitter.error? = none
  /-- Until the stream is over, the lines that are not out are ready. -/
  waiting : s.phase ≠ .over →
    s.sourcePolls ≤ source.length ∧
      handed ++ s.ready = Signal.lines (readTo limits hpos source s.sourcePolls).2
  ended : s.phase = .over → s.ready = []

/-- What a poll answers where a line comes out. -/
inductive Brings (polls : Nat) (handed : List Line) (line : Line) : Prop where
  | completed (hwithin : polls ≤ source.length)
      (hline : (Signal.lines (readTo limits hpos source polls).2)[handed.length]? = some line)
  | trailing (hall : polls = source.length + 1) (hunfailed : failure? source = none)
      (hline : line ∈
        Signal.lines ((Splitter.start limits hpos).readAll (chunks source)).1.close.2)

/-- What one poll of a stream that has handed out these lines does. -/
structure Pulls (s : PolledLines) (handed : List Line)
    (polled : PolledLines × PollAnswer Line × List Notice) : Prop where
  kept : Pulled limits hpos source polled.1 (handed ++ items [polled.2.1])
  may : ∀ taken, s.sourcePolls ≤ taken → taken < polled.1.sourcePolls →
    MayPull limits hpos source Signal.lines taken handed
  brings : ∀ line, polled.2.1 = .item line →
    Brings limits hpos source polled.1.sourcePolls handed line

variable {limits hpos source} {s : PolledLines} {handed : List Line}

/-- A stream that reads and has no line ready may poll its source. -/
theorem Pulled.mayPull (h : Pulled limits hpos source s handed) (hready : s.ready = [])
    (hreading : s.phase = .reading) :
    MayPull limits hpos source Signal.lines s.sourcePolls handed := by
  obtain ⟨hunfailed, hsplitter, hgoing⟩ := h.reading hreading
  obtain ⟨hwithin, hlines⟩ := h.waiting (by simp [hreading])
  rw [hready, List.append_nil] at hlines
  exact ⟨hwithin, hunfailed, hsplitter ▸ hgoing, hlines⟩

theorem pulled_of_over (hsource : s.source = source.drop s.sourcePolls) (hready : s.ready = [])
    (hover : s.phase = .over) : Pulled limits hpos source s handed where
  source_eq := hsource
  reading := by simp [hover]
  waiting := by simp [hover]
  ended := fun _ => hready

/-- A poll that ends the stream without a line. -/
theorem pulls_of_over {polled : PolledLines × PollAnswer Line × List Notice}
    (hsource : polled.1.source = source.drop polled.1.sourcePolls) (hready : polled.1.ready = [])
    (hover : polled.1.phase = .over) (hfinal : polled.2.1.isFinal = true)
    (hmay : ∀ taken, s.sourcePolls ≤ taken → taken < polled.1.sourcePolls →
      MayPull limits hpos source Signal.lines taken handed) :
    Pulls limits hpos source s handed polled where
  kept := pulled_of_over hsource hready hover
  may := hmay
  brings := by
    intro line hitem
    rw [hitem] at hfinal
    cases hfinal

theorem Pulled.pulls_takeEnd (h : Pulled limits hpos source s handed) (hready : s.ready = [])
    (hreading : s.phase = .reading) (hsource : s.source = []) :
    Pulls limits hpos source s handed { s with sourcePolls := s.sourcePolls + 1 }.takeEnd := by
  have hmay := h.mayPull hready hreading
  have hleft := h.source_eq
  rw [hsource] at hleft
  have hall : source.length ≤ s.sourcePolls := List.drop_eq_nil_iff.mp hleft.symm
  have hlength : s.sourcePolls = source.length := Nat.le_antisymm hmay.within hall
  rw [takeEnd_eq]
  refine ⟨pulled_of_over ?_ hready rfl, ?_, ?_⟩
  · rw [hsource]
    exact (List.drop_eq_nil_of_le (Nat.le_succ_of_le hall)).symm
  · intro taken hfrom hto
    exact hmay.of_once hfrom hto
  · intro line hitem
    refine .trailing (congrArg (· + 1) hlength) ?_ ?_
    · have hunfailed := hmay.unfailed
      rwa [List.take_of_length_le hall] at hunfailed
    · have hsplitter := (h.reading hreading).2.1
      rw [readTo_of_length_le hall] at hsplitter
      rw [← hsplitter]
      cases hhead : (Signal.lines s.splitter.close.2).head? with
      | none => simp [hhead] at hitem
      | some first =>
          obtain rfl : first = line := by simpa [hhead] using hitem
          exact List.mem_of_head? hhead

/-- A chunk completes lines that are then ready, or a line outgrows the limit in it. -/
theorem Pulled.takeChunk (h : Pulled limits hpos source s handed) (hready : s.ready = [])
    (hreading : s.phase = .reading) {bytes : Bytes} {rest : List SourceItem}
    (hsource : s.source = .chunk bytes :: rest) :
    Pulled limits hpos source
      ({ s with source := rest, sourcePolls := s.sourcePolls + 1 }.takeChunk bytes).1 handed := by
  obtain ⟨hunfailed, hsplitter, hgoing⟩ := h.reading hreading
  obtain ⟨hitem, hrest⟩ := SourceItem.getElem?_of_drop_eq_cons (h.source_eq ▸ hsource)
  have hread := readTo_succ limits hpos hitem hunfailed
  simp only [SourceItem.chunks, Splitter.readAll_cons, Splitter.readAll_nil, List.append_nil,
    ← hsplitter] at hread
  have hwithin : s.sourcePolls + 1 ≤ source.length := (List.getElem?_eq_some_iff.mp hitem).1
  have hall := (h.mayPull hready hreading).all_out
  refine ⟨hrest.symm, ?_, ?_, ?_⟩
  · intro hstill
    refine ⟨(SourceItem.failure?_take_succ hitem hunfailed).trans rfl, ?_, ?_⟩
    · exact (congrArg Prod.fst hread).symm
    · cases herror : (s.splitter.read bytes).1.error? with
      | none => exact herror
      | some error => simp [PolledLines.takeChunk, herror] at hstill
  · intro _
    refine ⟨hwithin, ?_⟩
    have hlines : Signal.lines (readTo limits hpos source (s.sourcePolls + 1)).2 =
        handed ++ Signal.lines (s.splitter.read bytes).2 := by
      rw [hread, Signal.lines_append, ← hall]
    simpa [PolledLines.takeChunk, hready] using hlines.symm
  · intro hover
    cases herror : (s.splitter.read bytes).1.error? <;>
      simp [PolledLines.takeChunk, herror, hreading] at hover

/-- An item that holds no bytes completes nothing. -/
theorem Pulled.skip (h : Pulled limits hpos source s handed) (hready : s.ready = [])
    (hreading : s.phase = .reading) {rest : List SourceItem}
    (hsource : s.source = .pending :: rest) :
    Pulled limits hpos source { s with source := rest, sourcePolls := s.sourcePolls + 1 }
      handed := by
  obtain ⟨hunfailed, hsplitter, hgoing⟩ := h.reading hreading
  obtain ⟨hitem, hrest⟩ := SourceItem.getElem?_of_drop_eq_cons (h.source_eq ▸ hsource)
  have hread : readTo limits hpos source (s.sourcePolls + 1) =
      readTo limits hpos source s.sourcePolls := by
    rw [readTo_succ limits hpos hitem hunfailed]
    simp [SourceItem.chunks]
  refine ⟨hrest.symm, ?_, ?_, ?_⟩
  · intro _
    refine ⟨(SourceItem.failure?_take_succ hitem hunfailed).trans rfl, ?_, hgoing⟩
    rw [hread]
    exact hsplitter
  · intro _
    refine ⟨(List.getElem?_eq_some_iff.mp hitem).1, ?_⟩
    rw [hread, hready, List.append_nil]
    exact (h.mayPull hready hreading).all_out
  · intro _
    exact hready

/-- A stream that may poll its source goes on after having polled it. -/
theorem Pulls.after {taken : PolledLines}
    (hmay : MayPull limits hpos source Signal.lines s.sourcePolls handed)
    (hpolls : taken.sourcePolls = s.sourcePolls + 1)
    {polled : PolledLines × PollAnswer Line × List Notice}
    (h : Pulls limits hpos source taken handed polled) (notices : List Notice) :
    Pulls limits hpos source s handed (polled.1, polled.2.1, notices) where
  kept := h.kept
  may := by
    intro k hfrom hto
    rcases Nat.eq_or_lt_of_le hfrom with rfl | hlt
    · exact hmay
    · exact h.may k (by omega) hto
  brings := h.brings

/-- A line that is ready comes out without a poll of the source. -/
theorem Pulled.pulls_ready (h : Pulled limits hpos source s handed) {line : Line}
    {ready : List Line} (hready : s.ready = line :: ready) :
    Pulls limits hpos source s handed ({ s with ready }, .item line, []) := by
  have hgoing : s.phase ≠ .over := by
    intro hover
    have hnone := h.ended hover
    simp [hready] at hnone
  obtain ⟨hwithin, hlines⟩ := h.waiting hgoing
  rw [hready] at hlines
  refine ⟨⟨h.source_eq, h.reading, ?_, ?_⟩, ?_, ?_⟩
  · intro _
    refine ⟨hwithin, ?_⟩
    rw [← hlines]
    simp [items, item?]
  · intro hover
    exact absurd hover hgoing
  · intro taken hfrom hto
    exact absurd hto (Nat.not_lt.mpr hfrom)
  · rintro _ ⟨⟩
    refine .completed hwithin ?_
    rw [← hlines]
    simp

/-- Every poll keeps to what has been pulled. -/
theorem Pulled.pulls_poll (h : Pulled limits hpos source s handed) :
    Pulls limits hpos source s handed s.poll := by
  fun_induction poll s with
  | case1 s line ready hready => exact h.pulls_ready hready
  | case2 s hready error hfailing =>
      refine pulls_of_over h.source_eq rfl rfl rfl ?_
      intro taken hfrom hto
      exact absurd hto (Nat.not_lt.mpr hfrom)
  | case3 s hready hover =>
      refine pulls_of_over h.source_eq hready hover rfl ?_
      intro taken hfrom hto
      exact absurd hto (Nat.not_lt.mpr hfrom)
  | case4 s hready hreading hsource =>
      exact h.pulls_takeEnd hready hreading hsource
  | case5 s hready hreading rest hsource =>
      have hkept := h.skip hready hreading hsource
      refine ⟨?_, ?_, by simp⟩
      · rw [← List.append_nil handed] at hkept
        exact hkept
      · intro taken hfrom hto
        exact (h.mayPull hready hreading).of_once hfrom hto
  | case6 s hready hreading cause rest hsource =>
      have hrest := (SourceItem.getElem?_of_drop_eq_cons (h.source_eq ▸ hsource)).2
      refine pulls_of_over hrest.symm rfl rfl rfl ?_
      intro taken hfrom hto
      exact (h.mayPull hready hreading).of_once hfrom hto
  | case7 s hready hreading bytes rest hsource taken notices htaken next answer later hpolled ih =>
      have hkept := h.takeChunk hready hreading hsource
      have hpolls := congrArg (·.1.sourcePolls) htaken
      rw [htaken] at hkept
      have hpulls := ih hkept
      rw [hpolled] at hpulls
      exact hpulls.after (h.mayPull hready hreading) hpolls.symm (notices ++ later)

end PolledLines

/-! ## Which items of a source a line needs -/

/-- A line that a splitter emits for a chunk has its terminator in this chunk. -/
theorem Splitter.exists_ends_of_mem_read {limits : LineLimits} {hpos : 0 < limits.maxSize}
    {before : List Bytes} {chunk : Bytes} {line : Line}
    (hgoing : ((start limits hpos).readAll before).1.error? = none)
    (hline : line ∈ Signal.lines (((start limits hpos).readAll before).1.read chunk).2) :
    ∃ k position, (Bytes.ends (before.flatten ++ chunk))[k]? = some position ∧
      before.flatten.length ≤ position ∧
      limits.line? (k + 1) (Bytes.remainder ((before.flatten ++ chunk).take position)) =
        some line := by
  have hbefore := Reads.readAll limits hpos before
  have hafter := Reads.readAll limits hpos (before ++ [chunk])
  rw [readAll_append, List.flatten_append, List.flatten_singleton] at hafter
  have hmem : line ∈ limits.linesOf (before.flatten ++ chunk) := by
    rw [← hafter.lines_eq, readAll_cons, Signal.lines_append]
    exact List.mem_append_right _ (by simpa using hline)
  obtain ⟨k, text, htext, hmade⟩ := LineLimits.exists_of_mem_linesOf hmem
  -- The books say that the line has a number beyond those of the lines that have ended before.
  have hnew : (Bytes.lines before.flatten).length ≤ k := by
    have haligned := (books_respondAll (aligned_start limits hpos) (before.map .read)).2
    rw [respondAll_read] at haligned
    have hsettled := (Signal.numbers_lines_sublist _).subset (List.mem_map_of_mem hline)
    rw [(books_read haligned chunk).1.settled_eq, List.mem_range'_1,
      LineLimits.number_of_line? hmade] at hsettled
    have hended := (hbefore.reading (by
      rw [← hbefore.hasFailed_iff, error?_eq_none_iff.mp hgoing]
      simp)).2.1
    omega
  obtain ⟨position, hends, hfrom⟩ := Bytes.exists_getElem?_ends before.flatten chunk hnew
    (List.getElem?_eq_some_iff.mp htext).1
  refine ⟨k, position, hends, hfrom, ?_⟩
  rw [Bytes.getElem?_lines_of_getElem?_ends hends] at htext
  rwa [Option.some.inj htext]

/-- The last chunk of so many answers of a source is the one in which the terminator of this line
begins: the line is what the limits leave of the bytes before the terminator. -/
def EndsInLast (limits : LineLimits) (source : List SourceItem) (polls : Nat) (line : Line) :
    Prop :=
  ∃ k position j, (Bytes.ends (stream source))[k]? = some position ∧
    limits.line? (k + 1) (Bytes.remainder ((stream source).take position)) = some line ∧
    (SourceItem.given (source.take polls)).length = j + 1 ∧
    ((chunks source).take j).flatten.length ≤ position ∧
    position < ((chunks source).take (j + 1)).flatten.length

/-- A source has been polled as often as this line needs: as far as the chunk in which its
terminator begins, or, where it has none, to the end. -/
inductive PulledFor (limits : LineLimits) (source : List SourceItem) (polls : Nat) (line : Line) :
    Prop where
  | terminated (hends : EndsInLast limits source polls line)
  | trailing (hopen : Bytes.remainder (stream source) ≠ [])
      (hline : limits.line? ((Bytes.lines (stream source)).length + 1)
        (Bytes.remainder (stream source)) = some line)
      (hunfailed : failure? source = none) (hall : polls = source.length + 1)

section

variable {limits : LineLimits} {hpos : 0 < limits.maxSize} {source : List SourceItem} {line : Line}

/-- The lines that come with a chunk have their terminators in it. -/
theorem EndsInLast.of_mem_read {taken : Nat} {bytes : Bytes}
    (hitem : source[taken]? = some (.chunk bytes))
    (hunfailed : failure? (source.take taken) = none)
    (hgoing : (readTo limits hpos source taken).1.error? = none)
    (hline : line ∈ Signal.lines ((readTo limits hpos source taken).1.read bytes).2) :
    EndsInLast limits source (taken + 1) line := by
  have hchunks : chunks (source.take (taken + 1)) = chunks (source.take taken) ++ [bytes] :=
    SourceItem.chunks_take_succ hitem hunfailed
  have hnow : failure? (source.take (taken + 1)) = none :=
    SourceItem.failure?_take_succ hitem hunfailed
  have hsource : chunks source =
      (chunks (source.take taken) ++ [bytes]) ++ chunks (source.drop (taken + 1)) := by
    rw [← hchunks, ← SourceItem.chunks_append hnow, List.take_append_drop]
  have hlength : (chunks (source.take taken) ++ [bytes]).length =
      (chunks (source.take taken)).length + 1 := List.length_append
  obtain ⟨k, position, hends, hfrom, hmade⟩ := Splitter.exists_ends_of_mem_read hgoing hline
  have hto := Bytes.lt_of_mem_ends (List.mem_of_getElem? hends)
  have hstream : stream source =
      ((chunks (source.take taken)).flatten ++ bytes) ++
        (chunks (source.drop (taken + 1))).flatten := by
    rw [stream, hsource]
    simp
  have htaken : (SourceItem.given (source.take (taken + 1))).length =
      (chunks (source.take taken)).length + 1 := by
    rw [SourceItem.length_given hnow, hchunks, hlength]
  refine ⟨k, position, (chunks (source.take taken)).length, ?_, ?_, htaken, ?_, ?_⟩
  · rw [hstream]
    exact Bytes.getElem?_ends_append _ hends
  · rw [hstream, List.take_append_of_le_length (Nat.le_of_lt hto)]
    exact hmade
  · rw [hsource, List.append_assoc, List.take_left' rfl]
    exact hfrom
  · rw [hsource, List.take_left' hlength]
    simpa using hto

/-- A line that one more item brings comes with a chunk, and has its terminator in it. -/
theorem EndsInLast.of_new {taken i : Nat} (hwithin : taken < source.length)
    (hunfailed : failure? (source.take taken) = none)
    (hgoing : (readTo limits hpos source taken).1.error? = none)
    (hearlier : (Signal.lines (readTo limits hpos source taken).2).length ≤ i)
    (hline : (Signal.lines (readTo limits hpos source (taken + 1)).2)[i]? = some line) :
    EndsInLast limits source (taken + 1) line := by
  have hitem : source[taken]? = some source[taken] := List.getElem?_eq_getElem hwithin
  rw [readTo_succ limits hpos hitem hunfailed, Signal.lines_append,
    List.getElem?_append_right hearlier] at hline
  have hmem := List.mem_of_getElem? hline
  cases hkind : source[taken] with
  | chunk bytes =>
      rw [hkind] at hitem hmem
      refine .of_mem_read hitem hunfailed hgoing ?_
      simpa [SourceItem.chunks, Splitter.readAll_cons] using hmem
  | failure cause => simp [hkind, SourceItem.chunks] at hmem
  | pending => simp [hkind, SourceItem.chunks] at hmem

/-- The line that the end leaves takes all of a source. -/
theorem PulledFor.of_mem_close (hunfailed : failure? source = none)
    (hline : line ∈
      Signal.lines ((Splitter.start limits hpos).readAll (chunks source)).1.close.2) :
    PulledFor limits source (source.length + 1) line := by
  have hreads := Splitter.Reads.readAll limits hpos (chunks source)
  rw [hreads.signals_close.1, Option.mem_toList] at hline
  obtain ⟨rest, hrest, hmade⟩ := Option.bind_eq_some_iff.mp hline
  unfold LineLimits.trailing? at hrest
  split at hrest
  · cases hrest
  · next hopen =>
      obtain rfl := Option.some.inj hrest
      exact .trailing (fun hempty => hopen (Or.inr hempty)) hmade hunfailed rfl

/-- An empty line has its terminator. -/
theorem PulledFor.endsInLast {polls : Nat} (h : PulledFor limits source polls line)
    (hpos : 0 < limits.maxSize) (hblank : line.bytes = []) :
    EndsInLast limits source polls line := by
  cases h with
  | terminated hends => exact hends
  | trailing hopen hline => exact absurd hblank (LineLimits.ne_nil_of_line? hpos hopen hline)

end

namespace PolledLines

open PollAnswer

/-! ## Runs of polls -/

variable (limits : LineLimits) (hpos : 0 < limits.maxSize) (source : List SourceItem)

theorem pulled_start : Pulled limits hpos source (start limits hpos source) [] where
  source_eq := rfl
  reading := fun _ => ⟨rfl, rfl, rfl⟩
  waiting := fun _ => ⟨Nat.zero_le _, rfl⟩
  ended := fun _ => rfl

/-- However often a stream of lines has been polled, it keeps to what has been pulled. -/
theorem pulled_pollTimes (n : Nat) :
    Pulled limits hpos source (pollTimes poll (start limits hpos source) n).1
      (items (pollTimes poll (start limits hpos source) n).2.1) := by
  induction n with
  | zero => exact pulled_start limits hpos source
  | succ n ih =>
      rw [pollTimes_succ, items_append]
      exact ih.pulls_poll.kept

variable {limits hpos source}

/-- The source is polled where it may be. -/
theorem mayPull_of_between {n taken : Nat}
    (hfrom : (pollTimes poll (start limits hpos source) n).1.sourcePolls ≤ taken)
    (hto : taken < (pollTimes poll (start limits hpos source) (n + 1)).1.sourcePolls) :
    MayPull limits hpos source Signal.lines taken
      (items (pollTimes poll (start limits hpos source) n).2.1) := by
  rw [pollTimes_succ] at hto
  exact (pulled_pollTimes limits hpos source n).pulls_poll.may taken hfrom hto

/-- A line comes out when the source has been polled just so often as the line needs. -/
theorem pulledFor_of_item (n : Nat) {line : Line}
    (hitem : (pollTimes poll (start limits hpos source) n).1.poll.2.1 = .item line) :
    PulledFor limits source
      (pollTimes poll (start limits hpos source) n).1.poll.1.sourcePolls line := by
  cases (pulled_pollTimes limits hpos source n).pulls_poll.brings line hitem with
  | trailing hall hunfailed hline =>
      rw [hall]
      exact .of_mem_close hunfailed hline
  | completed hwithin hline =>
      generalize hpolls : (pollTimes poll (start limits hpos source) n).1.poll.1.sourcePolls = polls
        at hwithin hline ⊢
      cases polls with
      | zero => simp [readTo_zero] at hline
      | succ taken =>
          have hpolled :
              taken < (pollTimes poll (start limits hpos source) (n + 1)).1.sourcePolls := by
            rw [pollTimes_succ]
            exact Nat.lt_of_succ_le hpolls.ge
          obtain ⟨m, hm, hfrom, hto⟩ := exists_step_past
            (fun m => (pollTimes poll (start limits hpos source) m).1.sourcePolls)
            (Nat.zero_le taken) hpolled
          have hmay := mayPull_of_between hfrom hto
          have hearlier := ((answers_pollTimes_isPrefix poll (start limits hpos source)
            (Nat.le_of_lt_succ hm)).filterMap item?).length_le
          change (items _).length ≤ (items _).length at hearlier
          rw [hmay.all_out] at hearlier
          exact .terminated (.of_new hwithin hmay.unfailed hmay.going hearlier hline)

/-- A stream whose next poll changes anything has given no final answer. -/
theorem isFinal_eq_false_of_poll_ne {n : Nat}
    (hgoes : (pollTimes poll (start limits hpos source) n).1.poll ≠
      ((pollTimes poll (start limits hpos source) n).1, .ended, [])) :
    ∀ answer ∈ (pollTimes poll (start limits hpos source) n).2.1, answer.isFinal = false := by
  intro answer hanswer
  by_contra hfinal
  exact hgoes (foretold.poll_of_isFinal (sound_start limits hpos source)
    ⟨answer, hanswer, by simpa using hfinal⟩)

end PolledLines

end ServerSentEvents
