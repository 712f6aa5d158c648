import ServerSentEvents.Proofs.Printing

/-!
# Printed events are read back

A decoder that is handed the text printed for events returns these events, whatever ends the lines
of the text and wherever it is cut into chunks, if its limit has room for the lines.
-/

namespace ServerSentEvents

namespace Splitter

theorem Reads.close_of_remainder {limits : LineLimits} {stream : Bytes} {s : Splitter}
    {out : List Signal} (h : Reads limits stream s out) (hgoing : s.error? = none)
    (hended : Bytes.remainder stream = []) : s.close.2 = [] := by
  have hstill : ¬limits.Fails stream := by
    intro hfails
    rw [error?_eq_none_iff, h.hasFailed_iff.mpr hfails] at hgoing
    cases hgoing
  obtain ⟨hcurrent, -, -⟩ := h.reading hstill
  rw [hended, openLine_nil] at hcurrent
  simp [close, hcurrent]

end Splitter

namespace Decoder

variable {limits : LineLimits} {events : List Event} {t : Terminator} {chunks : List Bytes}

/-- What a decoder makes of the text printed for events. -/
theorem readAll_encode_printedAll (hpos : 0 < limits.maxSize)
    (hevents : ∀ e ∈ events, e.Printable)
    (hroom : ∀ line ∈ Bytes.lines (Utf8.encode (Event.printedAll events)),
      line.length ≤ limits.maxSize)
    (hchunks : chunks.flatten = t.encode (Event.printedAll events)) :
    let read := (start limits hpos).readAll chunks
    read.1.error? = none ∧ Notice.diagnostics read.2.2 = [] ∧ read.2.1 = events ∧
      read.1.blocks.block = {} ∧ read.1.lastEventId = (events.filterMap (·.id)).getLast? := by
  obtain ⟨hcut, hfields⟩ := Event.cut_encode_printedAll t hevents
  obtain ⟨hfeeds, -⟩ := Event.cut_encode_printedAll .lineFeed hevents
  -- The terminator makes no difference to the lines, so that they fit whatever it is.
  have hlines : Bytes.lines chunks.flatten = (Event.printedFields events).map Field.line := by
    rw [hchunks, Bytes.lines, hcut]
  have hended : Bytes.remainder chunks.flatten = [] := by
    rw [hchunks, Bytes.remainder, hcut]
  have hfit : ∀ line ∈ Bytes.lines chunks.flatten, limits.admits line = true := by
    intro line hline
    rw [← Terminator.encode_lineFeed, Bytes.lines, hfeeds, ← hlines] at hroom
    simpa [LineLimits.admits] using hroom line hline
  obtain ⟨hread, hnone, hgoing⟩ := readAll_of_admits limits hpos chunks hfit
  obtain ⟨herror, hblocks⟩ := hgoing (by rw [hended, LineLimits.admits_nil])
  have htaken := BlockReader.takeFields_printedFields
    (r := { begun := !(Bytes.lines chunks.flatten).isEmpty }) rfl events
  rw [hlines, hfields, ← hlines, htaken] at hread hblocks
  refine ⟨herror, hnone, hread, ?_, ?_⟩
  · rw [hblocks]
  · rw [lastEventId, hblocks, Option.or_none]

/-- A decoder that is handed the text printed for events, with any terminator for its line feeds and
cut into chunks anywhere, returns these events.  It does not fail and reports nothing, holds no
field in the end and has nothing to tell when it is closed, and the last event id is that of the
last event that carries one. -/
theorem readAll_printed (hpos : 0 < limits.maxSize) (hevents : ∀ e ∈ events, e.Printable)
    (hroom : ∀ line ∈ Bytes.lines (Utf8.encode (Event.printedAll events)),
      line.length ≤ limits.maxSize)
    (hchunks : chunks.flatten = t.encode (Event.printedAll events)) :
    let read := (start limits hpos).readAll chunks
    read.1.error? = none ∧ Notice.diagnostics read.2.2 = [] ∧ read.2.1 = events ∧
      read.1.blocks.holdsField = false ∧ read.1.close.2 = [] ∧
      read.1.lastEventId = (events.filterMap (·.id)).getLast? := by
  obtain ⟨herror, hnone, hread, hblock, hid⟩ :=
    readAll_encode_printedAll hpos hevents hroom hchunks
  have hfree : ((start limits hpos).readAll chunks).1.blocks.holdsField = false := by
    rw [BlockReader.holdsField, hblock]
    rfl
  have hended : Bytes.remainder chunks.flatten = [] := by
    rw [hchunks, Bytes.remainder, (Event.cut_encode_printedAll t hevents).1]
  have hsplitter : ((start limits hpos).readAll chunks).1.splitter.close.2 = [] := by
    have hreads := Splitter.Reads.readAll limits hpos chunks
    rw [readAll_eq (sound_start limits hpos)] at herror ⊢
    exact hreads.close_of_remainder herror hended
  refine ⟨herror, hnone, hread, hfree, ?_, hid⟩
  rw [close]
  dsimp only
  rw [hsplitter, BlockReader.close, hfree]
  rfl

/-- A value may begin with the byte-order mark or a space and hold colons, it may be empty, and a
chunk may end between a carriage return and its line feed. -/
theorem readAll_printed_of_mark :
    let events : List Event :=
      [⟨some "\uFEFF a:b", some "", some (.ofMillis 1500 (by decide)), "\n : \n"⟩,
        ⟨none, none, none, ""⟩]
    let stream := Terminator.returnAndFeed.encode (Event.printedAll events)
    let chunks := [stream.take 15, [], stream.drop 15]
    let read := (start ⟨14, .failStream⟩ (Nat.succ_pos 13)).readAll chunks
    stream[14]? = some Bytes.carriageReturn ∧ read.1.error? = none ∧ read.2.1 = events ∧
      read.1.blocks.holdsField = false ∧ read.1.close.2 = [] ∧ read.1.lastEventId = some "" := by
  intro events stream chunks
  have hevents : ∀ e ∈ events, e.Printable := by decide +kernel
  have hroom : ∀ line ∈ Bytes.lines (Utf8.encode (Event.printedAll events)), line.length ≤ 14 := by
    decide +kernel
  have hcut : stream[14]? = some Bytes.carriageReturn := by decide +kernel
  have hchunks : chunks.flatten = stream := by simp [chunks]
  obtain ⟨herror, -, hread, hfree, hsilent, hid⟩ :=
    @readAll_printed ⟨14, .failStream⟩ _ _ _ (Nat.succ_pos 13) hevents hroom hchunks
  exact ⟨hcut, herror, hread, hfree, hsilent, hid⟩

end Decoder

end ServerSentEvents
