import ServerSentEvents.Proofs.Polling.Events
import ServerSentEvents.Proofs.RoundTrip

/-!
# Events that come out of a stream

Whatever bytes a stream consists of, the events that come out of it are printable: nothing that ends
a line stands inside of a line, and reading a value as text makes up no such thing.  So the text
that is printed for them has no other fields than theirs, and is read back as the same events.
-/

namespace ServerSentEvents

/-! ## Lines that are handed out -/

/-- Nothing ends a line inside of a line that is handed out, whole or cut short. -/
theorem LineLimits.unbroken_of_mem_linesOf {limits : LineLimits} {stream : Bytes} {line : Line}
    (hline : line ∈ limits.linesOf stream) : Bytes.Unbroken line.bytes := by
  obtain ⟨k, bytes, hget, hmade⟩ := exists_of_mem_linesOf hline
  have hbytes : Bytes.Unbroken bytes :=
    (Bytes.unbroken_cut stream).1 bytes (List.mem_of_getElem? hget)
  unfold line? at hmade
  split at hmade
  · cases hmade
    exact hbytes
  split at hmade
  · cases hmade
    exact hbytes.take limits.maxSize
  · cases hmade

/-! ## Blocks of plain fields -/

namespace Block

theorem printable_toEvent_start : ({} : Block).toEvent.Printable := by
  decide

/-- A plain field keeps the event of a block printable. -/
theorem printable_add {b : Block} (hb : b.toEvent.Printable) {field : Field}
    (hfield : field.Plain) : (b.add field).toEvent.Printable := by
  obtain ⟨hevent, hid, hretry, hdata⟩ := hb
  cases field with
  | data text =>
      refine ⟨hevent, hid, hretry, ?_⟩
      have htext : '\r' ∉ text.toList := fun hreturn => (hfield _ hreturn).2 rfl
      cases hlines : b.data with
      | none => simpa [add, toEvent, joinData, hlines] using htext
      | some lines =>
          have hbefore : '\r' ∉ lines.toList := by simpa [toEvent, hlines] using hdata
          simpa [add, toEvent, joinData, hlines] using ⟨hbefore, htext⟩
  | event name =>
      refine ⟨?_, hid, hretry, hdata⟩
      rintro _ ⟨⟩
      exact hfield
  | id value =>
      refine ⟨hevent, ?_, hretry, hdata⟩
      rintro _ ⟨⟩
      exact hfield
  | retry delay =>
      refine ⟨hevent, hid, ?_, hdata⟩
      rintro _ ⟨⟩
      exact hfield
  | comment text => exact ⟨hevent, hid, hretry, hdata⟩
  | blank => exact ⟨hevent, hid, hretry, hdata⟩

end Block

namespace BlockReader

theorem printable_takeField {r : BlockReader} (hr : r.block.toEvent.Printable)
    {field : Option Field} (hfield : ∀ f ∈ field, f.Plain) :
    (r.takeField field).1.block.toEvent.Printable ∧
      ∀ e ∈ (r.takeField field).2, e.Printable := by
  unfold takeField
  split
  · exact ⟨hr, by simp⟩
  · unfold closeBlock
    split
    · exact ⟨hr, by simp⟩
    · refine ⟨Block.printable_toEvent_start, ?_⟩
      rintro _ ⟨⟩
      exact hr
  · exact ⟨Block.printable_add hr (hfield _ rfl), by simp⟩

theorem unbroken_stripMark {line : Bytes} (hline : Bytes.Unbroken line) :
    Bytes.Unbroken (stripMark line) := by
  unfold stripMark
  split
  · intro b hb
    exact hline b (List.mem_of_mem_drop hb)
  · exact hline

theorem printable_take {r : BlockReader} (hr : r.block.toEvent.Printable) {line : Bytes}
    (hline : Bytes.Unbroken line) :
    (r.take line).1.block.toEvent.Printable ∧ ∀ e ∈ (r.take line).2, e.Printable := by
  unfold take
  split
  · exact printable_takeField hr fun _ => Field.plain_of_ofLine? hline
  · exact printable_takeField (r := { r with begun := true }) hr
      fun _ => Field.plain_of_ofLine? (unbroken_stripMark hline)

/-- Lines that nothing breaks complete printable events only. -/
theorem printable_of_mem_takeAll {r : BlockReader} (hr : r.block.toEvent.Printable)
    {lines : List Line} (hlines : ∀ line ∈ lines, Bytes.Unbroken line.bytes) {e : Event}
    (he : e ∈ (r.takeAll lines).2) : e.Printable := by
  induction lines generalizing r with
  | nil => cases he
  | cons line lines ih =>
      obtain ⟨hline, hothers⟩ := List.forall_mem_cons.mp hlines
      obtain ⟨hnext, hfirst⟩ := printable_take hr hline
      rw [takeAll_cons] at he
      rcases List.mem_append.mp he with hnow | hlater
      · exact hfirst e (Option.mem_toList.mp hnow)
      · exact ih hnext hothers hlater

end BlockReader

theorem Decoder.printable_of_mem_readAll {limits : LineLimits} (hpos : 0 < limits.maxSize)
    (chunks : List Bytes) {e : Event} (he : e ∈ ((start limits hpos).readAll chunks).2.1) :
    e.Printable := by
  have hreads := Splitter.Reads.readAll limits hpos chunks
  rw [readAll_eq (sound_start limits hpos)] at he
  apply BlockReader.printable_of_mem_takeAll (r := {}) Block.printable_toEvent_start ?_ he
  intro line hline
  exact LineLimits.unbroken_of_mem_linesOf (hreads.lines_eq ▸ hline)

/-! ## Events of a polled stream -/

namespace Decoder

/-- The end of a source brings no event. -/
theorem items_ending (d : Decoder) (failure? : Option String) :
    PollAnswer.items (d.ending failure?).2.1 = [] := by
  unfold ending
  split <;> rfl

theorem length_ending_le (d : Decoder) (failure? : Option String) :
    (d.ending failure?).2.1.length ≤ 1 := by
  unfold ending
  split <;> simp

end Decoder

namespace PolledEvents

open PollAnswer

theorem items_told (fed : Decoder × List Event × List Notice) (failure? : Option String) :
    items (fed.2.1.map .item ++ (fed.1.ending failure?).2.1) = fed.2.1 := by
  rw [items_append, items_map_item, Decoder.items_ending, List.append_nil]

/-- The items of a polled stream are events of the decoder for the same chunks. -/
theorem items_pollTimes_isPrefix (limits : LineLimits) (hpos : 0 < limits.maxSize)
    (source : List SourceItem) (n : Nat) :
    items (pollTimes poll (start limits hpos source) n).2.1 <+:
      ((Decoder.start limits hpos).readAll (SourceItem.chunks source)).2.1 := by
  have hsound : (start limits hpos source).Sound := PolledLines.sound_start limits hpos source
  have hgiven := foretold.given_isPrefix hsound n
  rw [(forecast_start limits hpos source).1] at hgiven
  have hitems : items (given (pollTimes poll (start limits hpos source) n).2.1) <+: items _ :=
    hgiven.filterMap item?
  rwa [items_given, items_append, items_told, items_replicate_ended, List.append_nil] at hitems

/-- Polls enough bring all of them. -/
theorem items_pollTimes (limits : LineLimits) (hpos : 0 < limits.maxSize)
    (source : List SourceItem) {n : Nat}
    (henough : ((Decoder.start limits hpos).readAll (SourceItem.chunks source)).2.1.length + 1 +
      SourceItem.waits source ≤ n) :
    items (pollTimes poll (start limits hpos source) n).2.1 =
      ((Decoder.start limits hpos).readAll (SourceItem.chunks source)).2.1 := by
  have hsound : (start limits hpos source).Sound := PolledLines.sound_start limits hpos source
  have hwhole := foretold.answers_isPrefix hsound (n := n)
  rw [(forecast_start limits hpos source).1] at hwhole
  have hending := Decoder.length_ending_le
    ((Decoder.start limits hpos).readAll (SourceItem.chunks source)).1 (SourceItem.failure? source)
  have hwaits : (start limits hpos source).forecast.waits = SourceItem.waits source := rfl
  have hitems : items _ <+: items (given (pollTimes poll (start limits hpos source) n).2.1) :=
    (hwhole (by rw [List.length_append, List.length_map, hwaits]; omega)).filterMap item?
  rw [items_given, items_told] at hitems
  exact (items_pollTimes_isPrefix limits hpos source n).eq_of_length_le hitems.length_le

end PolledEvents

/-! ## Printing what comes out -/

/-- The events that have come out of some stream under these limits, from a decoder that was handed
the stream or from a polled stream. -/
inductive Emitted (limits : LineLimits) (hpos : 0 < limits.maxSize) : List Event → Prop where
  | handed (chunks : List Bytes) :
      Emitted limits hpos ((Decoder.start limits hpos).readAll chunks).2.1
  | polled (source : List SourceItem) (n : Nat) :
      Emitted limits hpos
        (PollAnswer.items (pollTimes PolledEvents.poll (.start limits hpos source) n).2.1)

namespace Emitted

variable {limits : LineLimits} {hpos : 0 < limits.maxSize} {events : List Event}

theorem printable (h : Emitted limits hpos events) : ∀ e ∈ events, e.Printable := by
  intro e he
  cases h with
  | handed chunks => exact Decoder.printable_of_mem_readAll hpos chunks he
  | polled source n =>
      have hevents := PolledEvents.items_pollTimes_isPrefix limits hpos source n
      exact Decoder.printable_of_mem_readAll hpos _ (hevents.subset he)

/-- The events that come out of a stream are printable.  The text printed for them has the lines of
their fields and one blank line after each event, no line more, and every decoder that has room for
these lines returns the same events for it, which are printed as the same text again. -/
theorem printed_again (h : Emitted limits hpos events) :
    (∀ e ∈ events, e.Printable) ∧
      Bytes.cut (Utf8.encode (Event.printedAll events)) =
        ((Event.printedFields events).map Field.line, []) ∧
      Field.ofLines ((Event.printedFields events).map Field.line) =
        (Event.printedFields events).map some ∧
      ∀ (room : LineLimits) (hroom : 0 < room.maxSize),
        (∀ line ∈ (Event.printedFields events).map Field.line, line.length ≤ room.maxSize) →
          (∀ chunks, chunks.flatten = Utf8.encode (Event.printedAll events) →
            let again := (Decoder.start room hroom).readAll chunks
            again.1.error? = none ∧ again.2.1 = events ∧
              Event.printedAll again.2.1 = Event.printedAll events) ∧
          ∀ source n, (SourceItem.chunks source).flatten = Utf8.encode (Event.printedAll events) →
            events.length + 1 + SourceItem.waits source ≤ n →
              PollAnswer.items (pollTimes PolledEvents.poll (.start room hroom source) n).2.1 =
                events := by
  have hevents := h.printable
  obtain ⟨hcut, hfields⟩ := Event.cut_encode_printedAll .lineFeed hevents
  rw [Terminator.encode_lineFeed] at hcut
  refine ⟨hevents, hcut, hfields, ?_⟩
  intro room hroom hfit
  have hagain : ∀ chunks, chunks.flatten = Utf8.encode (Event.printedAll events) →
      ((Decoder.start room hroom).readAll chunks).1.error? = none ∧
        ((Decoder.start room hroom).readAll chunks).2.1 = events := by
    intro chunks hchunks
    rw [← Terminator.encode_lineFeed] at hchunks
    obtain ⟨herror, -, hread, -⟩ := Decoder.readAll_encode_printedAll hroom hevents
      (by rwa [Bytes.lines, hcut]) hchunks
    exact ⟨herror, hread⟩
  constructor
  · intro chunks hchunks
    obtain ⟨herror, hread⟩ := hagain chunks hchunks
    exact ⟨herror, hread, congrArg Event.printedAll hread⟩
  · intro source n hsource henough
    have hread := (hagain _ hsource).2
    rw [PolledEvents.items_pollTimes room hroom source (by rwa [hread]), hread]

/-- Bytes that are no text become replacements, which are printed and read as they are; an id that
holds a NUL is no field, and of the delay only the head is read. -/
theorem printed_again_of_replacements :
    let stream : Bytes := BlockReader.byteOrderMark ++ Utf8.encode "id: a\x00\rid:" ++
      [0xff, 0x0d, 0x0a] ++ Utf8.encode "event:x" ++ [0xe2, 0x82, 0x0d] ++ Utf8.encode "data:" ++
      [0xc0, 0xaf, 0x0a] ++ Utf8.encode "retry:1234\ndata\n\r"
    let read := (Decoder.start ⟨9, .truncate⟩ (Nat.succ_pos 8)).readAll [stream]
    let again := (Decoder.start ⟨12, .failStream⟩ (Nat.succ_pos 11)).readAll
      [Utf8.encode (Event.printedAll read.2.1)]
    read.2.1 = [⟨some "x\uFFFD", some "\uFFFD", some (.ofMillis 123 (by decide)),
        "\uFFFD\uFFFD\n"⟩] ∧
      again.1.error? = none ∧ again.2.1 = read.2.1 := by
  intro stream read
  have hrun := Decoder.readAll_eq (Decoder.sound_start ⟨9, .truncate⟩ (Nat.succ_pos 8)) [stream]
  rw [Splitter.readAll_eq_run] at hrun
  have hread : read.2.1 = [⟨some "x\uFFFD", some "\uFFFD", some (.ofMillis 123 (by decide)),
      "\uFFFD\uFFFD\n"⟩] := (congrArg (·.2.1) hrun).trans (by decide +kernel)
  have hemitted : Emitted ⟨9, .truncate⟩ (Nat.succ_pos 8) read.2.1 := .handed [stream]
  obtain ⟨-, -, -, hagain⟩ := hemitted.printed_again
  have hroom : ∀ line ∈ (Event.printedFields read.2.1).map Field.line, line.length ≤ 12 := by
    rw [hread]
    decide +kernel
  obtain ⟨herror, hsame, -⟩ := (hagain ⟨12, .failStream⟩ (Nat.succ_pos 11) hroom).1
    [Utf8.encode (Event.printedAll read.2.1)] List.flatten_singleton
  exact ⟨hread, herror, hsame⟩

end Emitted

end ServerSentEvents
