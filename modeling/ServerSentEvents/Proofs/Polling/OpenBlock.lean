import ServerSentEvents.Proofs.Composition
import ServerSentEvents.Proofs.Polling.SourceEnd

/-!
# What is told of the block that a stream leaves open

A block that the end of a stream leaves open is thrown away, which is told if the block holds a
field.  A stream of events takes the unterminated line into its block before that, and a decoder
does not: the decoder tells nothing of a block that has its only field in that line.
-/

namespace ServerSentEvents

open SourceItem (chunks stream)

/-- Whether a record tells that a block was thrown away. -/
def LogRecord.isDiscard : LogRecord → Bool
  | blockDiscarded => true
  | _ => false

theorem LogRecord.isDiscard_of_isOfSink {record : LogRecord} (hrecord : record.isOfSink = true) :
    record.isDiscard = false := by
  cases record with
  | blockDiscarded => cases hrecord
  | _ => rfl

/-- The line that is handed out for the unterminated rest of a stream. -/
def LineLimits.trailingLine? (limits : LineLimits) (stream : Bytes) : Option Line :=
  (limits.trailing? stream).bind (limits.line? ((Bytes.lines stream).length + 1))

namespace BlockReader

open Request (openFields unmarkFirst)

/-- The proper fields of the lines after the last blank one, a byte-order mark before the first
line aside. -/
def fieldsLeft (lines : List Line) : List Field :=
  openFields (unmarkFirst (lines.map fun line => .take line.bytes))

@[simp] theorem fieldsLeft_nil : fieldsLeft [] = [] := rfl

/-- What is told of the block that these lines leave open. -/
def discarded (lines : List Line) : List LogRecord :=
  if fieldsLeft lines = [] then [] else [.blockDiscarded]

theorem records_close_takeAll (lines : List Line) :
    Notice.records (({} : BlockReader).takeAll lines).1.close.2 = discarded lines := by
  have hheard := Heard.respondAll (lines.map fun line => .take line.bytes)
  rw [(Completes.takeAll {} lines).next_eq] at hheard
  have hholds := hheard.holdsField_iff
  rw [records_close, discarded, fieldsLeft]
  by_cases hnone : openFields (unmarkFirst (lines.map fun line => .take line.bytes)) = []
  · rw [if_pos hnone, if_neg fun hfield => hholds.mp hfield hnone]
  · rw [if_neg hnone, if_pos (hholds.mpr hnone)]

@[simp] theorem filter_discarded (lines : List Line) :
    (discarded lines).filter LogRecord.isDiscard = discarded lines := by
  rw [discarded]
  split <;> rfl

/-- A line that holds a byte closes no block, and adds its field if it is a proper one. -/
theorem fieldsLeft_concat (lines : List Line) {line : Line} (hsome : line.bytes ≠ []) :
    let heard := if lines = [] then stripMark line.bytes else line.bytes
    fieldsLeft (lines ++ [line]) =
      fieldsLeft lines ++ (Field.ofLine? heard).toList.filter Field.isProper := by
  intro heard
  have hheard : (if (lines.map fun line => Request.take line.bytes).any Request.isTake then
      Request.take line.bytes else (Request.take line.bytes).unmarked) = .take heard := by
    cases lines <;> rfl
  rw [fieldsLeft, List.map_append, List.map_singleton, Request.unmarkFirst_concat, hheard]
  cases hcut : Request.isCut (.take heard) with
  | true =>
      -- Only a mark alone is blank, and no line has come before it.
      have hblank : Field.ofLine? heard = some .blank := by simpa [Request.isCut] using hcut
      have hfirst : lines = [] := by
        by_contra hlater
        have hempty := Field.ofLine?_eq_blank_iff.mp hblank
        exact hsome (by simpa [heard, hlater] using hempty)
      rw [Request.openFields_concat_of_isCut _ hcut, hblank, hfirst]
      rfl
  | false => exact Request.openFields_concat_of_not_isCut _ hcut

end BlockReader

open BlockReader (discarded fieldsLeft stripMark)

/-- The proper fields of the line that is handed out for the rest of a stream: it has at most
one. -/
def LineLimits.trailingFields (limits : LineLimits) (stream : Bytes) : List Field :=
  (limits.trailingLine? stream).toList.flatMap fun line =>
    let heard := if limits.linesOf stream = [] then stripMark line.bytes else line.bytes
    (Field.ofLine? heard).toList.filter Field.isProper

section

variable {limits : LineLimits} (hpos : 0 < limits.maxSize) {source : List SourceItem}

/-- The lines that come out of a source, and the one that its end leaves. -/
theorem Splitter.lines_of_source (source : List SourceItem) :
    let read := (start limits hpos).readAll (chunks source)
    Signal.lines read.2 = limits.linesOf (stream source) ∧
      Signal.lines read.1.close.2 = (limits.trailingLine? (stream source)).toList :=
  have hreads := Reads.readAll limits hpos (chunks source)
  ⟨hreads.lines_eq, hreads.signals_close.1⟩

include hpos in
/-- The unterminated line adds its fields to those of the lines before it. -/
theorem LineLimits.fieldsLeft_trailing (source : List SourceItem) :
    let lines := limits.linesOf (stream source)
    fieldsLeft (lines ++ (limits.trailingLine? (stream source)).toList) =
      fieldsLeft lines ++ limits.trailingFields (stream source) := by
  have htrailing := (Splitter.lines_of_source hpos source).2
  have hsome := (Splitter.Reads.readAll limits hpos (chunks source)).ne_nil_of_mem_close
  rw [htrailing] at hsome
  unfold trailingFields
  cases hrest : limits.trailingLine? (stream source) with
  | none => simp
  | some line =>
      have hline : line.bytes ≠ [] := hsome line (by simp [hrest])
      simpa using BlockReader.fieldsLeft_concat (limits.linesOf (stream source)) hline

/-- A stream of events tells of the block that all its lines leave open, the last one included. -/
theorem PolledEvents.logs_discarded (hfinishes : limits.Finishes source) :
    Logs poll (start limits hpos source) LogRecord.isDiscard
      (discarded
        (limits.linesOf (stream source) ++ (limits.trailingLine? (stream source)).toList)) := by
  have hsound : (start limits hpos source).Sound := PolledLines.sound_start limits hpos source
  have hlogs := foretold.logs hsound fun _ => LogRecord.isDiscard_of_isOfSink
  obtain ⟨hlines, htrailing⟩ := Splitter.lines_of_source hpos source
  rw [forecast_of_finishes hpos hfinishes, PolledLines.forecast_of_finishes hpos hfinishes] at hlogs
  simp only [Notice.records_append, Notice.records_cons_record, Splitter.records_close,
    BlockReader.records_close_takeAll, Signal.lines_append, hlines, htrailing, List.filter_append,
    @Splitter.filter_records_readAll LogRecord.isDiscard fun _ _ => rfl, List.filter_cons,
    LogRecord.isDiscard, Bool.false_eq_true, if_false, List.filter_nil, List.nil_append,
    BlockReader.filter_discarded] at hlogs
  exact hlogs

/-- A decoder tells of the block that the terminated lines leave open. -/
theorem Decoder.logged_discarded (hfinishes : limits.Finishes source) (sink : Sink) :
    let fed := (start limits hpos).readAll (chunks source)
    sink.logged LogRecord.isDiscard (fed.2.2 ++ fed.1.close.2) =
      discarded (limits.linesOf (stream source)) := by
  have hlines := (Splitter.lines_of_source hpos source).1
  have hgoing := Splitter.error?_eq_none_iff.mp ((Splitter.finishes_iff hpos).mp hfinishes).2
  intro fed
  rw [sink.logged_eq fun _ => LogRecord.isDiscard_of_isOfSink]
  simp only [fed, readAll_eq (sound_start limits hpos), start, close, hgoing, Bool.false_eq_true,
    if_false, Notice.records_append, Splitter.records_close, BlockReader.records_close_takeAll,
    hlines, List.filter_append,
    @Splitter.filter_records_readAll LogRecord.isDiscard fun _ _ => rfl, List.nil_append]
  exact BlockReader.filter_discarded _

end

/-- A stream of events whose source comes to its end tells once of the block that is open then, if
any of the lines after the last blank one holds a proper field, the unterminated line included, and
never otherwise.  A decoder that takes in the same chunks and is closed looks at the terminated
lines alone.  So it tells the same unless the unterminated line holds the only field of the
block. -/
theorem logs_discarded_start (limits : LineLimits) (hpos : 0 < limits.maxSize)
    (source : List SourceItem) (hfinishes : limits.Finishes source) :
    let lines := limits.linesOf (stream source)
    let all := lines ++ (limits.trailingLine? (stream source)).toList
    let events := PolledEvents.start limits hpos source
    let fed := (Decoder.start limits hpos).readAll (chunks source)
    Logs PolledEvents.poll events LogRecord.isDiscard (discarded all) ∧
      (∃ m, ∀ n, m ≤ n → .ended ∈ (pollTimes PolledEvents.poll events n).2.1) ∧
      (∀ sink : Sink,
        sink.logged LogRecord.isDiscard (fed.2.2 ++ fed.1.close.2) = discarded lines) ∧
      fieldsLeft all = fieldsLeft lines ++ limits.trailingFields (stream source) ∧
      (discarded all = discarded lines ↔
        (fieldsLeft lines = [] → limits.trailingFields (stream source) = [])) := by
  intro lines all events fed
  have hfields : fieldsLeft all = fieldsLeft lines ++ limits.trailingFields (stream source) :=
    LineLimits.fieldsLeft_trailing hpos source
  refine ⟨PolledEvents.logs_discarded hpos hfinishes,
    (PolledEvents.tellsEnd limits hpos source).ends hfinishes,
    Decoder.logged_discarded hpos hfinishes, hfields, ?_⟩
  rw [discarded, discarded, hfields]
  by_cases hnone : fieldsLeft lines = []
  · by_cases hlast : limits.trailingFields (stream source) = [] <;> simp [hnone, hlast]
  · simp [hnone]

/-- The field of the unterminated line is all that is left, because a blank line has closed the
block before it. -/
theorem logs_discarded_start_of_blank_line :
    let source := [.chunk [0x69, 0x64, 0x0a, 0x0a], .pending, .chunk [0x69, 0x64]]
    let events := PolledEvents.start ⟨2, .truncate⟩ Nat.zero_lt_two source
    let fed := (Decoder.start ⟨2, .truncate⟩ Nat.zero_lt_two).readAll (chunks source)
    Logs PolledEvents.poll events LogRecord.isDiscard [.blockDiscarded] ∧
      ∀ sink : Sink, sink.logged LogRecord.isDiscard (fed.2.2 ++ fed.1.close.2) = [] := by
  intro source events fed
  obtain ⟨hevents, -, hfed, -⟩ := logs_discarded_start ⟨2, .truncate⟩ Nat.zero_lt_two source
    (by decide)
  have hall : discarded
      (LineLimits.linesOf ⟨2, .truncate⟩ (stream source) ++
        (LineLimits.trailingLine? ⟨2, .truncate⟩ (stream source)).toList) = [.blockDiscarded] := by
    decide +kernel
  have hended : discarded (LineLimits.linesOf ⟨2, .truncate⟩ (stream source)) = [] := by
    decide +kernel
  exact ⟨hall ▸ hevents, fun sink => (hfed sink).trans hended⟩

/-- A decoder does not tell of a block in the cases in which a stream of events does: the line
`data`, which has no terminator, is the only one of its block. -/
theorem not_logged_discarded_alike :
    ¬∀ (limits : LineLimits) (hpos : 0 < limits.maxSize) (source : List SourceItem),
      limits.Finishes source → ∀ (sink : Sink) (n : Nat),
        let polled := pollTimes PolledEvents.poll (PolledEvents.start limits hpos source) n
        let fed := (Decoder.start limits hpos).readAll (chunks source)
        .ended ∈ polled.2.1 →
          sink.logged LogRecord.isDiscard (fed.2.2 ++ fed.1.close.2) =
            sink.logged LogRecord.isDiscard polled.2.2 := by
  intro hall
  have hpos : 0 < (⟨8, .failStream⟩ : LineLimits).maxSize := by decide
  have hfinishes : LineLimits.Finishes ⟨8, .failStream⟩ [.chunk [0x64, 0x61, 0x74, 0x61]] := by
    decide
  obtain ⟨m, hm⟩ := (PolledEvents.tellsEnd _ hpos _).ends hfinishes
  have hended := hm m (Nat.le_refl m)
  have hstream := (PolledEvents.logs_discarded hpos hfinishes).all m hended .logger
  have hdecoder := Decoder.logged_discarded hpos hfinishes .logger
  have hclaimed := hall _ hpos _ hfinishes .logger m hended
  rw [hstream, hdecoder] at hclaimed
  exact absurd hclaimed (by decide +kernel)

end ServerSentEvents
