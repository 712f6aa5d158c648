import ServerSentEvents.Decoder
import ServerSentEvents.Proofs.Blocks
import ServerSentEvents.Proofs.Splitter.Bytewise

/-!
# The places where a stream is cut

Reading two chunks in turn is reading the chunk that they form together, for a splitter and for a
decoder, in every state of either.  The decoder adds to what is known of the splitter that its open
block is thrown away at most once more when the stream has failed already.
-/

namespace ServerSentEvents

namespace Decoder

/-- A chunk may be read by parts. -/
theorem read_append (d : Decoder) (a b : Bytes) :
    d.read (a ++ b) =
      (((d.read a).1.read b).1, (d.read a).2.1 ++ ((d.read a).1.read b).2.1,
        (d.read a).2.2 ++ ((d.read a).1.read b).2.2) := by
  simp only [read, Splitter.read_append, Signal.lines_append, Signal.notices_append,
    BlockReader.takeAll_append]
  by_cases hfailed : (d.splitter.read a).1.hasFailed = true
  · simp [Splitter.read_of_hasFailed hfailed, hfailed]
  · simp [hfailed]

/-- An empty chunk completes nothing and counts nothing. -/
theorem read_nil (d : Decoder) :
    (d.read []).2 = ([], []) ∧ (d.read []).1.lastEventId = d.lastEventId ∧
      (d.read []).1.counts = d.counts := by
  refine ⟨?_, ?_, ?_⟩
  · simp [read]
  · simp only [read, Splitter.read_nil, Signal.lines_nil, BlockReader.takeAll_nil, lastEventId]
    split <;> rfl
  · simp [read, counts]

theorem read_of_hasFailed {d : Decoder} (hfailed : d.splitter.hasFailed = true) (chunk : Bytes) :
    d.read chunk = ({ d with blocks := d.blocks.abandon }, [], []) := by
  simp [read, Splitter.read_of_hasFailed hfailed, hfailed]

/-- A decoder that has failed holds no block. -/
def Sound (d : Decoder) : Prop :=
  d.splitter.hasFailed = true → d.blocks.abandon = d.blocks

theorem sound_start (limits : LineLimits) (hpos : 0 < limits.maxSize) :
    (start limits hpos).Sound := by
  intro hfailed
  simp [start, Splitter.start, Splitter.hasFailed] at hfailed

theorem sound_read (d : Decoder) (chunk : Bytes) : (d.read chunk).1.Sound := by
  intro hfailed
  have hsplitter : (d.splitter.read chunk).1.hasFailed = true := hfailed
  simp [read, hsplitter]

theorem read_nil_eq {d : Decoder} (hd : d.Sound) : d.read [] = (d, [], []) := by
  cases hfailed : d.splitter.hasFailed with
  | true => simp [read_of_hasFailed hfailed, hd hfailed]
  | false => simp [read, hfailed]

/-- Reading chunks is reading the stream that they make up. -/
theorem readAll_eq_read {d : Decoder} (hd : d.Sound) (chunks : List Bytes) :
    d.readAll chunks = d.read chunks.flatten := by
  induction chunks generalizing d with
  | nil => exact (read_nil_eq hd).symm
  | cons chunk chunks ih =>
      rw [List.flatten_cons, read_append, readAll, ← ih (d.sound_read chunk)]

/-- A decoder is a splitter whose lines are taken into blocks. -/
theorem readAll_eq {d : Decoder} (hd : d.Sound) (chunks : List Bytes) :
    d.readAll chunks =
      let read := d.splitter.readAll chunks
      let taken := d.blocks.takeAll (Signal.lines read.2)
      ({ splitter := read.1, blocks := if read.1.hasFailed then taken.1.abandon else taken.1 },
        taken.2, Signal.notices read.2) := by
  rw [readAll_eq_read hd, Splitter.readAll_eq_read]
  rfl

/-- A decoder that fails in one chunk has failed for all that follow. -/
theorem error?_readAll_of_isPrefix {d : Decoder} (hd : d.Sound) {first chunks : List Bytes}
    (hfirst : first <+: chunks) {error : StreamError}
    (herror : (d.readAll first).1.error? = some error) :
    (d.readAll chunks).1.error? = some error := by
  obtain ⟨rest, rfl⟩ := hfirst
  rw [readAll_eq_read hd] at herror ⊢
  rw [List.flatten_append, read_append]
  have hfailed : (d.read first.flatten).1.splitter.hasFailed = true :=
    Splitter.hasFailed_of_error? herror
  rw [read_of_hasFailed hfailed]
  exact herror

end Decoder

/-- Cutting a chunk in two changes nothing: not the lines, diagnostics and failures of a splitter
nor its state, and not the events and notices of a decoder nor its state. -/
theorem read_append_eq_read_read (s : Splitter) (d : Decoder) (a b : Bytes) :
    (let first := s.read a
      let second := first.1.read b
      let whole := s.read (a ++ b)
      Signal.lines whole.2 = Signal.lines first.2 ++ Signal.lines second.2 ∧
        Signal.diagnostics whole.2 = Signal.diagnostics first.2 ++ Signal.diagnostics second.2 ∧
        whole.1 = second.1 ∧ whole.1.error? = second.1.error? ∧ s.read [] = (s, [])) ∧
      (let first := d.read a
        let second := first.1.read b
        let whole := d.read (a ++ b)
        whole.2.1 = first.2.1 ++ second.2.1 ∧ whole.2.2 = first.2.2 ++ second.2.2 ∧
          whole.1 = second.1 ∧ whole.1.error? = second.1.error? ∧
          (d.read []).2 = ([], []) ∧ (d.read []).1.lastEventId = d.lastEventId ∧
          (d.read []).1.counts = d.counts) := by
  constructor
  · dsimp only
    rw [Splitter.read_append]
    simp
  · dsimp only
    rw [Decoder.read_append]
    exact ⟨rfl, rfl, rfl, rfl, d.read_nil⟩

end ServerSentEvents
