import ServerSentEvents.Proofs.ChunkBoundaries
import ServerSentEvents.Proofs.Splitter.WholeStream

/-!
# Streams whose lines fit

Where no line outgrows the limit, the limits leave no trace: the lines of the grammar reach the
block reader as they are, and the events are those of their fields (`Decoder.readAll_of_admits`).
-/

namespace ServerSentEvents

/-- The fields of all lines of a stream.  A byte-order mark before the first line is no part of
it. -/
def Field.ofLines : List Bytes → List (Option Field)
  | [] => []
  | first :: others => ofLine? (BlockReader.stripMark first) :: others.map ofLine?

namespace BlockReader

/-! ## Lines and their fields -/

/-- Takes in the fields of lines, and returns the events they complete, in order. -/
def takeFields (r : BlockReader) (fields : List (Option Field)) : BlockReader × List Event :=
  Transducer.run (fun r field => ((r.takeField field).1, (r.takeField field).2.toList)) r fields

@[simp] theorem takeFields_nil (r : BlockReader) : r.takeFields [] = (r, []) := rfl

theorem takeFields_cons (r : BlockReader) (field : Option Field) (fields : List (Option Field)) :
    r.takeFields (field :: fields) =
      (((r.takeField field).1.takeFields fields).1,
        (r.takeField field).2.toList ++ ((r.takeField field).1.takeFields fields).2) :=
  Transducer.run_cons _ r field fields

theorem takeFields_append (r : BlockReader) (a b : List (Option Field)) :
    r.takeFields (a ++ b) =
      (((r.takeFields a).1.takeFields b).1,
        (r.takeFields a).2 ++ ((r.takeFields a).1.takeFields b).2) :=
  Transducer.run_append _ r a b

theorem takeAll_of_begun {r : BlockReader} (hbegun : r.begun = true) (lines : List Line) :
    r.takeAll lines = r.takeFields (lines.map fun line => Field.ofLine? line.bytes) := by
  induction lines generalizing r with
  | nil => rfl
  | cons line lines ih =>
      have htake : r.take line.bytes = r.takeField (Field.ofLine? line.bytes) := by
        simp [take, hbegun]
      have hnext : (r.takeField (Field.ofLine? line.bytes)).1.begun = true := by
        rw [begun_takeField, hbegun]
      rw [takeAll_cons, htake, ih hnext, List.map_cons, takeFields_cons]

/-- Taking in the lines of a stream is taking in their fields. -/
theorem takeAll_start (lines : List Line) :
    ({} : BlockReader).takeAll lines =
      ({ begun := !lines.isEmpty } : BlockReader).takeFields
        (Field.ofLines (lines.map (·.bytes))) := by
  cases lines with
  | nil => rfl
  | cons line lines =>
      have hbegun : (({} : BlockReader).take line.bytes).1.begun = true := begun_take _ _
      rw [takeAll_cons, takeAll_of_begun hbegun, List.map_cons, Field.ofLines, takeFields_cons,
        List.map_map]
      rfl

end BlockReader

namespace LineLimits

/-! ## Lines within the limit -/

variable {limits : LineLimits} {stream : Bytes}

theorem lines_of_admits {lines : List Bytes} (hfit : ∀ line ∈ lines, limits.admits line = true) :
    (numbered limits.line? lines).map (·.bytes) = lines ∧
      numbered limits.diagnostic? lines = [] := by
  induction lines using List.reverseRecOn with
  | nil => exact ⟨rfl, rfl⟩
  | append_singleton lines line ih =>
      have hline : limits.admits line = true := hfit line (by simp)
      obtain ⟨hlines, hdiagnostics⟩ := ih fun other hother => hfit other (by simp [hother])
      rw [numbered_concat, numbered_concat, List.map_append, hlines, hdiagnostics]
      simp [line?, diagnostic?, hline]

theorem reached_of_admits (hfit : ∀ line ∈ Bytes.lines stream, limits.admits line = true) :
    limits.reached (Bytes.lines stream) = Bytes.lines stream := by
  unfold reached
  split
  · exact List.takeWhile_eq_self_iff.mpr hfit
  · rfl

end LineLimits

namespace Decoder

/-- Where every line fits, the events of a stream are those of the fields of its lines, and nothing
is reported.  If what follows the last line fits as well, then the stream does not fail, and the
open block is that of the fields. -/
theorem readAll_of_admits (limits : LineLimits) (hpos : 0 < limits.maxSize) (chunks : List Bytes)
    (hfit : ∀ line ∈ Bytes.lines chunks.flatten, limits.admits line = true) :
    let read := (start limits hpos).readAll chunks
    let taken := ({ begun := !(Bytes.lines chunks.flatten).isEmpty } : BlockReader).takeFields
      (Field.ofLines (Bytes.lines chunks.flatten))
    read.2.1 = taken.2 ∧ Notice.diagnostics read.2.2 = [] ∧
      (limits.admits (Bytes.remainder chunks.flatten) = true →
        read.1.error? = none ∧ read.1.blocks = taken.1) := by
  have hreads := Splitter.Reads.readAll limits hpos chunks
  obtain ⟨hbytes, hnone⟩ := LineLimits.lines_of_admits hfit
  have hlines : Signal.lines ((Splitter.start limits hpos).readAll chunks).2 =
      LineLimits.numbered limits.line? (Bytes.lines chunks.flatten) := by
    rw [hreads.lines_eq, LineLimits.linesOf, LineLimits.reached_of_admits hfit]
  have hdiagnostics : Signal.diagnostics ((Splitter.start limits hpos).readAll chunks).2 = [] := by
    rw [hreads.diagnostics_eq, LineLimits.diagnosticsOf, LineLimits.reached_of_admits hfit, hnone]
  have htaken : ({} : BlockReader).takeAll
      (Signal.lines ((Splitter.start limits hpos).readAll chunks).2) =
        ({ begun := !(Bytes.lines chunks.flatten).isEmpty } : BlockReader).takeFields
          (Field.ofLines (Bytes.lines chunks.flatten)) := by
    rw [BlockReader.takeAll_start, hlines, hbytes]
    congr 3
    rw [← List.isEmpty_map (f := (·.bytes)), hbytes]
  rw [readAll_eq (sound_start limits hpos)]
  refine ⟨congrArg (·.2) htaken, hdiagnostics, ?_⟩
  intro htail
  have hgoing : ¬limits.Fails chunks.flatten := by
    rintro ⟨-, line, hline, hbeyond⟩
    rcases List.mem_append.mp hline with hended | hopen
    · rw [hfit line hended] at hbeyond
      cases hbeyond
    · rw [List.mem_singleton.mp hopen, htail] at hbeyond
      cases hbeyond
  have hsplitter : ((start limits hpos).splitter.readAll chunks).1.hasFailed = false :=
    hreads.going hgoing
  constructor
  · simp [error?, Splitter.error?, hsplitter]
  · dsimp only
    rw [hsplitter]
    exact congrArg (·.1) htaken

end Decoder

end ServerSentEvents
