import ServerSentEvents.Proofs.Lines
import ServerSentEvents.Proofs.Splitter.Bytewise
import ServerSentEvents.Sink

/-!
# What the splitter makes of a whole stream

The lines and diagnostics of a stream are computed here from its bytes alone, by the grammar of
`Bytes.lines` and the limits.  The invariant `Splitter.Reads` ties the state of a splitter to the
bytes it has read: the open line is what the limits leave of `Bytes.remainder`.  One more byte
keeps the invariant (`Splitter.Reads.step`), so it holds after every list of chunks.
-/

namespace ServerSentEvents

namespace LineLimits

/-! ## What limits leave of a line -/

/-- Whether a line is within the limit. -/
def admits (limits : LineLimits) (line : Bytes) : Bool :=
  line.length ≤ limits.maxSize

/-- The line that is handed out for the line with this number and these bytes. -/
def line? (limits : LineLimits) (number : Nat) (line : Bytes) : Option Line :=
  if limits.admits line then some ⟨line, number, false⟩
  else if limits.overflow = .truncate then some ⟨line.take limits.maxSize, number, true⟩
  else none

/-- The bytes of an oversized line that its diagnostic carries. -/
def reported? (limits : LineLimits) (line : Bytes) : Option Bytes :=
  match limits.overflow with
  | .failStream | .logAndSkip => none
  | .truncate => some (line.take limits.maxSize)
  | .deadLetter => some line

/-- The diagnostic for the line with this number and these bytes. -/
def diagnostic? (limits : LineLimits) (number : Nat) (line : Bytes) : Option Diagnostic :=
  if limits.admits line then none
  else some ⟨limits.overflow, number, line.length, limits.reported? line⟩

/-- The lines that are read to their end: a policy that fails the stream reads no further than to
the first line beyond the limit. -/
def reached (limits : LineLimits) (lines : List Bytes) : List Bytes :=
  if limits.overflow = .failStream then lines.takeWhile limits.admits else lines

/-- Whether a line of the stream, the open one included, fails it. -/
def Fails (limits : LineLimits) (stream : Bytes) : Prop :=
  limits.overflow = .failStream ∧
    ∃ line ∈ Bytes.lines stream ++ [Bytes.remainder stream], limits.admits line = false

instance (limits : LineLimits) (stream : Bytes) : Decidable (limits.Fails stream) :=
  inferInstanceAs (Decidable (_ ∧ _))

/-- What `f` makes of lines that are numbered from 1. -/
def numbered {β : Type} (f : Nat → Bytes → Option β) (lines : List Bytes) : List β :=
  (lines.zipIdx 1).filterMap fun (line, number) => f number line

/-- The lines that are handed out for the terminated lines of a stream. -/
def linesOf (limits : LineLimits) (stream : Bytes) : List Line :=
  numbered limits.line? (limits.reached (Bytes.lines stream))

/-- The diagnostics for the terminated lines of a stream. -/
def diagnosticsOf (limits : LineLimits) (stream : Bytes) : List Diagnostic :=
  numbered limits.diagnostic? (limits.reached (Bytes.lines stream))

/-- The error with which a stream fails. -/
def error? (limits : LineLimits) (stream : Bytes) : Option StreamError :=
  if limits.Fails stream then
    some (.lineTooLong limits.maxSize ((limits.reached (Bytes.lines stream)).length + 1))
  else none

/-- The open line that the end of a stream resolves, if the stream has one. -/
def trailing? (limits : LineLimits) (stream : Bytes) : Option Bytes :=
  if limits.Fails stream ∨ Bytes.remainder stream = [] then none
  else some (Bytes.remainder stream)

/-- The open line of a splitter that has read these bytes of it. -/
def openLine (limits : LineLimits) (line : Bytes) : OpenLine :=
  if limits.admits line then .fitting line.toArray
  else
    match limits.overflow with
    | .failStream => .rejected
    | .logAndSkip => .oversized .skip line.length
    | .truncate => .oversized (.truncate (line.take limits.maxSize)) line.length
    | .deadLetter => .oversized (.capture line.toArray) line.length

/-! ## One more byte of a stream -/

variable {limits : LineLimits} {stream next : Bytes}

theorem admits_concat_of_not_admits {line : Bytes} (hbeyond : limits.admits line = false)
    (b : UInt8) : limits.admits (line ++ [b]) = false := by
  simp only [admits, decide_eq_false_iff_not, List.length_append] at hbeyond ⊢
  omega

theorem admits_nil (limits : LineLimits) : limits.admits [] = true := by
  simp [admits]

@[simp] theorem numbered_nil {β : Type} (f : Nat → Bytes → Option β) : numbered f [] = [] := rfl

theorem numbered_concat {β : Type} (f : Nat → Bytes → Option β) (lines : List Bytes)
    (line : Bytes) :
    numbered f (lines ++ [line]) = numbered f lines ++ (f (lines.length + 1) line).toList := by
  simp only [numbered, List.zipIdx_append, List.filterMap_append, List.zipIdx_singleton,
    Nat.add_comm 1]
  cases hf : f (lines.length + 1) line <;> simp [hf]

theorem admits_of_not_fails (hgoing : ¬limits.Fails stream)
    (hpolicy : limits.overflow = .failStream) :
    ∀ line ∈ Bytes.lines stream, limits.admits line = true := by
  intro line hline
  by_contra hbeyond
  exact hgoing ⟨hpolicy, line, List.mem_append_left _ hline, by simpa using hbeyond⟩

/-- A stream that does not fail is read to the end of every line. -/
theorem reached_of_not_fails (hgoing : ¬limits.Fails stream) :
    limits.reached (Bytes.lines stream) = Bytes.lines stream := by
  unfold reached
  split
  · next hpolicy => exact List.takeWhile_eq_self_iff.mpr (admits_of_not_fails hgoing hpolicy)
  · rfl

theorem not_admits_remainder (hfails : limits.Fails stream)
    (hended : ∀ line ∈ Bytes.lines stream, limits.admits line = true) :
    limits.admits (Bytes.remainder stream) = false := by
  obtain ⟨-, line, hline, hbeyond⟩ := hfails
  rcases List.mem_append.mp hline with hmem | hopen
  · rw [hended line hmem] at hbeyond
    cases hbeyond
  · obtain rfl : line = Bytes.remainder stream := by simpa using hopen
    exact hbeyond

/-- The open line of a stream that has failed is not reached when it ends. -/
theorem reached_append_of_fails (hfails : limits.Fails stream) :
    limits.reached (Bytes.lines stream ++ [Bytes.remainder stream]) =
      limits.reached (Bytes.lines stream) := by
  simp only [reached, hfails.1, if_true, List.takeWhile_append]
  split
  · next hall =>
      have hwithin : ∀ l ∈ Bytes.lines stream, limits.admits l = true := by
        have hpart : (Bytes.lines stream).takeWhile limits.admits <+: Bytes.lines stream :=
          List.takeWhile_prefix _
        rw [← List.takeWhile_eq_self_iff]
        exact hpart.eq_of_length hall
      rw [List.takeWhile_eq_self_iff.mpr hwithin]
      simp [not_admits_remainder hfails hwithin]
  · rfl

theorem fails_iff_of_same (hcut : Bytes.cut next = Bytes.cut stream) :
    limits.Fails next ↔ limits.Fails stream := by
  simp [Fails, Bytes.lines, Bytes.remainder, hcut]

theorem fails_iff_of_ends
    (hcut : Bytes.cut next = (Bytes.lines stream ++ [Bytes.remainder stream], [])) :
    limits.Fails next ↔ limits.Fails stream := by
  have hlines : Bytes.lines next = Bytes.lines stream ++ [Bytes.remainder stream] := by
    simp [Bytes.lines, hcut]
  have hopen : Bytes.remainder next = [] := by
    simp [Bytes.remainder, hcut]
  simp [Fails, hlines, hopen, admits_nil, or_and_right, exists_or]

theorem fails_of_grows {b : UInt8}
    (hcut : Bytes.cut next = (Bytes.lines stream, Bytes.remainder stream ++ [b]))
    (hfails : limits.Fails stream) : limits.Fails next := by
  have hlines : Bytes.lines next = Bytes.lines stream := by
    simp [Bytes.lines, hcut]
  have hopen : Bytes.remainder next = Bytes.remainder stream ++ [b] := by
    simp [Bytes.remainder, hcut]
  obtain ⟨hpolicy, line, hline, hbeyond⟩ := hfails
  refine ⟨hpolicy, ?_⟩
  rw [hlines, hopen]
  rcases List.mem_append.mp hline with hended | hopen
  · exact ⟨line, List.mem_append_left _ hended, hbeyond⟩
  · obtain rfl : line = Bytes.remainder stream := by simpa using hopen
    exact ⟨_, by simp, admits_concat_of_not_admits hbeyond b⟩

/-- Nothing that comes after a failure matters. -/
theorem concat_of_fails (hfails : limits.Fails stream) (b : UInt8) :
    limits.Fails (stream ++ [b]) ∧
      limits.reached (Bytes.lines (stream ++ [b])) = limits.reached (Bytes.lines stream) := by
  rcases Bytes.cut_concat_cases stream b with ⟨-, -, hcut⟩ | ⟨-, -, hcut⟩ | ⟨-, hcut⟩
  · exact ⟨(fails_iff_of_same hcut).mpr hfails, by simp [Bytes.lines, hcut]⟩
  · refine ⟨(fails_iff_of_ends hcut).mpr hfails, ?_⟩
    rw [← reached_append_of_fails hfails]
    simp [Bytes.lines, Bytes.remainder, hcut]
  · exact ⟨fails_of_grows hcut hfails, by simp [Bytes.lines, hcut]⟩

/-- The lines and diagnostics of a stream grow with every line that ends. -/
theorem linesOf_of_ends (hgoing : ¬limits.Fails stream)
    (hcut : Bytes.cut next = (Bytes.lines stream ++ [Bytes.remainder stream], [])) :
    limits.linesOf next =
        limits.linesOf stream ++
          (limits.line? ((Bytes.lines stream).length + 1) (Bytes.remainder stream)).toList ∧
      limits.diagnosticsOf next =
        limits.diagnosticsOf stream ++
          (limits.diagnostic? ((Bytes.lines stream).length + 1)
            (Bytes.remainder stream)).toList := by
  have hlines : Bytes.lines next = Bytes.lines stream ++ [Bytes.remainder stream] := by
    simp [Bytes.lines, hcut]
  have hnext : ¬limits.Fails next := by
    intro hfails
    exact hgoing ((fails_iff_of_ends hcut).mp hfails)
  have hreached := reached_of_not_fails hnext
  rw [hlines] at hreached
  simp only [linesOf, diagnosticsOf, reached_of_not_fails hgoing, hlines, hreached,
    numbered_concat, and_self]

theorem openLine_remainder_ne_rejected (hgoing : ¬limits.Fails stream) :
    limits.openLine (Bytes.remainder stream) ≠ .rejected := by
  intro hrejected
  cases hfits : limits.admits (Bytes.remainder stream) with
  | true => simp [openLine, hfits] at hrejected
  | false =>
      cases hpolicy : limits.overflow with
      | failStream => exact hgoing ⟨hpolicy, _, by simp, hfits⟩
      | _ => simp [openLine, hfits, hpolicy] at hrejected

/-- What is handed out for a line that holds a byte holds a byte. -/
theorem ne_nil_of_line? {number : Nat} {line : Bytes} {made : Line}
    (hpos : 0 < limits.maxSize) (hline : line ≠ [])
    (hmade : limits.line? number line = some made) : made.bytes ≠ [] := by
  unfold line? at hmade
  split at hmade
  · cases hmade
    exact hline
  · split at hmade
    · cases hmade
      simp [hline]
      omega
    · cases hmade

theorem number_of_line? {number : Nat} {line : Bytes} {made : Line}
    (hmade : limits.line? number line = some made) : made.number = number := by
  unfold line? at hmade
  split at hmade
  · cases hmade
    rfl
  · split at hmade
    · cases hmade
      rfl
    · cases hmade

theorem reached_isPrefix (limits : LineLimits) (lines : List Bytes) :
    limits.reached lines <+: lines := by
  unfold reached
  split
  · exact List.takeWhile_prefix _
  · exact List.prefix_rfl

/-- A line that is handed out is what the limits leave of the line of its number. -/
theorem exists_of_mem_linesOf {line : Line} (hline : line ∈ limits.linesOf stream) :
    ∃ k bytes, (Bytes.lines stream)[k]? = some bytes ∧
      limits.line? (k + 1) bytes = some line := by
  obtain ⟨⟨bytes, number⟩, hmem, hmade⟩ := List.mem_filterMap.mp hline
  obtain ⟨hpos, hget⟩ := List.mk_mem_zipIdx_iff_le_and_getElem?_sub.mp hmem
  obtain ⟨later, hlater⟩ := limits.reached_isPrefix (Bytes.lines stream)
  have hlt := (List.getElem?_eq_some_iff.mp hget).1
  refine ⟨number - 1, bytes, ?_, ?_⟩
  · rw [← hlater, List.getElem?_append_left hlt, hget]
  · rw [Nat.sub_add_cancel hpos]
    exact hmade

theorem openLine_eq_rejected {line : Bytes} (hpolicy : limits.overflow = .failStream)
    (hbeyond : limits.admits line = false) : limits.openLine line = .rejected := by
  simp [openLine, hbeyond, hpolicy]

end LineLimits

namespace Splitter

/-! ## The open line -/

/-- The end of the open line hands out and reports what the limits say. -/
theorem signals_endLine {s : Splitter} {line : Bytes}
    (hcurrent : s.current = s.limits.openLine line) (hgoing : s.hasFailed = false) :
    Signal.lines s.endLine.2 = (s.limits.line? (s.ended + 1) line).toList ∧
      Signal.diagnostics s.endLine.2 = (s.limits.diagnostic? (s.ended + 1) line).toList := by
  by_cases hfits : s.limits.admits line = true
  · simp [endLine, hcurrent, LineLimits.openLine, LineLimits.line?, LineLimits.diagnostic?, hfits]
  · cases hpolicy : s.limits.overflow with
    | failStream => simp [hasFailed, hcurrent, LineLimits.openLine, hfits, hpolicy] at hgoing
    | _ =>
        simp [endLine, hcurrent, LineLimits.openLine, LineLimits.line?, LineLimits.diagnostic?,
          LineLimits.reported?, hfits, hpolicy, Handling.line?, Handling.captured?, policy]

@[simp] theorem openLine_nil (limits : LineLimits) : limits.openLine [] = .fitting #[] := by
  simp [LineLimits.openLine, LineLimits.admits]

theorem endLine_next {s : Splitter} (hgoing : s.hasFailed = false) :
    s.endLine.1.limits = s.limits ∧ s.endLine.1.current = .fitting #[] ∧
      s.endLine.1.ended = s.ended + 1 := by
  cases hcurrent : s.current with
  | fitting bytes => simp [endLine, hcurrent]
  | oversized handling length => simp [endLine, hcurrent]
  | rejected => simp [hasFailed, hcurrent] at hgoing

/-- The end of the stream ends an open line of which anything has been read. -/
theorem close_eq_endLine {s : Splitter} {line : Bytes}
    (hcurrent : s.current = s.limits.openLine line) (hgoing : s.hasFailed = false)
    (hsome : line ≠ []) : s.close = s.endLine := by
  unfold close
  split
  · next bytes hfitting =>
      have hbytes : bytes = line.toArray := by
        by_cases hfits : s.limits.admits line = true
        · simpa [hcurrent, LineLimits.openLine, hfits] using hfitting.symm
        · cases hpolicy : s.limits.overflow <;>
            simp [hcurrent, LineLimits.openLine, hfits, hpolicy] at hfitting
      simp [hbytes, hsome]
  · rfl
  · next hrejected => simp [hasFailed, hrejected] at hgoing

theorem append_byte_of_admits {s : Splitter} {line : Bytes}
    (hcurrent : s.current = s.limits.openLine line) (hfits : s.limits.admits line = true)
    (b : UInt8) : (s.append [b]).1.current = s.limits.openLine (line ++ [b]) := by
  have hfitting : s.current = .fitting line.toArray := by
    simp [hcurrent, LineLimits.openLine, hfits]
  have hlength : line.length ≤ s.limits.maxSize := by
    simpa [LineLimits.admits] using hfits
  by_cases hroom : line.length + 1 ≤ s.limits.maxSize
  · have hone : ([b] : Bytes).length ≤ s.limit - line.toArray.size := by
      simp [limit]
      omega
    rw [append_of_fits hfitting hone]
    simp [LineLimits.openLine, LineLimits.admits, hroom]
  · -- The line is exactly as long as the limit, and all of it is the head of the oversized line.
    have hfull : s.limit - line.toArray.size = 0 := by
      simp [limit]
      omega
    have hsize : line.length = s.limits.maxSize := by omega
    have hone : s.limit - line.toArray.size < ([b] : Bytes).length := by
      rw [hfull]
      simp
    rw [append_of_outgrows hfitting hone, hfull]
    cases hpolicy : s.limits.overflow <;>
      simp [outgrow, policy, hpolicy, OverflowPolicy.disposition, LineLimits.openLine,
        LineLimits.admits, limit, Handling.absorb, ← hsize]

theorem append_byte_of_not_admits {s : Splitter} {line : Bytes}
    (hcurrent : s.current = s.limits.openLine line) (hgoing : s.hasFailed = false)
    (hbeyond : s.limits.admits line = false) (b : UInt8) :
    (s.append [b]).1.current = s.limits.openLine (line ++ [b]) := by
  have hlength : s.limits.maxSize < line.length := by
    simpa [LineLimits.admits] using hbeyond
  have hstill : s.limits.admits (line ++ [b]) = false := by
    simp [LineLimits.admits]
    omega
  have htake : (line ++ [b]).take s.limits.maxSize = line.take s.limits.maxSize :=
    List.take_append_of_le_length (by omega)
  cases hpolicy : s.limits.overflow with
  | failStream => simp [hasFailed, hcurrent, LineLimits.openLine, hbeyond, hpolicy] at hgoing
  | _ =>
      simp [append, hcurrent, LineLimits.openLine, hbeyond, hstill, hpolicy, Handling.absorb,
        htake]

theorem append_byte {s : Splitter} {line : Bytes}
    (hcurrent : s.current = s.limits.openLine line) (hgoing : s.hasFailed = false) (b : UInt8) :
    (s.append [b]).1.current = s.limits.openLine (line ++ [b]) := by
  cases hfits : s.limits.admits line with
  | true => exact append_byte_of_admits hcurrent hfits b
  | false => exact append_byte_of_not_admits hcurrent hgoing hfits b

/-- A stretch without a terminator hands out and reports nothing, and ends no line. -/
theorem append_quiet (s : Splitter) (stretch : Bytes) :
    (s.append stretch).1.limits = s.limits ∧ (s.append stretch).1.ended = s.ended ∧
      Signal.lines (s.append stretch).2 = [] ∧ Signal.diagnostics (s.append stretch).2 = [] := by
  unfold append outgrow
  split
  · dsimp only
    split
    · simp
    · split <;> simp
  · simp
  · simp

/-! ## The invariant of reading -/

/-- A splitter with these limits has read `stream` and emitted `out`. -/
structure Reads (limits : LineLimits) (stream : Bytes) (s : Splitter) (out : List Signal) :
    Prop where
  limits_eq : s.limits = limits
  lines_eq : Signal.lines out = limits.linesOf stream
  diagnostics_eq : Signal.diagnostics out = limits.diagnosticsOf stream
  /-- After a failure the splitter has stopped at the line that failed it. -/
  stopped : limits.Fails stream →
    s.current = .rejected ∧ s.ended = (limits.reached (Bytes.lines stream)).length
  /-- Before a failure the splitter holds what the limits leave of the open line. -/
  reading : ¬limits.Fails stream →
    s.current = limits.openLine (Bytes.remainder stream) ∧
      s.ended = (Bytes.lines stream).length ∧
      (s.afterReturn = true ↔ stream.getLast? = some Bytes.carriageReturn)

namespace Reads

variable {limits : LineLimits} {stream : Bytes} {s : Splitter} {out : List Signal}

theorem start (limits : LineLimits) (hpos : 0 < limits.maxSize) :
    Reads limits [] (Splitter.start limits hpos) [] where
  limits_eq := rfl
  lines_eq := by simp [LineLimits.linesOf, LineLimits.reached]
  diagnostics_eq := by simp [LineLimits.diagnosticsOf, LineLimits.reached]
  stopped := by simp [LineLimits.Fails, LineLimits.admits_nil]
  reading := by simp [Splitter.start]

theorem hasFailed_iff (h : Reads limits stream s out) :
    s.hasFailed = true ↔ limits.Fails stream := by
  rw [hasFailed_eq_true_iff]
  constructor
  · intro hrejected
    by_contra hgoing
    exact LineLimits.openLine_remainder_ne_rejected hgoing
      ((h.reading hgoing).1.symm.trans hrejected)
  · intro hfails
    exact (h.stopped hfails).1

theorem going (h : Reads limits stream s out) (hgoing : ¬limits.Fails stream) :
    s.hasFailed = false := by
  rw [← h.hasFailed_iff] at hgoing
  simpa using hgoing

/-- After a failure nothing changes any more. -/
theorem step_of_fails (h : Reads limits stream s out) (hfails : limits.Fails stream)
    (b : UInt8) : Reads limits (stream ++ [b]) (s.step b).1 (out ++ (s.step b).2) := by
  obtain ⟨hstill, hreached⟩ := LineLimits.concat_of_fails hfails b
  rw [step_of_hasFailed (h.hasFailed_iff.mpr hfails), List.append_nil]
  exact {
    limits_eq := h.limits_eq
    lines_eq := by rw [h.lines_eq, LineLimits.linesOf, LineLimits.linesOf, hreached]
    diagnostics_eq := by
      rw [h.diagnostics_eq, LineLimits.diagnosticsOf, LineLimits.diagnosticsOf, hreached]
    stopped := by
      intro _
      rw [hreached]
      exact h.stopped hfails
    reading := by
      intro hgoing
      exact absurd hstill hgoing }

theorem step_of_same (h : Reads limits stream s out) (hgoing : ¬limits.Fails stream)
    (hreturn : stream.getLast? = some Bytes.carriageReturn)
    (hcut : Bytes.cut (stream ++ [Bytes.lineFeed]) = Bytes.cut stream) :
    Reads limits (stream ++ [Bytes.lineFeed]) (s.step Bytes.lineFeed).1
      (out ++ (s.step Bytes.lineFeed).2) := by
  obtain ⟨hcurrent, hended, hafter⟩ := h.reading hgoing
  have hlines : Bytes.lines (stream ++ [Bytes.lineFeed]) = Bytes.lines stream := by
    simp [Bytes.lines, hcut]
  have hopen : Bytes.remainder (stream ++ [Bytes.lineFeed]) = Bytes.remainder stream := by
    simp [Bytes.remainder, hcut]
  rw [step_of_afterReturn (h.going hgoing) (hafter.mpr hreturn), List.append_nil]
  exact {
    limits_eq := h.limits_eq
    lines_eq := by rw [h.lines_eq, LineLimits.linesOf, LineLimits.linesOf, hlines]
    diagnostics_eq := by
      rw [h.diagnostics_eq, LineLimits.diagnosticsOf, LineLimits.diagnosticsOf, hlines]
    stopped := by
      intro hfails
      exact absurd ((LineLimits.fails_iff_of_same hcut).mp hfails) hgoing
    reading := by
      intro _
      rw [hlines, hopen]
      exact ⟨hcurrent, hended, by simp [Bytes.lineFeed_ne_carriageReturn]⟩ }

theorem step_of_ends (h : Reads limits stream s out) (hgoing : ¬limits.Fails stream) {b : UInt8}
    (hb : Bytes.isTerminator b = true)
    (hapart : ¬(stream.getLast? = some Bytes.carriageReturn ∧ b = Bytes.lineFeed))
    (hcut : Bytes.cut (stream ++ [b]) = (Bytes.lines stream ++ [Bytes.remainder stream], [])) :
    Reads limits (stream ++ [b]) (s.step b).1 (out ++ (s.step b).2) := by
  obtain ⟨hcurrent, hended, hafter⟩ := h.reading hgoing
  have hsignals := signals_endLine (h.limits_eq ▸ hcurrent) (h.going hgoing)
  have hnext := endLine_next (h.going hgoing)
  have hgrown := LineLimits.linesOf_of_ends hgoing hcut
  have hlines : Bytes.lines (stream ++ [b]) = Bytes.lines stream ++ [Bytes.remainder stream] := by
    simp [Bytes.lines, hcut]
  have hopen : Bytes.remainder (stream ++ [b]) = [] := by
    simp [Bytes.remainder, hcut]
  rw [step_of_isTerminator (h.going hgoing) hb (by rwa [hafter])]
  rw [h.limits_eq, hended] at hsignals
  exact {
    limits_eq := hnext.1.trans h.limits_eq
    lines_eq := by rw [Signal.lines_append, h.lines_eq, hsignals.1, hgrown.1]
    diagnostics_eq := by
      rw [Signal.diagnostics_append, h.diagnostics_eq, hsignals.2, hgrown.2]
    stopped := by
      intro hfails
      exact absurd ((LineLimits.fails_iff_of_ends hcut).mp hfails) hgoing
    reading := by
      intro _
      rw [hlines, hopen, openLine_nil]
      refine ⟨hnext.2.1, ?_, by simp⟩
      simp [hnext.2.2, hended] }

theorem step_of_grows (h : Reads limits stream s out) (hgoing : ¬limits.Fails stream) {b : UInt8}
    (hb : Bytes.isTerminator b = false)
    (hcut : Bytes.cut (stream ++ [b]) =
      (Bytes.lines stream, Bytes.remainder stream ++ [b])) :
    Reads limits (stream ++ [b]) (s.step b).1 (out ++ (s.step b).2) := by
  obtain ⟨hcurrent, hended, -⟩ := h.reading hgoing
  have hlines : Bytes.lines (stream ++ [b]) = Bytes.lines stream := by
    simp [Bytes.lines, hcut]
  have hopen : Bytes.remainder (stream ++ [b]) = Bytes.remainder stream ++ [b] := by
    simp [Bytes.remainder, hcut]
  let t : Splitter := { s with afterReturn := false }
  have hquiet := append_quiet t [b]
  have hcurrent' := append_byte (s := t) (h.limits_eq ▸ hcurrent) (h.going hgoing) b
  have hafter := append_afterReturn (s := t) rfl [b]
  rw [step_of_not_isTerminator (h.going hgoing) hb]
  exact {
    limits_eq := hquiet.1.trans h.limits_eq
    lines_eq := by
      rw [Signal.lines_append, hquiet.2.2.1, List.append_nil, h.lines_eq, LineLimits.linesOf,
        LineLimits.linesOf, hlines]
    diagnostics_eq := by
      rw [Signal.diagnostics_append, hquiet.2.2.2, List.append_nil, h.diagnostics_eq,
        LineLimits.diagnosticsOf, LineLimits.diagnosticsOf, hlines]
    stopped := by
      intro hfails
      have hbeyond := LineLimits.not_admits_remainder hfails
        (by rw [hlines]; exact LineLimits.admits_of_not_fails hgoing hfails.1)
      have hrejected := LineLimits.openLine_eq_rejected hfails.1 hbeyond
      rw [hlines, LineLimits.reached_of_not_fails hgoing, hquiet.2.1, hcurrent', ← hopen]
      exact ⟨h.limits_eq ▸ hrejected, hended⟩
    reading := by
      intro _
      have hother := Bytes.isTerminator_eq_false_iff.mp hb
      rw [hlines, hopen, hquiet.2.1, hcurrent']
      exact ⟨h.limits_eq ▸ rfl, hended, by rw [hafter]; simp [hother.2]⟩ }

/-- One more byte keeps the invariant. -/
theorem step (h : Reads limits stream s out) (b : UInt8) :
    Reads limits (stream ++ [b]) (s.step b).1 (out ++ (s.step b).2) := by
  by_cases hfails : limits.Fails stream
  · exact h.step_of_fails hfails b
  · rcases Bytes.cut_concat_cases stream b with
      ⟨hreturn, rfl, hcut⟩ | ⟨hapart, hb, hcut⟩ | ⟨hb, hcut⟩
    · exact h.step_of_same hfails hreturn hcut
    · exact h.step_of_ends hfails hb hapart hcut
    · exact h.step_of_grows hfails hb hcut

theorem run_step (limits : LineLimits) (hpos : 0 < limits.maxSize) (stream : Bytes) :
    Reads limits stream (Transducer.run Splitter.step (Splitter.start limits hpos) stream).1
      (Transducer.run Splitter.step (Splitter.start limits hpos) stream).2 := by
  induction stream using List.reverseRecOn with
  | nil => exact start limits hpos
  | append_singleton stream b ih =>
      rw [Transducer.run_append]
      simpa [Transducer.run_cons] using ih.step b

/-- Whatever chunks are read, the invariant holds. -/
theorem readAll (limits : LineLimits) (hpos : 0 < limits.maxSize) (chunks : List Bytes) :
    Reads limits chunks.flatten ((Splitter.start limits hpos).readAll chunks).1
      ((Splitter.start limits hpos).readAll chunks).2 := by
  rw [readAll_eq_run]
  exact run_step limits hpos chunks.flatten

theorem error?_eq (h : Reads limits stream s out) : s.error? = limits.error? stream := by
  by_cases hfails : limits.Fails stream
  · have hfailed := h.hasFailed_iff.mpr hfails
    simp [Splitter.error?, LineLimits.error?, hfailed, hfails, (h.stopped hfails).2, limit,
      h.limits_eq]
  · simp [Splitter.error?, LineLimits.error?, h.going hfails, hfails]

/-- The end of the stream resolves the open line as if it had been terminated. -/
theorem signals_close (h : Reads limits stream s out) :
    Signal.lines s.close.2 =
        ((limits.trailing? stream).bind
          (limits.line? ((Bytes.lines stream).length + 1))).toList ∧
      Signal.diagnostics s.close.2 =
        ((limits.trailing? stream).bind
          (limits.diagnostic? ((Bytes.lines stream).length + 1))).toList := by
  by_cases hfails : limits.Fails stream
  · simp [close, (h.stopped hfails).1, LineLimits.trailing?, hfails]
  · obtain ⟨hcurrent, hended, -⟩ := h.reading hfails
    by_cases hempty : Bytes.remainder stream = []
    · rw [hempty, openLine_nil] at hcurrent
      simp [close, hcurrent, LineLimits.trailing?, hempty]
    · rw [← h.limits_eq] at hcurrent
      have hsignals := signals_endLine hcurrent (h.going hfails)
      rw [close_eq_endLine hcurrent (h.going hfails) hempty]
      simpa [LineLimits.trailing?, hfails, hempty, hended, h.limits_eq] using hsignals

theorem ne_nil_of_mem_close (h : Reads limits stream s out) :
    ∀ line ∈ Signal.lines s.close.2, line.bytes ≠ [] := by
  intro line hline
  rw [h.signals_close.1, Option.mem_toList] at hline
  obtain ⟨rest, hrest, hmade⟩ := Option.bind_eq_some_iff.mp hline
  have hpos : 0 < limits.maxSize := h.limits_eq ▸ s.limit_pos
  have hsome : rest ≠ [] := by
    unfold LineLimits.trailing? at hrest
    split at hrest
    · cases hrest
    · next hopen =>
        cases hrest
        intro hempty
        exact hopen (Or.inr hempty)
  exact LineLimits.ne_nil_of_line? hpos hsome hmade

end Reads

/-! ## The whole stream -/

/-- Whatever the chunks of a stream are, its lines, its diagnostics and its failure are those of
the grammar and the limits, and its end resolves what is left open. -/
theorem readAll_start (limits : LineLimits) (hpos : 0 < limits.maxSize) (chunks : List Bytes) :
    let stream := chunks.flatten
    let read := (start limits hpos).readAll chunks
    let sink := ((Sink.collector []).acceptAll (Signal.notices read.2)).1
    let closed := read.1.close
    let number := (Bytes.lines stream).length + 1
    Signal.lines read.2 = limits.linesOf stream ∧
      sink = .collector (limits.diagnosticsOf stream) ∧
      read.1.error? = limits.error? stream ∧
      Signal.lines closed.2 = ((limits.trailing? stream).bind (limits.line? number)).toList ∧
      (sink.acceptAll (Signal.notices closed.2)).1 =
        .collector (limits.diagnosticsOf stream ++
          ((limits.trailing? stream).bind (limits.diagnostic? number)).toList) := by
  have h := Reads.readAll limits hpos chunks
  have hsink : ((Sink.collector []).acceptAll
      (Signal.notices ((start limits hpos).readAll chunks).2)).1 =
        .collector (limits.diagnosticsOf chunks.flatten) := by
    rw [Sink.acceptAll_collector, List.nil_append, ← h.diagnostics_eq]
    rfl
  refine ⟨h.lines_eq, hsink, h.error?_eq, h.signals_close.1, ?_⟩
  rw [hsink, Sink.acceptAll_collector, ← h.signals_close.2]
  rfl

/-- A carriage return and its line feed may come in different chunks, and so may the head of an
oversized line and its rest. -/
theorem readAll_start_of_cuts :
    let read := (start ⟨3, .truncate⟩ (by decide)).readAll
      [[0x61, 0x0d], [0x0a, 0x62, 0x63, 0x64], [0x65, 0x0a], [], [0x66]]
    Signal.lines read.2 = [⟨[0x61], 1, false⟩, ⟨[0x62, 0x63, 0x64], 2, true⟩] ∧
      ((Sink.collector []).acceptAll (Signal.notices read.2)).1 =
        .collector [⟨.truncate, 2, 4, some [0x62, 0x63, 0x64]⟩] ∧
      Signal.lines read.1.close.2 = [⟨[0x66], 3, false⟩] := by
  obtain ⟨hlines, hsink, -, htrailing, -⟩ := readAll_start ⟨3, .truncate⟩ (by decide)
    [[0x61, 0x0d], [0x0a, 0x62, 0x63, 0x64], [0x65, 0x0a], [], [0x66]]
  refine ⟨hlines.trans (by decide), hsink.trans ?_, htrailing.trans (by decide)⟩
  exact congrArg Sink.collector (by decide)

end Splitter

end ServerSentEvents
