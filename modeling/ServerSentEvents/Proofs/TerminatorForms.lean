import Mathlib.Data.List.Chain
import ServerSentEvents.Proofs.Decoding
import ServerSentEvents.Proofs.Splitter.Accounting
import ServerSentEvents.Proofs.Splitter.Policies

/-!
# Lines that end in different forms

Each line of a stream may end in a form of its own.  Only one pair of lines cannot be told apart: an
empty line that ends with a line feed, right after a line that ends with a carriage return alone,
because the two terminators are read as one.  Where no such pair stands side by side, the stream has
the lines it was made up of (`TerminatedLine.cut_stream_iff`), and so nothing that a splitter or a
decoder does shows in which form a line ended.
-/

namespace ServerSentEvents

/-- A line and the terminator that ends it. -/
structure TerminatedLine where
  line : Bytes
  terminator : Terminator
  deriving DecidableEq, Repr

namespace TerminatedLine

open Bytes (cut Unbroken)

def bytes (l : TerminatedLine) : Bytes :=
  l.line ++ l.terminator.bytes

/-- The byte string of lines with their terminators and a tail without one. -/
def stream (lines : List TerminatedLine) (tail : Bytes) : Bytes :=
  lines.flatMap bytes ++ tail

/-- The same line, ended by a line feed. -/
def withFeed (l : TerminatedLine) : TerminatedLine :=
  { l with terminator := .lineFeed }

/-- The terminators of two lines are read as one. -/
def Merges (first next : TerminatedLine) : Prop :=
  first.terminator = .carriageReturn ∧ next = ⟨[], .lineFeed⟩

instance (first next : TerminatedLine) : Decidable (first.Merges next) :=
  inferInstanceAs (Decidable (_ ∧ _))

/-- No two neighbours merge. -/
def Apart (lines : List TerminatedLine) : Prop :=
  lines.IsChain fun first next => ¬first.Merges next

instance (lines : List TerminatedLine) : Decidable (Apart lines) :=
  inferInstanceAs (Decidable (lines.IsChain _))

variable {lines : List TerminatedLine} {tail : Bytes}

theorem stream_cons (l : TerminatedLine) (lines : List TerminatedLine) (tail : Bytes) :
    stream (l :: lines) tail = l.line ++ (l.terminator.bytes ++ stream lines tail) := by
  simp [stream, bytes]

/-- A stream begins with a line feed only if its first line is empty and ends with one. -/
theorem head?_stream_iff (hlines : ∀ l ∈ lines, Unbroken l.line) (htail : Unbroken tail) :
    (stream lines tail).head? = some Bytes.lineFeed ↔ lines.head? = some ⟨[], .lineFeed⟩ := by
  have hfree {line : Bytes} (hline : Unbroken line) : line.head? ≠ some Bytes.lineFeed := by
    intro hhead
    have hb := hline _ (List.mem_of_head? hhead)
    simp [Bytes.isTerminator] at hb
  cases lines with
  | nil => simpa [stream] using hfree htail
  | cons l others =>
      obtain ⟨line, t⟩ := l
      rw [stream_cons]
      cases line with
      | nil => cases t <;> simp [Terminator.bytes, Bytes.lineFeed_ne_carriageReturn.symm]
      | cons b rest => simpa using hfree (hlines _ List.mem_cons_self)

/-- A line that does not merge with the next one is the first line of the stream. -/
theorem cut_stream_cons {l : TerminatedLine} (hlines : ∀ l' ∈ l :: lines, Unbroken l'.line)
    (htail : Unbroken tail) (hapart : ∀ next ∈ lines.head?, ¬l.Merges next) :
    cut (stream (l :: lines) tail) =
      (l.line :: (cut (stream lines tail)).1, (cut (stream lines tail)).2) := by
  obtain ⟨hline, hothers⟩ := List.forall_mem_cons.mp hlines
  rw [stream_cons, Bytes.cut_line hline]
  intro hreturn hhead
  exact hapart _ ((head?_stream_iff hothers htail).mp hhead) ⟨hreturn, rfl⟩

theorem cut_stream_of_apart (hlines : ∀ l ∈ lines, Unbroken l.line) (htail : Unbroken tail)
    (hapart : Apart lines) : cut (stream lines tail) = (lines.map (·.line), tail) := by
  induction lines with
  | nil => exact Bytes.cut_of_unbroken htail
  | cons l others ih =>
      obtain ⟨hfirst, hrest⟩ := List.isChain_cons.mp hapart
      rw [cut_stream_cons hlines htail hfirst, ih (List.forall_mem_cons.mp hlines).2 hrest,
        List.map_cons]

/-- Two lines that merge are read as one. -/
theorem length_cut_stream_of_merges {l next : TerminatedLine} (hline : Unbroken l.line)
    (hmerges : l.Merges next) :
    (cut (stream (l :: next :: lines) tail)).1.length =
      (cut (stream (next :: lines) tail)).1.length := by
  obtain ⟨hreturn, rfl⟩ := hmerges
  have hboth : stream (l :: ⟨[], .lineFeed⟩ :: lines) tail =
      l.line ++ (Terminator.returnAndFeed.bytes ++ stream lines tail) := by
    simp [stream_cons, hreturn, Terminator.bytes]
  have hnext : stream (⟨[], .lineFeed⟩ :: lines) tail =
      Terminator.lineFeed.bytes ++ stream lines tail := by
    simp [stream_cons]
  rw [hboth, hnext, Bytes.cut_line hline _ (by simp), Bytes.cut_terminator _ (by simp)]
  rfl

/-- The stream has at most as many lines as it was made up of, and fewer where two of them merge. -/
theorem length_cut_stream (hlines : ∀ l ∈ lines, Unbroken l.line) (htail : Unbroken tail) :
    (cut (stream lines tail)).1.length ≤ lines.length ∧
      (¬Apart lines → (cut (stream lines tail)).1.length < lines.length) := by
  induction lines with
  | nil =>
      rw [cut_stream_of_apart hlines htail List.isChain_nil]
      simp [Apart]
  | cons l others ih =>
      obtain ⟨hline, hothers⟩ := List.forall_mem_cons.mp hlines
      obtain ⟨hmost, hfewer⟩ := ih hothers
      by_cases hfirst : ∀ next ∈ others.head?, ¬l.Merges next
      · rw [cut_stream_cons hlines htail hfirst]
        refine ⟨Nat.succ_le_succ hmost, fun hnot => Nat.succ_lt_succ (hfewer fun hrest => ?_)⟩
        exact hnot (List.isChain_cons.mpr ⟨hfirst, hrest⟩)
      · push Not at hfirst
        obtain ⟨next, hnext, hmerges⟩ := hfirst
        obtain ⟨rest, rfl⟩ := List.head?_eq_some_iff.mp hnext
        rw [length_cut_stream_of_merges hline hmerges]
        exact ⟨hmost.trans (Nat.le_succ _), fun _ => Nat.lt_succ_of_le hmost⟩

/-- A stream has the lines that it was made up of if and only if no two neighbours merge. -/
theorem cut_stream_iff (hlines : ∀ l ∈ lines, Unbroken l.line) (htail : Unbroken tail) :
    cut (stream lines tail) = (lines.map (·.line), tail) ↔ Apart lines := by
  refine ⟨fun hcut => ?_, cut_stream_of_apart hlines htail⟩
  by_contra hnot
  have hfewer := (length_cut_stream hlines htail).2 hnot
  rw [hcut, List.length_map] at hfewer
  exact Nat.lt_irrefl _ hfewer

/-- Lines that all end with a line feed never merge. -/
theorem apart_map_withFeed (lines : List TerminatedLine) : Apart (lines.map withFeed) := by
  refine (List.isChain_map _).mpr ((List.isChain_isInfix lines).imp fun first next _ hmerges => ?_)
  cases hmerges.1

end TerminatedLine

namespace Splitter

/-! ## Streams with the same lines -/

/-- Two runs cannot be told apart by what was emitted and counted, nor by how they failed. -/
structure Agree (one other : Splitter × List Signal) : Prop where
  lines_eq : Signal.lines one.2 = Signal.lines other.2
  diagnostics_eq : Signal.diagnostics one.2 = Signal.diagnostics other.2
  counts_eq : one.1.counts = other.1.counts
  error_eq : one.1.error? = other.1.error?

/-- The counters are determined by what was emitted. -/
theorem Books.counts_eq {s t t' : Splitter} {out out' : List Signal} (h : Books s out t)
    (h' : Books s out' t') (hlines : Signal.lines out = Signal.lines out')
    (hdiagnostics : Signal.diagnostics out = Signal.diagnostics out') : t.counts = t'.counts := by
  have hunder (policy : OverflowPolicy) : t.counts.under policy = t'.counts.under policy := by
    rw [h.under_eq, h'.under_eq, hdiagnostics]
  have hhanded : t.counts.lines = t'.counts.lines := by rw [h.lines_eq, h'.lines_eq, hlines]
  exact LineCounts.ext hhanded (hunder .logAndSkip) (hunder .truncate) (hunder .deadLetter)

/-- The stream's end and what comes before it, as one run. -/
def readToEnd (s : Splitter) (chunks : List Bytes) : Splitter × List Signal :=
  s.respondAll (chunks.map .read ++ [.close])

theorem readToEnd_eq (s : Splitter) (chunks : List Bytes) :
    s.readToEnd chunks =
      ((s.readAll chunks).1.close.1, (s.readAll chunks).2 ++ (s.readAll chunks).1.close.2) := by
  rw [readToEnd, respondAll_concat, respondAll_read]
  rfl

/-- The end of a stream leaves its failure as it is. -/
theorem error?_close (s : Splitter) : s.close.1.error? = s.error? := by
  cases hfailed : s.hasFailed with
  | true => simp [close, hasFailed_eq_true_iff.mp hfailed, error?, hasFailed, limit]
  | false =>
      have hended : s.close.1.hasFailed = false := by
        unfold close
        split
        · split
          · exact hfailed
          · exact (endLine_start hfailed).1
        · exact (endLine_start hfailed).1
        · exact hfailed
      rw [error?_eq_none_iff.mpr hended, error?_eq_none_iff.mpr hfailed]

variable {limits : LineLimits} {hpos : 0 < limits.maxSize} {chunks others : List Bytes}

/-- Runs from the start of a stream that emit the same and fail alike agree. -/
theorem agree_of_requests {requests requests' : List Request}
    (hlines : Signal.lines ((start limits hpos).respondAll requests).2 =
      Signal.lines ((start limits hpos).respondAll requests').2)
    (hdiagnostics : Signal.diagnostics ((start limits hpos).respondAll requests).2 =
      Signal.diagnostics ((start limits hpos).respondAll requests').2)
    (herror : ((start limits hpos).respondAll requests).1.error? =
      ((start limits hpos).respondAll requests').1.error?) :
    Agree ((start limits hpos).respondAll requests) ((start limits hpos).respondAll requests') where
  lines_eq := hlines
  diagnostics_eq := hdiagnostics
  counts_eq :=
    (books_respondAll (aligned_start limits hpos) requests).1.counts_eq
      (books_respondAll (aligned_start limits hpos) requests').1 hlines hdiagnostics
  error_eq := herror

/-- Chunks in which the same lines end, with the same rest after them, cannot be told apart. -/
theorem agree_of_cut (limits : LineLimits) (hpos : 0 < limits.maxSize)
    (hcut : Bytes.cut chunks.flatten = Bytes.cut others.flatten) :
    Agree ((start limits hpos).readAll chunks) ((start limits hpos).readAll others) ∧
      Agree ((start limits hpos).readToEnd chunks) ((start limits hpos).readToEnd others) := by
  have hreads := Reads.readAll limits hpos chunks
  have hreads' := Reads.readAll limits hpos others
  have hended : Bytes.lines chunks.flatten = Bytes.lines others.flatten := congrArg (·.1) hcut
  have hrest : Bytes.remainder chunks.flatten = Bytes.remainder others.flatten :=
    congrArg (·.2) hcut
  have hfails : limits.Fails chunks.flatten ↔ limits.Fails others.flatten :=
    LineLimits.fails_iff_of_same hcut
  have htrailing : limits.trailing? chunks.flatten = limits.trailing? others.flatten := by
    simp only [LineLimits.trailing?, hrest, hfails]
  have hlines : Signal.lines ((start limits hpos).readAll chunks).2 =
      Signal.lines ((start limits hpos).readAll others).2 := by
    rw [hreads.lines_eq, hreads'.lines_eq, LineLimits.linesOf, LineLimits.linesOf, hended]
  have hdiagnostics : Signal.diagnostics ((start limits hpos).readAll chunks).2 =
      Signal.diagnostics ((start limits hpos).readAll others).2 := by
    rw [hreads.diagnostics_eq, hreads'.diagnostics_eq, LineLimits.diagnosticsOf,
      LineLimits.diagnosticsOf, hended]
  have herror : ((start limits hpos).readAll chunks).1.error? =
      ((start limits hpos).readAll others).1.error? := by
    rw [hreads.error?_eq, hreads'.error?_eq]
    simp only [LineLimits.error?, hended, hfails]
  obtain ⟨hlast, hreport⟩ := hreads.signals_close
  rw [htrailing, hended, ← hreads'.signals_close.1] at hlast
  rw [htrailing, hended, ← hreads'.signals_close.2] at hreport
  constructor
  · rw [← respondAll_read] at hlines hdiagnostics herror ⊢
    rw [← respondAll_read] at hlines hdiagnostics herror ⊢
    exact agree_of_requests hlines hdiagnostics herror
  · refine agree_of_requests ?_ ?_ ?_
    · rw [← readToEnd, ← readToEnd, readToEnd_eq, readToEnd_eq, Signal.lines_append,
        Signal.lines_append, hlines, hlast]
    · rw [← readToEnd, ← readToEnd, readToEnd_eq, readToEnd_eq, Signal.diagnostics_append,
        Signal.diagnostics_append, hdiagnostics, hreport]
    · rw [← readToEnd, ← readToEnd, readToEnd_eq, readToEnd_eq, error?_close, error?_close, herror]

end Splitter

namespace TerminatedLine

/-! ## Terminators are interchangeable -/

open Bytes (cut Unbroken)

/-- Lines that are handed out whole and numbered from 1. -/
def wholeLines (lines : List Bytes) : List Line :=
  (lines.zipIdx 1).map fun (line, number) => ⟨line, number, false⟩

/-- The lines of a stream up to its end, which ends the tail unless it is empty. -/
def untilEnd (lines : List TerminatedLine) (tail : Bytes) : List Bytes :=
  lines.map (·.line) ++ if tail = [] then [] else [tail]

theorem numbered_whole (lines : List Bytes) :
    LineLimits.numbered (fun number line => some ⟨line, number, false⟩) lines =
      wholeLines lines := by
  simp [LineLimits.numbered, wholeLines]

variable {limits : LineLimits} {hpos : 0 < limits.maxSize} {lines : List TerminatedLine}
  {tail : Bytes} {chunks : List Bytes}

/-- Lines that fit are handed out as they are. -/
theorem lines_readAll_of_fits
    (hcut : cut chunks.flatten = (lines.map (·.line), tail))
    (hfit : ∀ l ∈ lines, l.line.length ≤ limits.maxSize) :
    Signal.lines ((Splitter.start limits hpos).readAll chunks).2 =
      wholeLines (lines.map (·.line)) := by
  have hlines : Bytes.lines chunks.flatten = lines.map (·.line) := congrArg (·.1) hcut
  have hadmits : ∀ line ∈ Bytes.lines chunks.flatten, limits.admits line = true := by
    simpa [hlines, LineLimits.admits] using hfit
  rw [(Splitter.Reads.readAll limits hpos chunks).lines_eq, LineLimits.linesOf,
    LineLimits.reached_of_admits hadmits, LineLimits.numbered_line?_of_admits hadmits, hlines,
    numbered_whole]

/-- So is a tail that fits when the stream ends, and then there is nothing to report. -/
theorem lines_readToEnd_of_fits
    (hcut : cut chunks.flatten = (lines.map (·.line), tail))
    (hfit : ∀ l ∈ lines, l.line.length ≤ limits.maxSize) (hrest : tail.length ≤ limits.maxSize) :
    let ran := (Splitter.start limits hpos).readToEnd chunks
    Signal.lines ran.2 = wholeLines (untilEnd lines tail) ∧ Signal.diagnostics ran.2 = [] ∧
      ran.1.error? = none := by
  have hcourse : Course.of (chunks.map .read ++ [.close]) = { past := untilEnd lines tail } := by
    rw [Course.of_concat, Course.of_map_read]
    simp [Course.next, Course.ended, Course.openBytes, Bytes.lines, Bytes.remainder, hcut,
      untilEnd]
  have hwithin : (Course.of (chunks.map .read ++ [.close])).Within limits.maxSize := by
    rw [Course.within_iff, hcourse]
    refine ⟨?_, by simp, by simp [Course.openBytes]⟩
    intro line hline
    rcases List.mem_append.mp (show line ∈ untilEnd lines tail ++ [] from hline) with hend | hnone
    · rcases List.mem_append.mp hend with hended | hopen
      · obtain ⟨l, hl, rfl⟩ := List.mem_map.mp hended
        exact hfit l hl
      · split at hopen
        · cases hopen
        · rwa [List.mem_singleton.mp hopen]
    · cases hnone
  have hfollows := Splitter.Follows.respondAll hpos fun _ => hwithin
  obtain ⟨hout, hnone, -, herror⟩ := hfollows.of_within hwithin
  rw [hcourse, numbered_whole] at hout
  exact ⟨hout.trans (by simp [Course.ended]), hnone, herror⟩

/-- A stream in which no two neighbours merge is read as if every line ended with a line feed and
all of it came at once, and so is its end.  Lines that fit are handed out as they are, and so is
the tail when the stream ends. -/
theorem readToEnd_stream (limits : LineLimits) (hpos : 0 < limits.maxSize)
    (hlines : ∀ l ∈ lines, Unbroken l.line) (htail : Unbroken tail) (hapart : Apart lines)
    (hchunks : chunks.flatten = stream lines tail) :
    let plain := [stream (lines.map withFeed) tail]
    let splitter := Splitter.start limits hpos
    let decoder := Decoder.start limits hpos
    Splitter.Agree (splitter.readAll chunks) (splitter.readAll plain) ∧
      Splitter.Agree (splitter.readToEnd chunks) (splitter.readToEnd plain) ∧
      ((∀ l ∈ lines, l.line.length ≤ limits.maxSize) →
        Signal.lines (splitter.readAll chunks).2 = wholeLines (lines.map (·.line)) ∧
          (tail.length ≤ limits.maxSize →
            Signal.lines (splitter.readToEnd chunks).2 = wholeLines (untilEnd lines tail) ∧
              Signal.diagnostics (splitter.readToEnd chunks).2 = [] ∧
              (splitter.readToEnd chunks).1.error? = none)) ∧
      (decoder.readAll chunks).2.1 = (decoder.readAll plain).2.1 ∧
      (decoder.readAll chunks).1.lastEventId = (decoder.readAll plain).1.lastEventId := by
  intro plain splitter decoder
  have hcut : cut chunks.flatten = (lines.map (·.line), tail) := by
    rw [hchunks, (cut_stream_iff hlines htail).mpr hapart]
  have hplain : cut plain.flatten = (lines.map (·.line), tail) := by
    have hfeeds : ∀ l ∈ lines.map withFeed, Unbroken l.line := by
      simpa [withFeed] using hlines
    have hsame : (lines.map withFeed).map (·.line) = lines.map (·.line) := by
      simp [withFeed, Function.comp_def]
    rw [List.flatten_singleton, (cut_stream_iff hfeeds htail).mpr (apart_map_withFeed lines), hsame]
  obtain ⟨hread, hend⟩ := Splitter.agree_of_cut limits hpos (hcut.trans hplain.symm)
  refine ⟨hread, hend, fun hfit => ⟨?_, fun hrest => ?_⟩, ?_⟩
  · exact lines_readAll_of_fits hcut hfit
  · exact lines_readToEnd_of_fits hcut hfit hrest
  · exact Decoder.readAll_of_lines_eq (Decoder.sound_start limits hpos)
      (Decoder.sound_start limits hpos) rfl hread.lines_eq

/-- Empty lines and all forms of terminators may stand side by side, and a chunk may end between a
carriage return and its line feed. -/
theorem readToEnd_stream_of_mixed :
    let lines : List TerminatedLine := [⟨[0x61], .carriageReturn⟩, ⟨[], .returnAndFeed⟩,
      ⟨[], .lineFeed⟩, ⟨[0x62, 0x63], .carriageReturn⟩, ⟨[], .carriageReturn⟩]
    let chunks := [[0x61, 0x0d, 0x0d], [0x0a, 0x0a, 0x62], [], [0x63, 0x0d, 0x0d, 0x64]]
    let splitter := Splitter.start ⟨2, .deadLetter⟩ Nat.zero_lt_two
    Splitter.Agree (splitter.readToEnd chunks)
        (splitter.readToEnd [stream (lines.map withFeed) [0x64]]) ∧
      Signal.lines (splitter.readToEnd chunks).2 =
        [⟨[0x61], 1, false⟩, ⟨[], 2, false⟩, ⟨[], 3, false⟩, ⟨[0x62, 0x63], 4, false⟩,
          ⟨[], 5, false⟩, ⟨[0x64], 6, false⟩] := by
  intro lines chunks splitter
  have hchunks : chunks.flatten = stream lines [0x64] := by decide
  obtain ⟨-, hend, hwhole, -⟩ := readToEnd_stream ⟨2, .deadLetter⟩ Nat.zero_lt_two (by decide)
    (by decide) (by decide) hchunks
  obtain ⟨-, hlast⟩ := hwhole (by decide)
  exact ⟨hend, (hlast (by decide)).1.trans (by decide)⟩

end TerminatedLine

end ServerSentEvents
