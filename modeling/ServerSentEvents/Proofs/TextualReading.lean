import ServerSentEvents.Proofs.Decoding
import ServerSentEvents.Proofs.Fields
import ServerSentEvents.Text.Pieces

/-!
# Reading a stream as text

The grammar of event streams may be stated for text: the whole stream is read as text, a byte-order
mark at its start is dropped, and lines, names and values are cut out of its characters.  A decoder
cuts bytes and reads only the values as text.  Both come to the same, because reading as text
commutes with every cut at an ASCII byte (`Utf8.decodeChars_append_cons`), whatever stands before
it.
-/

namespace ServerSentEvents

namespace Text

/-! ## The grammar of texts -/

/-- A text with a line feed in the place of every line end. -/
def normalizeEnds : List Char → List Char
  | [] => []
  | c :: rest =>
    if c = '\r' then
      if rest.head? = some '\n' then normalizeEnds rest else '\n' :: normalizeEnds rest
    else c :: normalizeEnds rest

/-- The terminated lines of a text, without their ends. -/
def lines (cs : List Char) : List (List Char) :=
  (pieces '\n' (normalizeEnds cs)).dropLast

/-- A text without the byte-order mark at its start. -/
def dropMark : List Char → List Char
  | '\ufeff' :: rest => rest
  | cs => cs

/-- A text without the one space that may stand before it. -/
def dropSpace : List Char → List Char
  | ' ' :: rest => rest
  | cs => cs

end Text

namespace Field

/-- The delay of a `retry` value in characters. -/
def retryTextDelay? (value : List Char) : Option Delay :=
  match Decimal.ofChars? value with
  | none => none
  | some millis => if h : millis < wordLimit then some (.ofMillis millis h) else none

/-- The field of a name and a value in characters. -/
def ofNameText (name : Name) (value : List Char) : Option Field :=
  match name with
  | .data => some (.data (String.ofList value))
  | .event => some (.event (String.ofList value))
  | .id => if value.contains '\x00' then none else some (.id (String.ofList value))
  | .retry => (retryTextDelay? value).map .retry

/-- The field of a line in characters; `none` for a line that the grammar ignores. -/
def ofText? (line : List Char) : Option Field :=
  match line with
  | [] => some .blank
  | ':' :: text => some (.comment (String.ofList (Text.dropSpace text)))
  | line =>
    ([Name.data, .event, .id, .retry].find?
      (·.text.toList == line.takeWhile (· != ':'))).bind
        (ofNameText · (Text.dropSpace ((line.dropWhile (· != ':')).drop 1)))

end Field

/-- The events of a text. -/
def Text.events (cs : List Char) : List Event :=
  (({ begun := true } : BlockReader).takeFields ((lines (dropMark cs)).map Field.ofText?)).2

/-! ## Text at an ASCII byte -/

namespace Utf8

variable {b : UInt8} {bytes : Bytes}

theorem decodeChars_append_of_ascii (before : Bytes) (hb : b.toNat < 0x80) (rest : Bytes) :
    decodeChars (before ++ b :: rest) = decodeChars before ++ decodeChars (b :: rest) := by
  rw [decodeChars_append_cons before hb, decodeChars_cons hb]

/-- The part before the first occurrence of an ASCII byte and the part after it are read as the
parts before and after the first occurrence of its character. -/
theorem takeWhile_decodeChars (hb : b.toNat < 0x80) (bytes : Bytes) :
    (decodeChars bytes).takeWhile (· != Char.ofNat b.toNat) =
        decodeChars (bytes.takeWhile (· != b)) ∧
      ((decodeChars bytes).dropWhile (· != Char.ofNat b.toNat)).drop 1 =
        decodeChars ((bytes.dropWhile (· != b)).drop 1) := by
  have hbytes := List.takeWhile_append_dropWhile (p := (· != b)) (l := bytes)
  have hfree : Char.ofNat b.toNat ∉ decodeChars (bytes.takeWhile (· != b)) := by
    rw [mem_decodeChars_iff hb]
    intro hmem
    simpa using List.all_eq_true.mp List.all_takeWhile b hmem
  have hother : ∀ c ∈ decodeChars (bytes.takeWhile (· != b)), (c != Char.ofNat b.toNat) = true := by
    intro c hc
    rw [bne_iff_ne]
    rintro rfl
    exact hfree hc
  cases hdrop : bytes.dropWhile (· != b) with
  | nil =>
      rw [hdrop, List.append_nil] at hbytes
      rw [hbytes] at hother ⊢
      rw [List.takeWhile_eq_self_iff.mpr hother, List.dropWhile_eq_nil_iff.mpr hother]
      exact ⟨rfl, rfl⟩
  | cons d rest =>
      obtain rfl : d = b := by simpa using eq_false_of_dropWhile hdrop
      rw [hdrop] at hbytes
      have hwhole := decodeChars_append_cons (bytes.takeWhile (· != d)) hb rest
      rw [hbytes] at hwhole
      rw [hwhole, List.takeWhile_append_of_pos hother, List.dropWhile_append_of_pos hother]
      simp

end Utf8

/-! ## Fields in bytes and in characters -/

namespace Decimal

theorem digit?_ofNat {b : UInt8} (hb : b.toNat < 0x80) :
    digit? (Char.ofNat b.toNat) = byteDigit? b := by
  have hnumber := Utf8.toNat_ofNat_of_ascii hb
  have hdigit : ('0' ≤ Char.ofNat b.toNat ∧ Char.ofNat b.toNat ≤ '9') ↔
      0x30 ≤ b.toNat ∧ b.toNat ≤ 0x39 := by
    conv_rhs => rw [← hnumber]
    rfl
  unfold digit? byteDigit?
  simp only [hdigit, hnumber]

/-- A byte that is no ASCII character is no digit, and neither is what it is read as. -/
theorem digit?_of_not_ascii {b : UInt8} (hb : ¬b.toNat < 0x80) {rest : Bytes} {c : Char}
    (hc : (Utf8.decodeChars (b :: rest)).head? = some c) : digit? c = none := by
  unfold digit?
  rw [if_neg]
  rintro ⟨hleast, hmost⟩
  have hmost' : c.toNat ≤ '9'.toNat := hmost
  have hascii : c.toNat < 0x80 := Nat.lt_of_le_of_lt hmost' (by decide)
  have hbyte : (UInt8.ofNat c.toNat).toNat = c.toNat := Utf8.toNat_ofNat_of_lt (by omega)
  have hhead := Utf8.head?_decodeChars_iff (b := UInt8.ofNat c.toNat) (by omega) (b :: rest)
  rw [hbyte, Char.ofNat_toNat] at hhead
  obtain rfl : b = UInt8.ofNat c.toNat := by simpa using hhead.mp hc
  omega

theorem extend?_decodeChars (value : Bytes) (n : Nat) :
    extend? digit? n (Utf8.decodeChars value) = extend? byteDigit? n value := by
  induction value generalizing n with
  | nil => rfl
  | cons b rest ih =>
      by_cases hb : b.toNat < 0x80
      · rw [Utf8.decodeChars_cons hb, extend?, extend?, List.foldlM_cons, List.foldlM_cons,
          digit?_ofNat hb]
        cases byteDigit? b with
        | none => rfl
        | some digit => exact ih (10 * n + digit)
      · have hnone : byteDigit? b = none := by
          rw [byteDigit?, if_neg (by omega)]
        cases hdecoded : Utf8.decodeChars (b :: rest) with
        | nil => exact absurd hdecoded (Utf8.decodeChars_ne_nil b rest)
        | cons c cs =>
            have hc : digit? c = none := digit?_of_not_ascii hb (by rw [hdecoded]; rfl)
            simp [extend?, hnone, hc]

theorem ofChars?_decodeChars (value : Bytes) :
    ofChars? (Utf8.decodeChars value) = ofBytes? value := by
  have hvalue := extend?_decodeChars value 0
  cases value with
  | nil => rfl
  | cons b rest =>
      cases hdecoded : Utf8.decodeChars (b :: rest) with
      | nil => exact absurd hdecoded (Utf8.decodeChars_ne_nil b rest)
      | cons c cs =>
          rw [hdecoded] at hvalue
          exact hvalue

end Decimal

namespace Field

theorem dropSpace_decodeChars (value : Bytes) :
    Text.dropSpace (Utf8.decodeChars value) = Utf8.decodeChars (dropSpace value) := by
  have hhead := Utf8.head?_decodeChars_iff (b := Bytes.space) (by decide) value
  cases value with
  | nil => rfl
  | cons b rest =>
      by_cases hb : b = Bytes.space
      · subst hb
        rw [Utf8.decodeChars_cons (by decide), dropSpace, if_pos rfl]
        rfl
      · rw [dropSpace, if_neg hb]
        unfold Text.dropSpace
        split
        · next cs hcs =>
            rw [hcs] at hhead
            simpa [hb] using hhead.mp rfl
        · rfl

theorem text_eq_decodeChars_iff (name : Name) (bytes : Bytes) :
    (name.text.toList == Utf8.decodeChars bytes) = (name.bytes == bytes) := by
  have hplain : Utf8.replacement ∉ name.text.toList := by
    cases name <;> decide
  have hread : Utf8.decodeChars bytes = name.text.toList ↔ bytes = name.bytes :=
    Utf8.decodeChars_eq_iff hplain
  rw [Bool.eq_iff_iff, beq_iff_eq, beq_iff_eq, eq_comm, hread, eq_comm]

theorem retryTextDelay?_decodeChars (value : Bytes) :
    retryTextDelay? (Utf8.decodeChars value) = retryDelay? value := by
  have hnumber := Decimal.ofChars?_decodeChars value
  unfold retryTextDelay? retryDelay?
  cases hvalue : Decimal.ofBytes? value with
  | none => simp [hnumber, hvalue]
  | some millis => simp [hnumber, hvalue]

theorem ofNameText_decodeChars (name : Name) (value : Bytes) :
    ofNameText name (Utf8.decodeChars value) = ofName name value := by
  cases name with
  | data => rfl
  | event => rfl
  | id =>
      have hnull : (Utf8.decodeChars value).contains '\x00' = value.contains 0 := by
        rw [Bool.eq_iff_iff, List.contains_iff_mem, List.contains_iff_mem]
        exact Utf8.mem_decodeChars_iff (b := 0) (by decide) value
      rw [ofNameText, ofName, hnull]
      rfl
  | retry => exact congrArg (Option.map Field.retry) (retryTextDelay?_decodeChars value)

/-- The field of a line is the field of its text. -/
theorem ofText?_decodeChars (line : Bytes) : ofText? (Utf8.decodeChars line) = ofLine? line := by
  have hhead := Utf8.head?_decodeChars_iff (b := Bytes.colon) (by decide) line
  obtain ⟨hname, hvalue⟩ := Utf8.takeWhile_decodeChars (b := Bytes.colon) (by decide) line
  have hcolon : Char.ofNat Bytes.colon.toNat = ':' := rfl
  rw [hcolon] at hhead hname hvalue
  cases line with
  | nil => rfl
  | cons b rest =>
      by_cases hb : b = Bytes.colon
      · subst hb
        rw [Utf8.decodeChars_cons (by decide), ofLine?, if_pos rfl, Utf8.decode,
          ← dropSpace_decodeChars]
        rfl
      · rw [ofLine?, if_neg hb]
        unfold ofText?
        split
        · next hnone => exact absurd hnone (Utf8.decodeChars_ne_nil b rest)
        · next text htext =>
            rw [htext] at hhead
            simpa [hb] using hhead.mp rfl
        · rw [hname, hvalue]
          simp only [text_eq_decodeChars_iff, dropSpace_decodeChars, ofNameText_decodeChars]
          rfl

end Field

/-! ## Lines in bytes and in characters -/

namespace Text

theorem normalizeEnds_append {line : List Char} (hline : '\r' ∉ line) (rest : List Char) :
    normalizeEnds (line ++ rest) = line ++ normalizeEnds rest := by
  induction line with
  | nil => rfl
  | cons c line ih =>
      obtain ⟨hc, hline⟩ := List.ne_and_not_mem_of_not_mem_cons hline
      rw [List.cons_append, normalizeEnds, if_neg (Ne.symm hc), ih hline, List.cons_append]

theorem lines_of_not_mem {tail : List Char} (hfeed : '\n' ∉ tail) (hreturn : '\r' ∉ tail) :
    lines tail = [] := by
  have hnormal := normalizeEnds_append hreturn []
  rw [List.append_nil] at hnormal
  rw [lines, hnormal, normalizeEnds, List.append_nil, pieces_of_not_mem hfeed]
  rfl

/-- A line may be cut off at the front of a text, if its end is normalized to a line feed. -/
theorem lines_append {line ended rest : List Char} (hfeed : '\n' ∉ line) (hreturn : '\r' ∉ line)
    (hended : normalizeEnds ended = '\n' :: normalizeEnds rest) :
    lines (line ++ ended) = line :: lines rest := by
  rw [lines, normalizeEnds_append hreturn, hended, pieces_append, pieces_of_not_mem hfeed,
    List.singleton_append, List.dropLast_cons_of_ne_nil (pieces_ne_nil _ _), lines]

/-- A line end is read as one line end. -/
theorem normalizeEnds_decodeChars (t : Terminator) {rest : Bytes}
    (hrest : t = .carriageReturn → rest.head? ≠ some Bytes.lineFeed) :
    normalizeEnds (Utf8.decodeChars (t.bytes ++ rest)) =
      '\n' :: normalizeEnds (Utf8.decodeChars rest) := by
  have hfeed (bytes : Bytes) :
      Utf8.decodeChars (Bytes.lineFeed :: bytes) = '\n' :: Utf8.decodeChars bytes :=
    Utf8.decodeChars_cons (by decide) bytes
  have hreturn (bytes : Bytes) :
      Utf8.decodeChars (Bytes.carriageReturn :: bytes) = '\r' :: Utf8.decodeChars bytes :=
    Utf8.decodeChars_cons (by decide) bytes
  cases t with
  | lineFeed => simp [Terminator.bytes, hfeed, normalizeEnds]
  | carriageReturn =>
      have hapart : (Utf8.decodeChars rest).head? ≠ some '\n' := by
        intro hhead
        have hread := Utf8.head?_decodeChars_iff (b := Bytes.lineFeed) (by decide) rest
        exact hrest rfl (hread.mp hhead)
      simp [Terminator.bytes, hreturn, normalizeEnds, hapart]
  | returnAndFeed => simp [Terminator.bytes, hfeed, hreturn, normalizeEnds]

theorem not_mem_decodeChars {line : Bytes} (hline : Bytes.Unbroken line) :
    '\n' ∉ Utf8.decodeChars line ∧ '\r' ∉ Utf8.decodeChars line := by
  have htext := Field.singleLine_decode hline
  rw [Field.SingleLine, Utf8.decode, String.toList_ofList] at htext
  exact ⟨fun hfeed => (htext _ hfeed).1 rfl, fun hreturn => (htext _ hreturn).2 rfl⟩

/-- The lines of the text are the texts of the lines. -/
theorem lines_decodeChars (stream : Bytes) :
    lines (Utf8.decodeChars stream) = (Bytes.lines stream).map Utf8.decodeChars := by
  induction stream using Bytes.lines_induction with
  | tail tail htail =>
      obtain ⟨hfeed, hreturn⟩ := not_mem_decodeChars htail
      rw [lines_of_not_mem hfeed hreturn, Bytes.lines, Bytes.cut_of_unbroken htail]
      rfl
  | line line t rest hline hrest ih =>
      obtain ⟨hfeed, hreturn⟩ := not_mem_decodeChars hline
      have hwhole : Utf8.decodeChars (line ++ (t.bytes ++ rest)) =
          Utf8.decodeChars line ++ Utf8.decodeChars (t.bytes ++ rest) := by
        cases t <;> exact Utf8.decodeChars_append_of_ascii line (by decide) _
      rw [hwhole, lines_append hfeed hreturn (normalizeEnds_decodeChars t hrest), ih, Bytes.lines,
        Bytes.lines, Bytes.cut_line hline t hrest]
      rfl

/-- The byte-order mark is read as one character, and no other bytes are. -/
theorem dropMark_decodeChars (stream : Bytes) :
    dropMark (Utf8.decodeChars stream) = Utf8.decodeChars (BlockReader.stripMark stream) := by
  have hmark (cs : List Char) : Utf8.decodeChars stream = '\ufeff' :: cs ↔
      ∃ rest, stream = BlockReader.byteOrderMark ++ rest ∧ Utf8.decodeChars rest = cs :=
    Utf8.decodeChars_eq_cons_iff (by decide)
  unfold dropMark
  split
  · next cs hcs =>
      obtain ⟨rest, rfl, rfl⟩ := (hmark cs).mp hcs
      rfl
  · next hother =>
      rw [BlockReader.stripMark, if_neg]
      intro hprefix
      obtain ⟨rest, rfl⟩ := List.isPrefixOf_iff_prefix.mp hprefix
      exact hother _ ((hmark _).mpr ⟨rest, rfl, rfl⟩)

end Text

namespace Field

/-- The mark before the first line is the mark before the stream. -/
theorem ofLines_lines (stream : Bytes) :
    ofLines (Bytes.lines stream) =
      (Bytes.lines (BlockReader.stripMark stream)).map ofLine? := by
  have hmark : Bytes.Unbroken BlockReader.byteOrderMark := by decide
  by_cases hprefix : BlockReader.byteOrderMark <+: stream
  · obtain ⟨rest, rfl⟩ := hprefix
    have hstrip (bytes : Bytes) :
        BlockReader.stripMark (BlockReader.byteOrderMark ++ bytes) = bytes := rfl
    rw [hstrip, Bytes.lines, Bytes.lines, Bytes.cut_append_of_unbroken hmark]
    rcases Bytes.cut rest with ⟨_ | ⟨first, others⟩, tail⟩
    · rw [Bytes.foldr_consFirst_tail]
      rfl
    · rw [Bytes.foldr_consFirst_line, ofLines, hstrip]
      rfl
  · have hkept {bytes : Bytes} (hbytes : bytes <+: stream) :
        BlockReader.stripMark bytes = bytes := by
      rw [BlockReader.stripMark, if_neg]
      intro hmarked
      exact hprefix ((List.isPrefixOf_iff_prefix.mp hmarked).trans hbytes)
    rw [hkept List.prefix_rfl]
    rcases Bytes.exists_line stream with htail | ⟨line, t, rest, hline, hrest, hstream⟩
    · rw [Bytes.lines, Bytes.cut_of_unbroken htail]
      rfl
    · have hfirst : BlockReader.stripMark line = line := hkept ⟨_, hstream.symm⟩
      rw [hstream, Bytes.lines, Bytes.cut_line hline t hrest, ofLines, hfirst]
      rfl

end Field

/-- Where no line outgrows the limit, the events that a decoder returns are the events of the text
that the whole stream is read as, whatever the policy and the chunks are. -/
theorem Decoder.readAll_eq_events (limits : LineLimits) (hpos : 0 < limits.maxSize)
    (chunks : List Bytes)
    (hfit : ∀ line ∈ Bytes.lines chunks.flatten, line.length ≤ limits.maxSize) :
    ((start limits hpos).readAll chunks).2.1 = Text.events (Utf8.decodeChars chunks.flatten) := by
  have hadmits : ∀ line ∈ Bytes.lines chunks.flatten, limits.admits line = true := by
    intro line hline
    simpa [LineLimits.admits] using hfit line hline
  have hfields : (Text.lines (Text.dropMark (Utf8.decodeChars chunks.flatten))).map Field.ofText? =
      Field.ofLines (Bytes.lines chunks.flatten) := by
    rw [Text.dropMark_decodeChars, Text.lines_decodeChars, List.map_map, Field.ofLines_lines]
    exact List.map_congr_left fun line _ => Field.ofText?_decodeChars line
  rw [(readAll_of_admits limits hpos chunks hadmits).1, Text.events, hfields]
  cases Bytes.lines chunks.flatten with
  | nil => rfl
  | cons first others => rfl

/-- A sequence that breaks off before a line end, in one chunk or in two, takes nothing of the line
end with it, and each byte of a surrogate is replaced. -/
theorem Decoder.readAll_eq_events_of_broken :
    let chunks : List Bytes :=
      [BlockReader.byteOrderMark ++ Utf8.encode "data: " ++ [0xe2, 0x82, 0x0d],
        [0x0a] ++ Utf8.encode "event:" ++ [0xf0, 0x9f, 0x0d] ++ Utf8.encode "id:" ++ [0xed],
        [0xa0, 0x80] ++ Utf8.encode "\nretry: 7\n\n"]
    ((start ⟨11, .logAndSkip⟩ (Nat.succ_pos 10)).readAll chunks).2.1 =
      [⟨some "\uFFFD", some "\uFFFD\uFFFD\uFFFD", some (.ofMillis 7 (by decide)), "\uFFFD"⟩] := by
  intro chunks
  have hfit : ∀ line ∈ Bytes.lines chunks.flatten, line.length ≤ 11 := by decide +kernel
  exact (readAll_eq_events ⟨11, .logAndSkip⟩ (Nat.succ_pos 10) chunks hfit).trans
    (by decide +kernel)

end ServerSentEvents
