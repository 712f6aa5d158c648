import ServerSentEvents.Printing
import ServerSentEvents.Proofs.BlockGrammar
import ServerSentEvents.Proofs.Decoding
import ServerSentEvents.Proofs.Fields

/-!
# Printed events and their lines

An event is printed as the lines of its fields and a blank line.  If the event is printable, its
fields are plain, so these lines are the lines of the text whatever ends them
(`Event.cut_encode_printedAll`), and their fields make up the event again
(`BlockReader.takeFields_printedFields`).
-/

namespace ServerSentEvents

namespace Text

/-- A piece is free of the separator and made of the characters of the text. -/
theorem of_mem_pieces {separator : Char} {cs piece : List Char}
    (hpiece : piece ∈ pieces separator cs) : separator ∉ piece ∧ piece ⊆ cs := by
  induction cs generalizing piece with
  | nil =>
      obtain rfl : piece = [] := by simpa [pieces] using hpiece
      simp
  | cons c cs ih =>
      rw [pieces] at hpiece
      split at hpiece
      · rcases List.mem_cons.mp hpiece with rfl | hother
        · simp
        · obtain ⟨hfree, hsubset⟩ := ih hother
          exact ⟨hfree, List.Subset.trans hsubset (List.subset_cons_self c cs)⟩
      · next hc =>
          split at hpiece
          · next hnone => exact absurd hnone (pieces_ne_nil separator cs)
          · next first others hpieces =>
              rcases List.mem_cons.mp hpiece with rfl | hother
              · obtain ⟨hfree, hsubset⟩ := ih (hpieces ▸ List.mem_cons_self)
                refine ⟨?_, List.cons_subset_cons c hsubset⟩
                intro hmem
                rcases List.mem_cons.mp hmem with hsame | hrest
                · exact hc hsame.symm
                · exact hfree hrest
              · obtain ⟨hfree, hsubset⟩ := ih (hpieces ▸ List.mem_cons_of_mem first hother)
                exact ⟨hfree, List.Subset.trans hsubset (List.subset_cons_self c cs)⟩

theorem intercalate_ofList (separator : Char) (parts : List (List Char)) :
    (String.ofList [separator]).intercalate (parts.map String.ofList) =
      String.ofList (join separator parts) := by
  induction parts with
  | nil => rfl
  | cons first others ih =>
      cases others with
      | nil => simp [join]
      | cons second others =>
          have hjoin : join separator (first :: second :: others) =
              first ++ separator :: join separator (second :: others) := rfl
          rw [List.map_cons, String.intercalate_cons_of_ne_nil (by simp), ih, hjoin,
            ← String.ofList_append, ← String.ofList_append, List.append_assoc,
            List.singleton_append]

/-- The lines of a text, joined by line feeds, are the text. -/
theorem intercalate_pieces (text : String) :
    "\n".intercalate ((pieces '\n' text.toList).map String.ofList) = text := by
  have hjoined := intercalate_ofList '\n' (pieces '\n' text.toList)
  rw [join_pieces, String.ofList_toList] at hjoined
  exact hjoined

end Text

namespace Event

/-- An event of which no part can be taken for the end of a line. -/
structure Printable (e : Event) : Prop where
  event : ∀ name ∈ e.event, Field.SingleLine name
  id : ∀ value ∈ e.id, Field.SingleLine value ∧ '\x00' ∉ value.toList
  retry : ∀ delay ∈ e.retry, delay.IsWhole
  data : '\r' ∉ e.data.toList

instance (e : Event) : Decidable e.Printable :=
  decidable_of_decidable_of_iff
    (p := (∀ name ∈ e.event, Field.SingleLine name) ∧
      (∀ value ∈ e.id, Field.SingleLine value ∧ '\x00' ∉ value.toList) ∧
      (∀ delay ∈ e.retry, delay.IsWhole) ∧ '\r' ∉ e.data.toList)
    ⟨fun ⟨event, id, retry, data⟩ => ⟨event, id, retry, data⟩,
      fun h => ⟨h.event, h.id, h.retry, h.data⟩⟩

/-- The fields of an event, in the order in which they are printed. -/
def fields (e : Event) : List Field :=
  (e.event.map .event).toList ++ (e.id.map .id).toList ++ (e.retry.map .retry).toList ++
    (Text.pieces '\n' e.data.toList).map fun piece => .data (String.ofList piece)

/-- The fields of events with the blank line that closes each. -/
def printedFields (events : List Event) : List Field :=
  events.flatMap fun e => e.fields ++ [.blank]

/-- The text that is printed for events. -/
def printedAll (events : List Event) : String :=
  String.join (events.map (·.printed .text))

theorem isProper_of_mem_fields {e : Event} {field : Field} (hfield : field ∈ e.fields) :
    field.isProper = true := by
  simp only [fields, List.mem_append, Option.mem_toList, Option.map_eq_some_iff,
    List.mem_map] at hfield
  rcases hfield with ((⟨name, -, rfl⟩ | ⟨value, -, rfl⟩) | ⟨delay, -, rfl⟩) | ⟨piece, -, rfl⟩
  all_goals rfl

theorem plain_of_mem_fields {e : Event} (he : e.Printable) {field : Field}
    (hfield : field ∈ e.fields) : field.Plain := by
  simp only [fields, List.mem_append, Option.mem_toList, Option.map_eq_some_iff,
    List.mem_map] at hfield
  rcases hfield with
    ((⟨name, hname, rfl⟩ | ⟨value, hvalue, rfl⟩) | ⟨delay, hdelay, rfl⟩) | ⟨piece, hpiece, rfl⟩
  · exact he.event name hname
  · exact he.id value hvalue
  · exact he.retry delay hdelay
  · obtain ⟨hfree, hsubset⟩ := Text.of_mem_pieces hpiece
    intro c hc
    rw [String.toList_ofList] at hc
    constructor
    · rintro rfl
      exact hfree hc
    · rintro rfl
      exact he.data (hsubset hc)

theorem filterMap_part {α β : Type} (part : Option α) (field : α → Field)
    (value? : Field → Option β) :
    (part.map field).toList.filterMap value? = (part.bind fun a => value? (field a)).toList := by
  cases part with
  | none => rfl
  | some a => cases hvalue : value? (field a) <;> simp [hvalue]

theorem filterMap_fields (e : Event) :
    e.fields.filterMap Field.event? = e.event.toList ∧
      e.fields.filterMap Field.id? = e.id.toList ∧
      e.fields.filterMap Field.retry? = e.retry.toList ∧
      e.fields.filterMap Field.data? =
        (Text.pieces '\n' e.data.toList).map String.ofList := by
  simp only [fields, List.filterMap_append, filterMap_part, List.filterMap_map]
  simp [Function.comp_def]

theorem fields_ne_nil (e : Event) : e.fields ≠ [] := by
  intro hnone
  have hdata := (List.append_eq_nil_iff.mp hnone).2
  exact Text.pieces_ne_nil '\n' e.data.toList (List.map_eq_nil_iff.mp hdata)

/-- The fields of an event make up the event. -/
theorem ofFields_fields (e : Event) : ofFields e.fields = e := by
  obtain ⟨hevent, hid, hretry, hdata⟩ := e.filterMap_fields
  have hlast {α : Type} (o : Option α) : o.toList.getLast? = o := by
    cases o <;> rfl
  rw [ofFields, hevent, hid, hretry, hdata, hlast, hlast, hlast, Text.intercalate_pieces]

end Event

/-! ## Printed lines -/

namespace Terminator

/-- The bytes of characters where line feeds are written as this terminator. -/
def encodeChars (t : Terminator) (cs : List Char) : Bytes :=
  cs.flatMap fun c => if c = '\n' then t.bytes else String.utf8EncodeChar c

/-- The bytes of a text whose line feeds are written as this terminator. -/
def encode (t : Terminator) (text : String) : Bytes :=
  t.encodeChars text.toList

variable (t : Terminator)

theorem encodeChars_append (a b : List Char) :
    t.encodeChars (a ++ b) = t.encodeChars a ++ t.encodeChars b :=
  List.flatMap_append

theorem encodeChars_singleton : t.encodeChars ['\n'] = t.bytes := by
  simp [encodeChars]

theorem encodeChars_of_not_mem {cs : List Char} (hcs : '\n' ∉ cs) :
    t.encodeChars cs = cs.flatMap String.utf8EncodeChar := by
  apply List.flatMap_congr
  intro c hc
  rw [if_neg]
  rintro rfl
  exact hcs hc

theorem encode_lineFeed (text : String) : lineFeed.encode text = Utf8.encode text := by
  unfold encode encodeChars Utf8.encode
  apply List.flatMap_congr
  intro c _
  split
  · next hfeed =>
      rw [hfeed]
      rfl
  · rfl

/-- The line that is printed for a name and a value. -/
theorem encodeChars_fieldLine (name : Field.Name) {value : List Char} (hvalue : '\n' ∉ value) :
    t.encodeChars (Event.fieldLine name.text value) =
      name.line (String.ofList value) ++ t.bytes := by
  have hname : '\n' ∉ name.text.toList ++ ':' :: ' ' :: value := by
    cases name <;> simpa [Field.Name.text] using hvalue
  have hline : Event.fieldLine name.text value =
      (name.text.toList ++ ':' :: ' ' :: value) ++ ['\n'] := by
    simp [Event.fieldLine]
  rw [hline, encodeChars_append, encodeChars_singleton, encodeChars_of_not_mem t hname,
    List.flatMap_append, List.flatMap_cons, List.flatMap_cons, Field.Name.line, Utf8.encode_ofList]
  rfl

end Terminator

namespace Event

variable (t : Terminator)

/-- A part that an event may carry is printed as the line of its field. -/
theorem encodeChars_part {α : Type} (name : Field.Name) (field : α → Field) (text : α → String)
    (hline : ∀ a, (field a).line = name.line (text a)) (part : Option α)
    (hpart : ∀ a ∈ part, Field.SingleLine (text a)) :
    t.encodeChars ((part.map fun a => fieldLine name.text (text a).toList).getD []) =
      ((part.map field).toList.map Field.line).flatMap (· ++ t.bytes) := by
  cases part with
  | none => rfl
  | some a =>
      have hfeed : '\n' ∉ (text a).toList := fun hmem => (hpart a rfl _ hmem).1 rfl
      have hprinted := t.encodeChars_fieldLine name hfeed
      rw [String.ofList_toList] at hprinted
      simpa [hline] using hprinted

theorem encodeChars_data (cs : List Char) :
    t.encodeChars ((Text.pieces '\n' cs).flatMap (fieldLine "data")) =
      (((Text.pieces '\n' cs).map fun piece => Field.data (String.ofList piece)).map
        Field.line).flatMap (· ++ t.bytes) := by
  have hpieces : ∀ piece ∈ Text.pieces '\n' cs, '\n' ∉ piece :=
    fun piece hpiece => (Text.of_mem_pieces hpiece).1
  generalize Text.pieces '\n' cs = pieces at hpieces
  induction pieces with
  | nil => rfl
  | cons piece pieces ih =>
      obtain ⟨hpiece, hothers⟩ := List.forall_mem_cons.mp hpieces
      have hprinted : t.encodeChars (fieldLine "data" piece) =
          (Field.data (String.ofList piece)).line ++ t.bytes :=
        t.encodeChars_fieldLine .data hpiece
      rw [List.flatMap_cons, Terminator.encodeChars_append, hprinted, ih hothers]
      rfl

/-- A printable event is printed as the lines of its fields and a blank line. -/
theorem encode_printed {e : Event} (he : e.Printable) :
    t.encode (e.printed .text) =
      ((e.fields ++ [Field.blank]).map Field.line).flatMap (· ++ t.bytes) := by
  have hevent := encodeChars_part t .event Field.event (fun name => name) (fun _ => rfl) e.event
    he.event
  have hid := encodeChars_part t .id Field.id (fun value => value) (fun _ => rfl) e.id
    fun value hvalue => (he.id value hvalue).1
  have hretry := encodeChars_part t .retry Field.retry (fun delay => toString delay.toMillis)
    (fun _ => rfl) e.retry fun _ _ => Field.singleLine_toString _
  have hdata := encodeChars_data t e.data.toList
  have hblank : t.encodeChars ['\n'] = ([Field.blank].map Field.line).flatMap (· ++ t.bytes) := by
    rw [Terminator.encodeChars_singleton]
    simp [Field.line]
  rw [Terminator.encode, printed, String.toList_ofList, toStream, retryMillis, Option.map_map]
  simp only [Terminator.encodeChars_append, fields, List.map_append, List.flatMap_append]
  rw [← hevent, ← hid, ← hretry, ← hdata, ← hblank]
  rfl

/-- Printable events are printed as the lines of their fields. -/
theorem encode_printedAll {events : List Event} (hevents : ∀ e ∈ events, e.Printable) :
    t.encode (printedAll events) =
      ((printedFields events).map Field.line).flatMap (· ++ t.bytes) := by
  induction events with
  | nil => rfl
  | cons e events ih =>
      obtain ⟨he, hothers⟩ := List.forall_mem_cons.mp hevents
      have htext : printedAll (e :: events) = e.printed .text ++ printedAll events := by
        simp [printedAll, String.join_cons]
      have hfields : printedFields (e :: events) =
          (e.fields ++ [Field.blank]) ++ printedFields events := List.flatMap_cons
      rw [htext, hfields, List.map_append, List.flatMap_append, ← encode_printed t he,
        ← ih hothers, Terminator.encode, String.toList_append, Terminator.encodeChars_append]
      rfl

end Event

namespace BlockReader

/-! ## Reading the lines of events -/

/-- Proper fields complete no event and add to the fields of the block. -/
theorem takeFields_of_isProper {r : BlockReader} {before fields : List Field}
    (hblock : r.block = Block.ofFields before)
    (hproper : ∀ field ∈ fields, field.isProper = true) :
    r.takeFields (fields.map some) =
      ({ r with block := Block.ofFields (before ++ fields) }, []) := by
  induction fields generalizing r before with
  | nil => simp [← hblock]
  | cons field fields ih =>
      obtain ⟨hfield, hothers⟩ := List.forall_mem_cons.mp hproper
      have hother : field ≠ .blank := by
        rintro rfl
        cases hfield
      have htaken : r.takeField (some field) =
          ({ r with block := Block.ofFields (before ++ [field]) }, none) := by
        rw [takeField_some r hother, hblock, Block.add_ofFields before hfield]
      rw [List.map_cons, takeFields_cons, htaken, ih rfl hothers]
      simp

/-- The fields of an event and a blank line complete the event. -/
theorem takeFields_fields {r : BlockReader} (hblock : r.block = {}) (e : Event) :
    r.takeFields ((e.fields ++ [Field.blank]).map some) =
      ({ r with lastEventId := e.id.or r.lastEventId }, [e]) := by
  have hproper : ∀ field ∈ e.fields, field.isProper = true := fun _ => Event.isProper_of_mem_fields
  have hread : r.takeFields (e.fields.map some) =
      ({ r with block := Block.ofFields ([] ++ e.fields) }, []) :=
    takeFields_of_isProper hblock hproper
  have hevent : (Block.ofFields e.fields).toEvent = e := by
    rw [Block.toEvent_ofFields, Event.ofFields_fields]
  have hid : (Block.ofFields e.fields).id = e.id := congrArg (·.id) hevent
  have hheld : (Block.ofFields e.fields).isEmpty = false := by
    simp [Block.isEmpty, Block.ofFields, e.fields_ne_nil]
  rw [List.map_append, takeFields_append, hread, List.map_singleton, takeFields_cons]
  simp [takeField, closeBlock, hheld, hid, hevent, ← hblock]

/-- The fields of printed events complete these events. -/
theorem takeFields_printedFields {r : BlockReader} (hblock : r.block = {}) (events : List Event) :
    r.takeFields ((Event.printedFields events).map some) =
      ({ r with lastEventId := (events.filterMap (·.id)).getLast?.or r.lastEventId }, events) := by
  induction events generalizing r with
  | nil => rfl
  | cons e events ih =>
      have hfields : Event.printedFields (e :: events) =
          (e.fields ++ [Field.blank]) ++ Event.printedFields events := List.flatMap_cons
      have hrest := ih (r := { r with lastEventId := e.id.or r.lastEventId }) hblock
      rw [hfields, List.map_append, takeFields_append, takeFields_fields hblock, hrest]
      cases hid : e.id with
      | none => simp [hid]
      | some value =>
          cases hlast : (events.filterMap (·.id)).getLast? with
          | none => simp [hid, List.getLast?_cons, hlast]
          | some last => simp [hid, List.getLast?_cons, hlast]

/-! ## Printed texts as streams -/

theorem stripMark_of_head? {line : Bytes} (hline : line.head? ≠ some 0xef) :
    stripMark line = line := by
  rw [stripMark, if_neg]
  intro hmark
  obtain ⟨rest, rfl⟩ := List.isPrefixOf_iff_prefix.mp hmark
  exact hline rfl

/-- The line of a field never begins with a byte-order mark, whatever the value begins with. -/
theorem stripMark_line (field : Field) : stripMark field.line = field.line := by
  have hname (name : Field.Name) (value : String) : (name.line value).head? ≠ some 0xef := by
    rw [Field.Name.line, List.head?_append_of_ne_nil _ name.bytes_ne_nil]
    cases name <;> decide
  apply stripMark_of_head?
  cases field with
  | data text => exact hname .data text
  | event name => exact hname .event name
  | id value => exact hname .id value
  | retry delay => exact hname .retry _
  | comment text => simp [Field.line, Bytes.colon]
  | blank => simp [Field.line]

end BlockReader

namespace Field

theorem ofLines_line {fields : List Field} (hplain : ∀ field ∈ fields, field.Plain) :
    ofLines (fields.map line) = fields.map some := by
  have hread : (fields.map line).map ofLine? = fields.map some := by
    rw [List.map_map]
    apply List.map_congr_left
    intro field hfield
    exact ofLine?_line (hplain field hfield)
  cases fields with
  | nil => rfl
  | cons field fields =>
      rw [List.map_cons, ofLines, BlockReader.stripMark_line]
      exact hread

end Field

namespace Event

theorem plain_of_mem_printedFields {events : List Event} (hevents : ∀ e ∈ events, e.Printable)
    {field : Field} (hfield : field ∈ printedFields events) : field.Plain := by
  obtain ⟨e, he, hof⟩ := List.mem_flatMap.mp hfield
  rcases List.mem_append.mp hof with hpart | hblank
  · exact plain_of_mem_fields (hevents e he) hpart
  · rw [List.mem_singleton.mp hblank]
    trivial

/-- The lines of a printed text are the lines of the fields of its events and one blank line after
each event, and these fields are read back from them. -/
theorem cut_encode_printedAll (t : Terminator) {events : List Event}
    (hevents : ∀ e ∈ events, e.Printable) :
    Bytes.cut (t.encode (printedAll events)) = ((printedFields events).map Field.line, []) ∧
      Field.ofLines ((printedFields events).map Field.line) = (printedFields events).map some := by
  have hplain : ∀ field ∈ printedFields events, field.Plain :=
    fun _ => plain_of_mem_printedFields hevents
  have hunbroken : ∀ line ∈ (printedFields events).map Field.line, Bytes.Unbroken line := by
    intro line hline
    obtain ⟨field, hfield, rfl⟩ := List.mem_map.mp hline
    exact Field.unbroken_line (hplain field hfield)
  rw [encode_printedAll t hevents, Bytes.cut_flatMap t hunbroken]
  exact ⟨rfl, Field.ofLines_line hplain⟩

end Event

end ServerSentEvents
