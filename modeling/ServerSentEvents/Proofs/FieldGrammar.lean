import Mathlib.Data.List.TakeWhile
import ServerSentEvents.Proofs.Numerals

/-!
# The grammar of fields

Which lines carry which fields is stated here by the parts of a line: a name, and behind it nothing,
or a colon and the value, with a space between them that does not count (`Field.Tail`).  The
classifier finds the only parts that a line can have (`Field.split_eq_iff`), and so it accepts the
grammar and nothing else (`Field.ofLine?_eq_some_iff`).
-/

namespace ServerSentEvents.Field

/-! ## Names and values -/

/-- What may stand behind a name, and the value that it gives. -/
inductive Tail : Bytes → Bytes → Prop where
  | none : Tail [] []
  | colon {value : Bytes} (hvalue : value.head? ≠ some Bytes.space) :
      Tail (Bytes.colon :: value) value
  | space (value : Bytes) : Tail (Bytes.colon :: Bytes.space :: value) value

theorem tail_cons_iff {rest value : Bytes} :
    Tail (Bytes.colon :: rest) value ↔ dropSpace rest = value := by
  constructor
  · rintro (_ | hvalue | _)
    · cases rest with
      | nil => rfl
      | cons b rest =>
          have hb : b ≠ Bytes.space := by simpa using hvalue
          rw [dropSpace, if_neg hb]
    · rfl
  · rintro rfl
    cases rest with
    | nil => exact .colon (by simp)
    | cons b rest =>
        rw [dropSpace]
        split
        · next hspace => exact hspace ▸ .space rest
        · next hother => exact .colon (by simpa using hother)

/-- A line has one name and one value. -/
theorem split_eq_iff {line name value : Bytes} :
    split line = (name, value) ↔
      ∃ tail, line = name ++ tail ∧ Bytes.colon ∉ name ∧ Tail tail value := by
  constructor
  · intro hsplit
    obtain ⟨rfl, rfl⟩ := Prod.mk.inj hsplit
    have hfree : Bytes.colon ∉ line.takeWhile (· != Bytes.colon) := by
      intro hmem
      simpa using List.all_eq_true.mp List.all_takeWhile _ hmem
    refine ⟨line.dropWhile (· != Bytes.colon), ?_, hfree, ?_⟩
    · exact List.takeWhile_append_dropWhile.symm
    · cases hrest : line.dropWhile (· != Bytes.colon) with
      | nil => exact .none
      | cons b rest =>
          obtain rfl : b = Bytes.colon := by simpa using eq_false_of_dropWhile hrest
          exact tail_cons_iff.mpr rfl
  · rintro ⟨tail, rfl, hfree, htail⟩
    cases tail with
    | nil =>
        cases htail
        have hall : ∀ b ∈ name, (b != Bytes.colon) = true := by
          intro b hb
          simpa using fun hsame : b = Bytes.colon => hfree (hsame ▸ hb)
        rw [List.append_nil, split, List.takeWhile_eq_self_iff.mpr hall,
          List.dropWhile_eq_nil_iff.mpr hall]
        rfl
    | cons b rest =>
        obtain rfl : b = Bytes.colon := by cases htail <;> rfl
        rw [split_append hfree, tail_cons_iff.mp htail]

/-! ## Lines and fields -/

/-- The lines of the grammar and the fields that they carry. -/
inductive Carries : Bytes → Field → Prop where
  | blank : Carries [] .blank
  | comment {rest text : Bytes} (htext : Tail (Bytes.colon :: rest) text) :
      Carries (Bytes.colon :: rest) (.comment (Utf8.decode text))
  | data {tail value : Bytes} (htail : Tail tail value) :
      Carries (Name.data.bytes ++ tail) (.data (Utf8.decode value))
  | event {tail value : Bytes} (htail : Tail tail value) :
      Carries (Name.event.bytes ++ tail) (.event (Utf8.decode value))
  | id {tail value : Bytes} (htail : Tail tail value) (hnull : 0 ∉ value) :
      Carries (Name.id.bytes ++ tail) (.id (Utf8.decode value))
  | retry {tail value : Bytes} (htail : Tail tail value) (hvalue : Decimal.IsNumeral value)
      (hfits : Decimal.value value < wordLimit) :
      Carries (Name.retry.bytes ++ tail) (.retry (.ofMillis (Decimal.value value) hfits))

theorem Name.ofBytes?_eq_some_iff {bytes : Bytes} {name : Name} :
    Name.ofBytes? bytes = some name ↔ bytes = name.bytes := by
  constructor
  · intro hfound
    rw [Name.ofBytes?] at hfound
    have hnamed := List.find?_some hfound
    rw [beq_iff_eq] at hnamed
    exact hnamed.symm
  · rintro rfl
    exact name.ofBytes?_bytes

/-- The value of a `retry` field is a numeral whose number fits into a word. -/
theorem retryDelay?_eq_some_iff {value : Bytes} {delay : Delay} :
    retryDelay? value = some delay ↔
      Decimal.IsNumeral value ∧
        ∃ hfits : Decimal.value value < wordLimit, .ofMillis (Decimal.value value) hfits = delay := by
  unfold retryDelay?
  split
  · next hnone =>
      refine iff_of_false (Option.some_ne_none delay).symm ?_
      rintro ⟨hnumeral, -⟩
      rw [Decimal.ofBytes?_eq_some_iff.mpr ⟨hnumeral, rfl⟩] at hnone
      cases hnone
  · next millis hsome =>
      obtain ⟨hnumeral, rfl⟩ := Decimal.ofBytes?_eq_some_iff.mp hsome
      split
      · next hfits => simp [hnumeral, hfits]
      · next hbeyond => simp [hbeyond]

/-- A name and what stands behind it carry what the name makes of the value. -/
theorem ofLine?_append (name : Name) {tail value : Bytes} (htail : Tail tail value) :
    ofLine? (name.bytes ++ tail) = ofName name value := by
  have hsplit : split (name.bytes ++ tail) = (name.bytes, value) :=
    split_eq_iff.mpr ⟨tail, rfl, name.colon_not_mem_bytes, htail⟩
  have hname : Name.ofBytes? (split (name.bytes ++ tail)).1 = some name := by
    rw [hsplit, name.ofBytes?_bytes]
  rw [ofLine?_of_split hname, hsplit]

theorem carries_of_ofName {name : Name} {tail value : Bytes} (htail : Tail tail value)
    {field : Field} (hfield : ofName name value = some field) :
    Carries (name.bytes ++ tail) field := by
  cases name with
  | data =>
      cases hfield
      exact .data htail
  | event =>
      cases hfield
      exact .event htail
  | id =>
      simp only [ofName] at hfield
      split at hfield
      · cases hfield
      · next hnull =>
          cases hfield
          exact .id htail (by simpa using hnull)
  | retry =>
      obtain ⟨delay, hdelay, rfl⟩ := Option.map_eq_some_iff.mp hfield
      obtain ⟨hvalue, hfits, rfl⟩ := retryDelay?_eq_some_iff.mp hdelay
      exact .retry htail hvalue hfits

/-- The classifier accepts the lines of the grammar and no others. -/
theorem ofLine?_eq_some_iff {line : Bytes} {field : Field} :
    ofLine? line = some field ↔ Carries line field := by
  constructor
  · intro hfield
    cases line with
    | nil =>
        cases hfield
        exact .blank
    | cons b rest =>
        simp only [ofLine?] at hfield
        split at hfield
        · next hcolon =>
            subst hcolon
            cases hfield
            exact .comment (tail_cons_iff.mpr rfl)
        · obtain ⟨name, hname, hnamed⟩ := Option.bind_eq_some_iff.mp hfield
          obtain ⟨tail, hline, -, htail⟩ := split_eq_iff.mp (Prod.mk.eta (p := split (b :: rest))).symm
          rw [hline, Name.ofBytes?_eq_some_iff.mp hname]
          exact carries_of_ofName htail hnamed
  · intro hcarries
    cases hcarries with
    | blank => rfl
    | comment htext => rw [ofLine?, if_pos rfl, tail_cons_iff.mp htext]
    | data htail => exact ofLine?_append .data htail
    | event htail => exact ofLine?_append .event htail
    | id htail hnull =>
        rw [ofLine?_append .id htail, ofName, if_neg (by simpa using hnull)]
    | retry htail hvalue hfits =>
        rw [ofLine?_append .retry htail, ofName, retryDelay?_eq_some_iff.mpr ⟨hvalue, hfits, rfl⟩]
        rfl

/-! ## Fields that hold text -/

/-- The field that a text makes under a name, if the fields of this name hold text. -/
def Name.textField? : Name → Option (String → Field)
  | .data => some .data
  | .event => some .event
  | .id => some .id
  | .retry => none

theorem ofName_of_textField? {name : Name} {make : String → Field}
    (hmake : name.textField? = some make) {value : Bytes} (hnull : name = .id → 0 ∉ value) :
    ofName name value = some (make (Utf8.decode value)) := by
  cases name with
  | data =>
      cases hmake
      rfl
  | event =>
      cases hmake
      rfl
  | id =>
      cases hmake
      rw [ofName, if_neg (by simpa using hnull rfl)]
  | retry => cases hmake

theorem head?_encode_ne_space {text : String} (htext : text.toList.head? ≠ some ' ') :
    (Utf8.encode text).head? ≠ some Bytes.space := by
  rwa [ne_eq, ← Utf8.head?_decodeChars_iff (by decide), Utf8.encode, Utf8.decodeChars_flatMap]

/-- The classifier accepts the lines of the grammar and no others: the empty line is the only blank
one, a line is a comment exactly if it begins with a colon, and what the grammar does not have is
ignored.  Every text can be carried under each name whose fields hold text, in one form with a space
before it and, unless it begins with a space itself, in another without, and nothing of it is lost.
Bytes that are no text are read with replacements. -/
theorem ofLine?_accepts_and_inverts :
    (∀ line field, ofLine? line = some field ↔ Carries line field) ∧
    (∀ line, ofLine? line = some .blank ↔ line = []) ∧
    (∀ line, (∃ text, ofLine? line = some (.comment text)) ↔ line.head? = some Bytes.colon) ∧
    (∀ line, ofLine? line = none ↔ ∀ field, ¬Carries line field) ∧
    ∀ (name : Name) (make : String → Field), name.textField? = some make →
      (∀ text : String, (name = .id → '\x00' ∉ text.toList) →
        ofLine? (name.bytes ++ Bytes.colon :: Bytes.space :: Utf8.encode text) =
            some (make text) ∧
          (text.toList.head? ≠ some ' ' →
            ofLine? (name.bytes ++ Bytes.colon :: Utf8.encode text) = some (make text))) ∧
      ofLine? name.bytes = some (make "") ∧
      ofLine? (name.bytes ++ [Bytes.colon]) = some (make "") ∧
      ∀ value : Bytes, (name = .id → 0 ∉ value) →
        ofLine? (name.bytes ++ Bytes.colon :: Bytes.space :: value) =
          some (make (Utf8.decode value)) := by
  refine ⟨fun _ _ => ofLine?_eq_some_iff, fun _ => ofLine?_eq_blank_iff, ?_, ?_, ?_⟩
  · intro line
    constructor
    · rintro ⟨text, htext⟩
      cases ofLine?_eq_some_iff.mp htext with
      | comment => rfl
    · intro hhead
      obtain ⟨rest, rfl⟩ := List.head?_eq_some_iff.mp hhead
      exact ⟨Utf8.decode (dropSpace rest), by rw [ofLine?, if_pos rfl]⟩
  · intro line
    simp only [← ofLine?_eq_some_iff]
    exact Option.eq_none_iff_forall_ne_some
  · intro name make hmake
    have hread {tail value : Bytes} (htail : Tail tail value) (hnull : name = .id → 0 ∉ value) :
        ofLine? (name.bytes ++ tail) = some (make (Utf8.decode value)) :=
      (ofLine?_append name htail).trans (ofName_of_textField? hmake hnull)
    refine ⟨?_, ?_, ?_, fun value => hread (.space value)⟩
    · intro text hnull
      have hbytes : name = .id → 0 ∉ Utf8.encode text := by
        intro hid
        rw [Utf8.mem_encode_iff (by decide)]
        exact hnull hid
      refine ⟨?_, fun hspace => ?_⟩
      · rw [hread (.space _) hbytes, Utf8.decode_encode]
      · rw [hread (.colon (head?_encode_ne_space hspace)) hbytes, Utf8.decode_encode]
    · have hbare := hread .none (by simp)
      rwa [List.append_nil] at hbare
    · exact hread (.colon (by simp)) (by simp)

/-- A value may begin with a space and hold colons, and a line feed is as good as any other
character; an id that is no text is read with a replacement. -/
theorem ofLine?_accepts_and_inverts_of_spaces :
    Name.id.textField? = some .id ∧ '\x00' ∉ " a: :\n".toList ∧
      ofLine? (Name.id.bytes ++ Bytes.colon :: Bytes.space :: Utf8.encode " a: :\n") =
        some (.id " a: :\n") ∧
      ofLine? (Name.id.bytes ++ Bytes.colon :: Utf8.encode "a: :\n") = some (.id "a: :\n") ∧
      ofLine? (Name.id.bytes ++ Bytes.colon :: Bytes.space :: [0x20, 0xff]) =
        some (.id " \uFFFD") := by
  obtain ⟨-, -, -, -, htext⟩ := ofLine?_accepts_and_inverts
  obtain ⟨hwritten, -, -, hbytes⟩ := htext .id .id rfl
  refine ⟨rfl, by decide, ?_, ?_, ?_⟩
  · exact (hwritten " a: :\n" (fun _ => by decide)).1
  · exact (hwritten "a: :\n" (fun _ => by decide)).2 (by decide)
  · exact hbytes [0x20, 0xff] (fun _ => by decide)

end ServerSentEvents.Field
