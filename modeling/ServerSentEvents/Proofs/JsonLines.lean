import ServerSentEvents.Printing
import ServerSentEvents.Proofs.Fields
import ServerSentEvents.Proofs.Json.Members

/-!
# Events on lines of JSON

An event that is printed as JSON is one object on a line of its own.  Whatever the texts of an event
hold, no line feed of theirs and no other control character comes out, and the object tells the
whole event apart from fractions of a millisecond and delays beyond a word.
-/

namespace ServerSentEvents

theorem JsonValue.ofNat_injective : Function.Injective JsonValue.ofNat := by
  intro n m hsame
  have htext : toString n = toString m := JsonValue.number.inj hsame
  have hread := Decimal.ofBytes?_encode_toString n
  rw [htext, Decimal.ofBytes?_encode_toString] at hread
  exact (Option.some.inj hread).symm

theorem JsonValue.ofString_injective : Function.Injective JsonValue.ofString := by
  intro a b hsame
  exact Option.some.inj (JsonValue.string.inj hsame)

namespace Event

/-- The members of the object that is printed for an event: keys and values in their order, and
nothing for what is absent. -/
def printedMembers (e : Event) : List (Option String × JsonValue) :=
  (e.event.map fun name => (some "event", JsonValue.ofString name)).toList ++
    (e.id.map fun id => (some "id", JsonValue.ofString id)).toList ++
    (e.retry.map fun delay =>
      (some "retry_ms", JsonValue.ofNat (min delay.wholeMillis (wordLimit - 1)))).toList ++
    [(some "data", JsonValue.ofString e.data)]

/-- The line that is printed for an event as JSON, less the line feed. -/
def jsonLine (e : Event) : List Char :=
  e.toPrintedJson.compactChars

/-- The text that is printed for events as JSON. -/
def jsonText (events : List Event) : String :=
  String.join (events.map (·.printed .json))

/-- An event whose delay, if it has one, is whole milliseconds and fits into a word of them. -/
def WholeRetry (e : Event) : Prop :=
  ∀ delay ∈ e.retry, delay.IsWhole

instance (e : Event) : Decidable e.WholeRetry :=
  inferInstanceAs (Decidable (∀ delay ∈ e.retry, delay.IsWhole))

/-! ## The object of an event -/

theorem toPrintedJson_eq (e : Event) : e.toPrintedJson = .object e.printedMembers := by
  obtain ⟨event, id, retry, data⟩ := e
  cases event <;> cases id <;> cases retry <;> rfl

theorem printable_toPrintedJson (e : Event) : e.toPrintedJson.Printable := by
  refine JsonValue.printable_ofFields ?_
  simp only [List.forall_mem_cons, Option.mem_def, Option.map_eq_some_iff, forall_exists_index,
    and_imp, forall_apply_eq_imp_iff₂, Option.some.injEq, forall_eq']
  exact ⟨fun _ _ => .ofString _, fun _ _ => .ofString _, fun _ _ => .ofNat _, .ofString _, nofun⟩

/-- What the keys of the printed object stand for. -/
theorem member?_printedMembers (e : Event) :
    JsonValue.member? "event" e.printedMembers = some (e.event.map .ofString) ∧
      JsonValue.member? "id" e.printedMembers = some (e.id.map .ofString) ∧
      JsonValue.member? "retry_ms" e.printedMembers = some (e.retryMillis.map .ofNat) ∧
      JsonValue.member? "data" e.printedMembers = some (some (.ofString e.data)) := by
  obtain ⟨event, id, retry, data⟩ := e
  cases event <;> cases id <;> cases retry <;> exact ⟨rfl, rfl, rfl, rfl⟩

/-- Events with the same object are equal, as far as their delays are told by milliseconds. -/
theorem eq_of_printedMembers_eq {e e' : Event} (he : e.WholeRetry) (he' : e'.WholeRetry)
    (hsame : e.printedMembers = e'.printedMembers) : e = e' := by
  obtain ⟨hevent, hid, hretry, hdata⟩ := e.member?_printedMembers
  obtain ⟨hevent', hid', hretry', hdata'⟩ := e'.member?_printedMembers
  rw [hsame] at hevent hid hretry hdata
  have hstring := Option.map_injective JsonValue.ofString_injective
  have hmillis : e.retryMillis = e'.retryMillis :=
    Option.map_injective JsonValue.ofNat_injective (Option.some.inj (hretry.symm.trans hretry'))
  obtain ⟨event, id, retry, data⟩ := e
  obtain ⟨event', id', retry', data'⟩ := e'
  obtain rfl : event = event' := hstring (Option.some.inj (hevent.symm.trans hevent'))
  obtain rfl : id = id' := hstring (Option.some.inj (hid.symm.trans hid'))
  obtain rfl : data = data' := JsonValue.ofString_injective
    (Option.some.inj (Option.some.inj (hdata.symm.trans hdata')))
  obtain rfl : retry = retry' := by
    cases retry with
    | none =>
        cases retry' with
        | none => rfl
        | some delay' => cases hmillis
    | some delay =>
        cases retry' with
        | none => cases hmillis
        | some delay' =>
            have hnumber : delay.toMillis = delay'.toMillis := Option.some.inj hmillis
            rw [(Delay.toMillis_inj (he delay rfl) (he' delay' rfl)).mp hnumber]
  rfl

/-! ## Lines -/

theorem toList_printed_json (e : Event) : (e.printed .json).toList = e.jsonLine ++ ['\n'] :=
  String.toList_ofList

theorem clean_jsonLine (e : Event) : JsonValue.Clean e.jsonLine :=
  e.printable_toPrintedJson.clean

theorem pieces_jsonText (events : List Event) :
    Text.pieces '\n' (jsonText events).toList = events.map jsonLine ++ [[]] := by
  induction events with
  | nil => rfl
  | cons e events ih =>
      have hfree : '\n' ∉ e.jsonLine := fun hfeed => absurd (e.clean_jsonLine _ hfeed) (by decide)
      have htext : (jsonText (e :: events)).toList =
          e.jsonLine ++ '\n' :: (jsonText events).toList := by
        simp [jsonText, toList_printed_json]
      rw [htext, Text.pieces_append, Text.pieces_of_not_mem hfree, ih]
      rfl

theorem of_mem_jsonText {events : List Event} {c : Char} (hc : c ∈ (jsonText events).toList) :
    0x20 ≤ c.toNat ∨ c = '\n' := by
  rw [jsonText, String.toList_join, List.mem_flatMap] at hc
  obtain ⟨text, htext, hmem⟩ := hc
  obtain ⟨e, -, rfl⟩ := List.mem_map.mp htext
  rw [toList_printed_json, List.mem_append, List.mem_singleton] at hmem
  exact hmem.imp_left (e.clean_jsonLine c)

/-- The text that is printed for events, cut at line feeds, has one piece for each event and nothing
behind the last line feed.  No control character but these line feeds is in it, and each piece is
read as an object that tells the event: a key for each part that the event has, its texts as they
are, and its delay in milliseconds, at most the greatest that a word holds.  Events with delays of
whole milliseconds that fit into a word are printed alike only if they are equal. -/
theorem jsonText_faithful (events : List Event) :
    Text.pieces '\n' (jsonText events).toList = events.map jsonLine ++ [[]] ∧
      (∀ e ∈ events, e.jsonLine ≠ [] ∧
        JsonValue.parse? (String.ofList e.jsonLine) = some (.object e.printedMembers)) ∧
      (∀ b ∈ Utf8.encode (jsonText events), b.toNat < 0x20 → b = Bytes.lineFeed) ∧
      ∀ e e' : Event, e.WholeRetry → e'.WholeRetry → e.printed .json = e'.printed .json →
        e = e' := by
  refine ⟨pieces_jsonText events, ?_, ?_, ?_⟩
  · intro e _
    constructor
    · rw [jsonLine, toPrintedJson_eq]
      simp [JsonValue.compactChars]
    · have hread := JsonValue.parse?_compact e.printable_toPrintedJson
      rw [toPrintedJson_eq] at hread
      rw [jsonLine, toPrintedJson_eq]
      exact hread
  · intro b hb hcontrol
    have hc := (Utf8.mem_encode_iff (by omega) _).mp hb
    have hcode := Utf8.toNat_ofNat_of_ascii (show b.toNat < 0x80 by omega)
    rcases of_mem_jsonText hc with hprinting | hfeed
    · omega
    · rw [hfeed] at hcode
      exact UInt8.toNat_inj.mp hcode.symm
  · intro e e' he he' hsame
    have hlines := congrArg String.toList hsame
    rw [toList_printed_json, toList_printed_json, List.append_left_inj] at hlines
    have hobject := JsonValue.eq_of_compactChars_eq e.printable_toPrintedJson
      e'.printable_toPrintedJson hlines
    rw [toPrintedJson_eq, toPrintedJson_eq] at hobject
    exact eq_of_printedMembers_eq he he' (JsonValue.object.inj hobject)

/-- A delay beyond what a word holds in milliseconds is printed as the greatest that it does, and
whatever would break a line or a literal is read as it was; a line feed and the escape that it is
written with are told apart. -/
theorem jsonText_faithful_of_escapes :
    let loud : Event := ⟨some "\u2028\"", some "\\\x00",
      some ⟨wordLimit - 1, 999999999, by decide, by decide⟩, "\r\n\x1f"⟩
    let bare : Event := ⟨none, none, none, ""⟩
    let feed : Event := ⟨none, none, some (.ofMillis 1500 (by decide)), "\n"⟩
    let escape : Event := ⟨none, none, some (.ofMillis 1500 (by decide)), "\\n"⟩
    Text.pieces '\n' (jsonText [loud, bare]).toList = [loud.jsonLine, bare.jsonLine, []] ∧
      JsonValue.parse? (String.ofList loud.jsonLine) = some (.object [
        (some "event", .ofString "\u2028\""), (some "id", .ofString "\\\x00"),
        (some "retry_ms", .ofNat (wordLimit - 1)), (some "data", .ofString "\r\n\x1f")]) ∧
      feed.WholeRetry ∧ escape.WholeRetry ∧ feed.printed .json ≠ escape.printed .json := by
  intro loud bare feed escape
  obtain ⟨hpieces, hread, -, happart⟩ := jsonText_faithful [loud, bare]
  refine ⟨hpieces, (hread loud (by simp)).2, by decide, by decide, ?_⟩
  intro hsame
  exact absurd (happart feed escape (by decide) (by decide) hsame) (by decide)

end Event

end ServerSentEvents
