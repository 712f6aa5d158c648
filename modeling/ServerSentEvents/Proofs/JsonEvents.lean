import ServerSentEvents.Event.Json
import ServerSentEvents.Proofs.Json.Members

/-!
# Events that go through JSON

An event is read back from the text that is written for it, its absent parts absent and its empty
texts present (`Event.parseJson?_toJson`).  Texts that say the same in another way, with more
nanoseconds than a second has, are read once: what is written for the event that they give is read
as that event.
-/

namespace ServerSentEvents

/-! ## Delays -/

namespace Delay

/-- The values that give so many seconds and nanoseconds: objects that name both numbers, in either
order, and nothing else, and arrays of both.  The nanoseconds may make up whole seconds. -/
inductive Parts (seconds nanos : Nat) : JsonValue → Prop where
  | secondsFirst {a b : JsonValue} (ha : a.toNat? wordLimit = some seconds)
      (hb : b.toNat? halfWordLimit = some nanos) :
      Parts seconds nanos (.object [(some "secs", a), (some "nanos", b)])
  | nanosFirst {a b : JsonValue} (ha : a.toNat? wordLimit = some seconds)
      (hb : b.toNat? halfWordLimit = some nanos) :
      Parts seconds nanos (.object [(some "nanos", b), (some "secs", a)])
  | inOrder {a b : JsonValue} (ha : a.toNat? wordLimit = some seconds)
      (hb : b.toNat? halfWordLimit = some nanos) : Parts seconds nanos (.array [a, b])

variable {seconds nanos : Nat}

theorem ofJson?_of_parts {value : JsonValue} (hparts : Parts seconds nanos value) :
    ofJson? value = ofParts? seconds nanos := by
  cases hparts with
  | secondsFirst ha hb => simp [ofJson?, JsonValue.member?, ha, hb]
  | nanosFirst ha hb => simp [ofJson?, JsonValue.member?, ha, hb]
  | inOrder ha hb => simp [ofJson?, ha, hb]

theorem parts_toJson (d : Delay) : Parts d.seconds d.nanos d.toJson :=
  have hnanos : d.nanos < halfWordLimit := Nat.lt_trans d.nanos_lt (by decide)
  .secondsFirst (JsonValue.toNat?_ofNat d.seconds_lt) (JsonValue.toNat?_ofNat hnanos)

theorem ofJson?_toJson (d : Delay) : ofJson? d.toJson = some d := by
  have hcarry : d.nanos / 1000000000 = 0 := Nat.div_eq_of_lt d.nanos_lt
  have hsmall : d.nanos % 1000000000 = d.nanos := Nat.mod_eq_of_lt d.nanos_lt
  rw [ofJson?_of_parts d.parts_toJson, ofParts?]
  simp [hcarry, hsmall, d.seconds_lt]

theorem printable_toJson (d : Delay) : d.toJson.Printable := by
  refine JsonValue.printable_ofFields ?_
  simp only [List.forall_mem_cons, List.not_mem_nil, Option.mem_some_iff, forall_eq']
  exact ⟨.ofNat _, .ofNat _, nofun⟩

/-- Where there are two keys and no others, members are told apart by one of them. -/
theorem eq_cons_of_filter {members : List (Option String × JsonValue)} {key other : String}
    (hne : key ≠ other)
    (hkeys : ∀ member ∈ members, member.1 = some key ∨ member.1 = some other)
    {a b : JsonValue} (hfirst : members.head?.bind (·.1) = some key)
    (ha : members.filter (·.1 == some key) = [(some key, a)])
    (hb : members.filter (·.1 == some other) = [(some other, b)]) :
    members = [(some key, a), (some other, b)] := by
  cases members with
  | nil => cases hfirst
  | cons first rest =>
      obtain ⟨found, value⟩ := first
      obtain rfl : found = some key := hfirst
      obtain ⟨rfl, hnone⟩ : value = a ∧ rest.filter (·.1 == some key) = [] := by simpa using ha
      have hothers : ∀ member ∈ rest, (member.1 == some other) = true := by
        intro member hmember
        have hno := List.filter_eq_nil_iff.mp hnone member hmember
        simpa [hno] using (hkeys member (List.mem_cons_of_mem _ hmember)).resolve_left
          (by simpa using hno)
      have hrest : rest = [(some other, b)] := by
        rw [← hb, List.filter_cons_of_neg (by simpa using hne), List.filter_eq_self.mpr hothers]
      rw [hrest]

/-- Every delay that is read comes from a value that gives its seconds and nanoseconds. -/
theorem exists_parts_of_ofJson? {value : JsonValue} {d : Delay} (hread : ofJson? value = some d) :
    ∃ seconds nanos, Parts seconds nanos value ∧ ofParts? seconds nanos = some d := by
  unfold ofJson? at hread
  split at hread
  · next members =>
      rw [Option.bind_eq_bind] at hread
      split at hread
      · cases hread
      · next hknown =>
          have hkeys : ∀ member ∈ members, member.1 = some "secs" ∨ member.1 = some "nanos" := by
            simpa [or_iff_not_imp_left] using hknown
          obtain ⟨a?, hsecs, hafter⟩ := Option.bind_eq_some_iff.mp hread
          obtain ⟨seconds, ha?, hothers⟩ := Option.bind_eq_some_iff.mp hafter
          obtain ⟨b?, hnanos, hlast⟩ := Option.bind_eq_some_iff.mp hothers
          obtain ⟨nanos, hb?, hparts⟩ := Option.bind_eq_some_iff.mp hlast
          obtain ⟨a, rfl, ha⟩ := Option.bind_eq_some_iff.mp ha?
          obtain ⟨b, rfl, hb⟩ := Option.bind_eq_some_iff.mp hb?
          have hfirst := JsonValue.filter_of_member? hsecs
          have hsecond := JsonValue.filter_of_member? hnanos
          refine ⟨seconds, nanos, ?_, hparts⟩
          cases members with
          | nil => cases hfirst
          | cons member rest =>
              rcases hkeys member List.mem_cons_self with hkey | hkey
              · rw [eq_cons_of_filter (by decide) hkeys hkey hfirst hsecond]
                exact .secondsFirst ha hb
              · have hkeys' := fun m hm => (hkeys m hm).symm
                rw [eq_cons_of_filter (by decide) hkeys' hkey hsecond hfirst]
                exact .nanosFirst ha hb
  · next a b =>
      obtain ⟨seconds, ha, hothers⟩ := Option.bind_eq_some_iff.mp hread
      obtain ⟨nanos, hb, hparts⟩ := Option.bind_eq_some_iff.mp hothers
      exact ⟨seconds, nanos, .inOrder ha hb, hparts⟩
  · cases hread

end Delay

namespace Event

variable {members : List (Option String × JsonValue)}

section

variable {α : Type} {read? : JsonValue → Option α} {key : String}

theorem nullable?_of_ne {value : JsonValue} (hvalue : value ≠ .null) :
    nullable? read? value = (read? value).map some := by
  cases value with
  | null => exact absurd rfl hvalue
  | _ => rfl

theorem optional?_of_none (hmember : JsonValue.member? key members = some none) :
    optional? read? key members = some none := by
  rw [optional?, hmember]
  rfl

theorem optional?_of_some {value : JsonValue}
    (hmember : JsonValue.member? key members = some (some value)) (hvalue : value ≠ .null) :
    optional? read? key members = (read? value).map some := by
  rw [optional?, hmember]
  exact nullable?_of_ne hvalue

/-- A part that is written under a key, or left out, is read back. -/
theorem optional?_of_written {part : Option α} {write : α → JsonValue}
    (hmember : JsonValue.member? key members = some (part.map write))
    (hread : ∀ x, write x ≠ .null ∧ read? (write x) = some x) :
    optional? read? key members = some part := by
  cases part with
  | none => exact optional?_of_none hmember
  | some x => rw [optional?_of_some hmember (hread x).1, (hread x).2, Option.map_some]

end

/-- What has to be found under which keys for a value to describe an event. -/
theorem ofJson?_object_eq_some_iff {e : Event} :
    ofJson? (.object members) = some e ↔
      (∀ member ∈ members, member.1.isSome = true) ∧
        optional? JsonValue.text? "event" members = some e.event ∧
        optional? JsonValue.text? "id" members = some e.id ∧
        optional? Delay.ofJson? "retry" members = some e.retry ∧
        ∃ value, JsonValue.member? "data" members = some (some value) ∧
          value.text? = some e.data := by
  have hkeys : (members.any (·.1.isNone)) = false ↔ ∀ member ∈ members, member.1.isSome = true := by
    simp only [List.any_eq_false, Bool.not_eq_true, Option.isNone_eq_false_iff]
  by_cases hall : ∀ member ∈ members, member.1.isSome = true
  · obtain ⟨event, id, retry, data⟩ := e
    simp only [ofJson?, hkeys.mpr hall, Bool.false_eq_true, if_false, Option.bind_eq_bind,
      Option.bind_eq_some_iff]
    constructor
    · rintro ⟨_, hevent, _, hid, _, hretry, _, hfound, text, ⟨value, rfl, htext⟩, heq⟩
      cases heq
      exact ⟨hall, hevent, hid, hretry, value, hfound, htext⟩
    · rintro ⟨-, hevent, hid, hretry, value, hfound, htext⟩
      exact ⟨event, hevent, id, hid, retry, hretry, _, hfound, data, ⟨value, rfl, htext⟩, rfl⟩
  · have hsome : (members.any (·.1.isNone)) = true := by
      rwa [← hkeys, Bool.not_eq_false] at hall
    simp only [ofJson?, hsome, if_true, hall, false_and, iff_false]
    exact nofun

/-- What the items of an array have to describe for it to describe an event. -/
theorem ofJson?_array_eq_some_iff {event id retry data : JsonValue} {e : Event} :
    ofJson? (.array [event, id, retry, data]) = some e ↔
      nullable? JsonValue.text? event = some e.event ∧
        nullable? JsonValue.text? id = some e.id ∧
        nullable? Delay.ofJson? retry = some e.retry ∧ data.text? = some e.data := by
  obtain ⟨name, number, delay, text⟩ := e
  simp only [ofJson?, Option.bind_eq_bind, Option.bind_eq_some_iff]
  constructor
  · rintro ⟨_, hevent, _, hid, _, hretry, _, hdata, heq⟩
    cases heq
    exact ⟨hevent, hid, hretry, hdata⟩
  · rintro ⟨hevent, hid, hretry, hdata⟩
    exact ⟨name, hevent, number, hid, delay, hretry, text, hdata, rfl⟩

/-! ## Written events -/

/-- The members of the object that is written for an event. -/
def writtenMembers (e : Event) : List (Option String × JsonValue) :=
  JsonValue.members [
    ("event", e.event.map .ofString),
    ("id", e.id.map .ofString),
    ("retry", e.retry.map Delay.toJson),
    ("data", some (.ofString e.data))]

/-- What is found under the keys of a written event: its parts, and nothing where it has none. -/
theorem member?_writtenMembers (e : Event) :
    JsonValue.member? "event" e.writtenMembers = some (e.event.map .ofString) ∧
      JsonValue.member? "id" e.writtenMembers = some (e.id.map .ofString) ∧
      JsonValue.member? "retry" e.writtenMembers = some (e.retry.map Delay.toJson) ∧
      JsonValue.member? "data" e.writtenMembers = some (some (.ofString e.data)) := by
  refine ⟨?_, ?_, ?_, ?_⟩
  all_goals exact JsonValue.member?_members (by simp) (by simp)

theorem printable_toJson (e : Event) : e.toJson.Printable := by
  refine JsonValue.printable_ofFields ?_
  simp only [List.forall_mem_cons, Option.mem_def, Option.map_eq_some_iff, forall_exists_index,
    and_imp, forall_apply_eq_imp_iff₂, Option.some.injEq, forall_eq']
  exact ⟨fun _ _ => .ofString _, fun _ _ => .ofString _, fun d _ => d.printable_toJson,
    .ofString _, nofun⟩

theorem ofJson?_toJson (e : Event) : ofJson? e.toJson = some e := by
  obtain ⟨hevent, hid, hretry, hdata⟩ := e.member?_writtenMembers
  have hstring (text : String) : JsonValue.ofString text ≠ .null ∧
      (JsonValue.ofString text).text? = some text := ⟨nofun, rfl⟩
  have hdelay (d : Delay) : d.toJson ≠ .null ∧ Delay.ofJson? d.toJson = some d :=
    ⟨nofun, d.ofJson?_toJson⟩
  have hkeys : ∀ member ∈ e.writtenMembers, member.1.isSome = true := by
    intro member hmember
    obtain ⟨key, value, rfl, -⟩ := JsonValue.of_mem_members hmember
    rfl
  exact ofJson?_object_eq_some_iff.mpr ⟨hkeys, optional?_of_written hevent hstring,
    optional?_of_written hid hstring, optional?_of_written hretry hdelay, _, hdata, rfl⟩

theorem parse?_compact_toJson (e : Event) :
    JsonValue.parse? e.toJson.compact = some (.object e.writtenMembers) :=
  JsonValue.parse?_compact e.printable_toJson

theorem parseJson?_of_parse? {text : String} {value : JsonValue}
    (hparse : JsonValue.parse? text = some value) : parseJson? text = ofJson? value := by
  rw [parseJson?, hparse, Option.bind_some]

theorem parseJson?_compact_toJson (e : Event) : parseJson? e.toJson.compact = some e := by
  rw [parseJson?_of_parse? e.parse?_compact_toJson]
  exact e.ofJson?_toJson

/-! ## Delays of read events -/

/-- What stands for the delay of an event: the value under its key, or the third of four items. -/
def retryPart? : JsonValue → Option JsonValue
  | .object members => (JsonValue.member? "retry" members).join
  | .array [_, _, retry, _] => some retry
  | _ => none

/-- The members of an object under other keys than that of the delay. -/
def otherMembers (members : List (Option String × JsonValue)) :
    List (Option String × JsonValue) :=
  members.filter (·.1 != some "retry")

/-- An event without what stands for its delay. -/
def withoutRetry : JsonValue → JsonValue
  | .object members => .object (otherMembers members)
  | .array [event, id, _, data] => .array [event, id, .null, data]
  | value => value

theorem exists_parts_of_nullable? {value : JsonValue} {d : Delay}
    (hread : nullable? Delay.ofJson? value = some (some d)) :
    ∃ seconds nanos, Delay.Parts seconds nanos value ∧ Delay.ofParts? seconds nanos = some d := by
  have hvalue : value ≠ .null := by
    rintro rfl
    cases hread
  rw [nullable?_of_ne hvalue] at hread
  obtain ⟨delay, hdelay, hsame⟩ := Option.map_eq_some_iff.mp hread
  cases hsame
  exact Delay.exists_parts_of_ofJson? hdelay

/-- Only an object or an array of four items describes an event. -/
theorem shape_of_ofJson? {value : JsonValue} {e : Event} (hread : ofJson? value = some e) :
    (∃ members, value = .object members) ∨
      ∃ event id retry data, value = .array [event, id, retry, data] := by
  unfold ofJson? at hread
  split at hread
  · exact .inl ⟨_, rfl⟩
  · exact .inr ⟨_, _, _, _, rfl⟩
  · cases hread

/-- The delay of an event that is read comes from its own part of the value. -/
theorem exists_retry_of_ofJson? {value : JsonValue} {e : Event} {d : Delay}
    (hread : ofJson? value = some e) (hretry : e.retry = some d) :
    ∃ part seconds nanos, retryPart? value = some part ∧ Delay.Parts seconds nanos part ∧
      Delay.ofParts? seconds nanos = some d := by
  rcases shape_of_ofJson? hread with ⟨members, rfl⟩ | ⟨event, id, part, data, rfl⟩
  · obtain ⟨-, -, -, hfound, -⟩ := ofJson?_object_eq_some_iff.mp hread
    rw [hretry, optional?] at hfound
    obtain ⟨part?, hmember, hpart⟩ := Option.bind_eq_some_iff.mp hfound
    cases part? with
    | none => cases hpart
    | some part =>
        obtain ⟨seconds, nanos, hparts⟩ := exists_parts_of_nullable? hpart
        exact ⟨part, seconds, nanos, by simp [retryPart?, hmember], hparts⟩
  · obtain ⟨-, -, hfound, -⟩ := ofJson?_array_eq_some_iff.mp hread
    rw [hretry] at hfound
    obtain ⟨seconds, nanos, hparts⟩ := exists_parts_of_nullable? hfound
    exact ⟨part, seconds, nanos, rfl, hparts⟩

theorem optional?_otherMembers {α : Type} (members : List (Option String × JsonValue))
    (read? : JsonValue → Option α) {key : String} (hkey : key ≠ "retry") :
    optional? read? key (otherMembers members) = optional? read? key members := by
  rw [optional?, otherMembers, JsonValue.member?_filter_ne hkey, optional?]

theorem optional?_retry_otherMembers {α : Type} (read? : JsonValue → Option α) :
    optional? read? "retry" (otherMembers members) = some none := by
  have hnone : (otherMembers members).filter (·.1 == some "retry") = [] := by
    rw [otherMembers, List.filter_filter, List.filter_eq_nil_iff]
    simp
  exact optional?_of_none (by rw [JsonValue.member?, hnone])

theorem keys_otherMembers :
    (∀ member ∈ otherMembers members, member.1.isSome = true) ↔
      ∀ member ∈ members, member.1.isSome = true := by
  constructor
  · intro hothers member hmember
    by_cases hretry : member.1 = some "retry"
    · rw [hretry]
      rfl
    · exact hothers member (List.mem_filter.mpr ⟨hmember, by simpa using hretry⟩)
  · intro hall member hmember
    exact hall member (List.mem_of_mem_filter hmember)

theorem ofJson?_object_of_retry {value : JsonValue} {seconds nanos : Nat}
    (hmember : JsonValue.member? "retry" members = some (some value))
    (hparts : Delay.Parts seconds nanos value) :
    ofJson? (.object members) =
      (Delay.ofParts? seconds nanos).bind fun d =>
        (ofJson? (.object (otherMembers members))).map ({ · with retry := some d }) := by
  have hvalue : value ≠ .null := by
    rintro rfl
    cases hparts
  have hretry : optional? Delay.ofJson? "retry" members =
      (Delay.ofParts? seconds nanos).map some := by
    rw [optional?_of_some hmember hvalue, Delay.ofJson?_of_parts hparts]
  have hevent := optional?_otherMembers members JsonValue.text?
    (show "event" ≠ "retry" by decide)
  have hid := optional?_otherMembers members JsonValue.text?
    (show "id" ≠ "retry" by decide)
  have hdata := JsonValue.member?_filter_ne (show "data" ≠ "retry" by decide) members
  ext e
  simp only [Option.bind_eq_some_iff, Option.map_eq_some_iff]
  constructor
  · intro hread
    obtain ⟨hkeys, hname, hnumber, hdelay, htext⟩ := ofJson?_object_eq_some_iff.mp hread
    obtain ⟨d, hd, hsame⟩ := Option.map_eq_some_iff.mp (hretry.symm.trans hdelay)
    refine ⟨d, hd, { e with retry := none },
      ofJson?_object_eq_some_iff.mpr ⟨?_, ?_, ?_, ?_, ?_⟩, ?_⟩
    · exact keys_otherMembers.mpr hkeys
    · exact hevent.trans hname
    · exact hid.trans hnumber
    · exact optional?_retry_otherMembers _
    · rwa [otherMembers, hdata]
    · rw [hsame]
  · rintro ⟨d, hd, e', hread, rfl⟩
    obtain ⟨hkeys, hname, hnumber, -, htext⟩ := ofJson?_object_eq_some_iff.mp hread
    refine ofJson?_object_eq_some_iff.mpr ⟨?_, ?_, ?_, ?_, ?_⟩
    · exact keys_otherMembers.mp hkeys
    · exact hevent.symm.trans hname
    · exact hid.symm.trans hnumber
    · rw [hretry, hd, Option.map_some]
    · rwa [otherMembers, hdata] at htext

theorem ofJson?_array_of_retry {event id retry data : JsonValue} {seconds nanos : Nat}
    (hparts : Delay.Parts seconds nanos retry) :
    ofJson? (.array [event, id, retry, data]) =
      (Delay.ofParts? seconds nanos).bind fun d =>
        (ofJson? (.array [event, id, .null, data])).map ({ · with retry := some d }) := by
  have hdelay : nullable? Delay.ofJson? retry = (Delay.ofParts? seconds nanos).map some := by
    rw [nullable?_of_ne (by rintro rfl; cases hparts), Delay.ofJson?_of_parts hparts]
  ext e
  simp only [Option.bind_eq_some_iff, Option.map_eq_some_iff]
  constructor
  · intro hread
    obtain ⟨hname, hnumber, hfound, htext⟩ := ofJson?_array_eq_some_iff.mp hread
    obtain ⟨d, hd, hsame⟩ := Option.map_eq_some_iff.mp (hdelay.symm.trans hfound)
    refine ⟨d, hd, { e with retry := none },
      ofJson?_array_eq_some_iff.mpr ⟨hname, hnumber, rfl, htext⟩, ?_⟩
    rw [hsame]
  · rintro ⟨d, hd, e', hread, rfl⟩
    obtain ⟨hname, hnumber, -, htext⟩ := ofJson?_array_eq_some_iff.mp hread
    refine ofJson?_array_eq_some_iff.mpr ⟨hname, hnumber, ?_, htext⟩
    rw [hdelay, hd, Option.map_some]

/-- A delay has no part in what the rest of an event says, and is what its own parts make up. -/
theorem ofJson?_of_retry {value part : JsonValue} {seconds nanos : Nat}
    (hpart : retryPart? value = some part) (hparts : Delay.Parts seconds nanos part) :
    ofJson? value =
      (Delay.ofParts? seconds nanos).bind fun d =>
        (ofJson? (withoutRetry value)).map ({ · with retry := some d }) := by
  unfold retryPart? at hpart
  split at hpart
  · exact ofJson?_object_of_retry (Option.join_eq_some_iff.mp hpart) hparts
  · cases hpart
    exact ofJson?_array_of_retry hparts
  · cases hpart

/-- Events survive their JSON.  What is written for an event is an object with a key for each part
that the event has, and is read as the event.  An event that was read from any text is therefore
written as a text that gives it again, and is written in the same way again.  A delay that a text
gives is the sum of its seconds and nanoseconds, with whole seconds among the nanoseconds carried
over; where the seconds no longer fit into a word, the text is refused. -/
theorem parseJson?_toJson :
    (∀ e : Event, parseJson? e.toJson.compact = some e ∧
      ∃ members, JsonValue.parse? e.toJson.compact = some (.object members) ∧
        JsonValue.member? "event" members = some (e.event.map .ofString) ∧
        JsonValue.member? "id" members = some (e.id.map .ofString) ∧
        JsonValue.member? "retry" members = some (e.retry.map Delay.toJson) ∧
        JsonValue.member? "data" members = some (some (.ofString e.data))) ∧
    (∀ text e, parseJson? text = some e →
      (parseJson? e.toJson.compact).map (fun again => (again, again.toJson.compact)) =
        some (e, e.toJson.compact)) ∧
    (∀ text value part seconds nanos,
      JsonValue.parse? text = some value → retryPart? value = some part →
      Delay.Parts seconds nanos part →
      parseJson? text =
        if h : seconds + nanos / 1000000000 < wordLimit then
          (ofJson? (withoutRetry value)).map fun e =>
            { e with retry := some ⟨seconds + nanos / 1000000000, nanos % 1000000000, h,
                Nat.mod_lt _ (by decide)⟩ }
        else none) ∧
    ∀ text e d, parseJson? text = some e → e.retry = some d →
      ∃ value part seconds nanos, JsonValue.parse? text = some value ∧
        retryPart? value = some part ∧ Delay.Parts seconds nanos part := by
  refine ⟨?_, ?_, ?_, ?_⟩
  · intro e
    exact ⟨e.parseJson?_compact_toJson, e.writtenMembers, e.parse?_compact_toJson,
      e.member?_writtenMembers⟩
  · intro text e _
    rw [e.parseJson?_compact_toJson, Option.map_some]
  · intro text value part seconds nanos hparse hpart hparts
    rw [parseJson?_of_parse? hparse, ofJson?_of_retry hpart hparts, Delay.ofParts?]
    split <;> rfl
  · intro text e d hread hretry
    obtain ⟨value, hparse, hvalue⟩ := Option.bind_eq_some_iff.mp hread
    obtain ⟨part, seconds, nanos, hpart, hparts, -⟩ := exists_retry_of_ofJson? hvalue hretry
    exact ⟨value, part, seconds, nanos, hparse, hpart, hparts⟩

/-- An event with an empty id and a name that is said to be nothing, whose nanoseconds make up four
seconds, is read and stays what it is; one second more, and its delay is beyond a word.  In an array
too two seconds among the nanoseconds are carried. -/
theorem parseJson?_toJson_of_carry :
    let text (seconds : String) := "\x7b\"retry\":\x7b\"nanos\":4294967295,\"secs\":" ++ seconds ++
      "\x7d,\"id\":\"\",\"event\":null,\"data\":\"\\ud83d\\ude00\"\x7d"
    let e : Event := ⟨none, some "", some ⟨wordLimit - 1, 294967295, by decide, by decide⟩, "😀"⟩
    let delay := JsonValue.object
      [(some "nanos", .ofNat 4294967295), (some "secs", .ofNat 18446744073709551612)]
    let items := JsonValue.array
      [.ofString "a", .ofString "b", .array [.ofNat 1, .ofNat 2000000000], .ofString "x"]
    parseJson? (text "18446744073709551611") = some e ∧
      parseJson? e.toJson.compact = some e ∧
      parseJson? (JsonValue.object
        [(some "retry", delay), (some "data", .ofString "😀")]).compact = none ∧
      items.compact = "[\"a\",\"b\",[1,2000000000],\"x\"]" ∧
      parseJson? items.compact =
        some ⟨some "a", some "b", some ⟨3, 0, by decide, by decide⟩, "x"⟩ := by
  intro text e delay items
  obtain ⟨-, hagain, hcarry, -⟩ := parseJson?_toJson
  have hread : parseJson? (text "18446744073709551611") = some e := by decide +kernel
  obtain ⟨again, hwritten, hsame⟩ := Option.map_eq_some_iff.mp (hagain _ e hread)
  obtain rfl : again = e := (Prod.mk.inj hsame).1
  have hdelay : delay.Printable := by
    refine .object (by simp) fun member hmember => ?_
    obtain rfl | rfl := List.mem_pair.mp hmember <;> exact .ofNat _
  have hprintable :
      (JsonValue.object [(some "retry", delay), (some "data", .ofString "😀")]).Printable := by
    refine .object (by simp) fun member hmember => ?_
    obtain rfl | rfl := List.mem_pair.mp hmember
    · exact hdelay
    · exact .ofString _
  have hparts : Delay.Parts (wordLimit - 4) 4294967295 delay :=
    .nanosFirst (by decide +kernel) (by decide +kernel)
  refine ⟨hread, hwritten, ?_, by decide +kernel, ?_⟩
  · rw [hcarry _ _ _ _ _ (JsonValue.parse?_compact hprintable) rfl hparts, dif_neg (by decide)]
  · have hitems : items.Printable := by
      refine .array fun item hitem => ?_
      simp only [List.mem_cons, List.not_mem_nil, or_false] at hitem
      obtain rfl | rfl | rfl | rfl := hitem
      · exact .ofString _
      · exact .ofString _
      · refine .array fun part hpart => ?_
        obtain rfl | rfl := List.mem_pair.mp hpart <;> exact .ofNat _
      · exact .ofString _
    have hcarried : Delay.Parts 1 2000000000 (.array [.ofNat 1, .ofNat 2000000000]) :=
      .inOrder (by decide +kernel) (by decide +kernel)
    rw [hcarry _ _ _ _ _ (JsonValue.parse?_compact hitems) rfl hcarried, dif_pos (by decide)]
    rfl

end Event

end ServerSentEvents
