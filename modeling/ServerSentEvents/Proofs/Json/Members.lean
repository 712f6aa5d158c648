import ServerSentEvents.Proofs.Json.Reading

/-!
# Members of objects

What is written for fields is found under their keys again, as long as no key comes twice
(`JsonValue.member?_members`), and a number is read from its digits.
-/

namespace ServerSentEvents.JsonValue

/-- A number is read from the digits that are written for it. -/
theorem toNat?_ofNat {n bound : Nat} (hn : n < bound) : (ofNat n).toNat? bound = some n := by
  rw [ofNat, toNat?, Nat.toString_eq_ofList_toDigits, String.toList_ofList,
    Decimal.ofChars?_toDigits]
  simp [hn]

/-! ## Members by their keys -/

/-- The members that are written for fields: those without a value are left out. -/
def members (fields : List (String × Option JsonValue)) : List (Option String × JsonValue) :=
  fields.filterMap fun field => field.2.map fun value => (some field.1, value)

variable {fields : List (String × Option JsonValue)}

theorem of_mem_members {member : Option String × JsonValue} (hmember : member ∈ members fields) :
    ∃ key value, member = (some key, value) ∧ (key, some value) ∈ fields := by
  obtain ⟨⟨key, value?⟩, hfield, hvalue⟩ := List.mem_filterMap.mp hmember
  obtain ⟨value, rfl, rfl⟩ := Option.map_eq_some_iff.mp hvalue
  exact ⟨key, value, rfl, hfield⟩

theorem printable_ofFields (hfields : ∀ field ∈ fields, ∀ value ∈ field.2, value.Printable) :
    (ofFields fields).Printable := by
  refine .object ?_ ?_
  · intro member hmember
    obtain ⟨key, value, rfl, -⟩ := of_mem_members hmember
    rfl
  · intro member hmember
    obtain ⟨key, value, rfl, hfield⟩ := of_mem_members hmember
    exact hfields _ hfield value rfl

theorem filter_members_of_not_mem {key : String} (hkey : key ∉ fields.map (·.1)) :
    (members fields).filter (·.1 == some key) = [] := by
  rw [List.filter_eq_nil_iff]
  intro member hmember hsame
  obtain ⟨other, value, rfl, hfield⟩ := of_mem_members hmember
  obtain rfl : other = key := by simpa using hsame
  exact hkey (List.mem_map_of_mem hfield)

theorem filter_members (hkeys : (fields.map (·.1)).Nodup) {key : String}
    {value? : Option JsonValue} (hfield : (key, value?) ∈ fields) :
    (members fields).filter (·.1 == some key) =
      (value?.map fun value => (some key, value)).toList := by
  induction fields with
  | nil => cases hfield
  | cons first fields ih =>
      obtain ⟨other, other?⟩ := first
      obtain ⟨hfresh, hrestKeys⟩ := List.nodup_cons.mp hkeys
      have hsplit : members ((other, other?) :: fields) =
          (other?.map fun value => (some other, value)).toList ++ members fields := by
        cases other? <;> rfl
      rw [hsplit, List.filter_append]
      rcases List.mem_cons.mp hfield with hfirst | hrest
      · obtain ⟨rfl, rfl⟩ := Prod.mk.inj hfirst
        rw [filter_members_of_not_mem hfresh, List.append_nil]
        cases value? <;> simp
      · have hne : other ≠ key := by
          rintro rfl
          exact hfresh (List.mem_map.mpr ⟨_, hrest, rfl⟩)
        rw [ih hrestKeys hrest]
        cases other? <;> simp [hne]

/-- What is written under different keys is found under each of them. -/
theorem member?_members (hkeys : (fields.map (·.1)).Nodup) {key : String}
    {value? : Option JsonValue} (hfield : (key, value?) ∈ fields) :
    member? key (members fields) = some value? := by
  rw [member?, filter_members hkeys hfield]
  cases value? <;> rfl

theorem filter_of_member? {members : List (Option String × JsonValue)} {key : String}
    {value : JsonValue} (hmember : member? key members = some (some value)) :
    members.filter (·.1 == some key) = [(some key, value)] := by
  unfold member? at hmember
  split at hmember
  · cases hmember
  · next found hfound =>
      have hmem : found ∈ members.filter (·.1 == some key) := hfound ▸ List.mem_cons_self
      have hkey : found.1 = some key := by simpa using (List.mem_filter.mp hmem).2
      cases hmember
      rw [hfound, ← hkey]
  · cases hmember

/-- Members with another key have no part in what is found under a key. -/
theorem member?_filter_ne {key other : String} (hne : key ≠ other)
    (members : List (Option String × JsonValue)) :
    member? key (members.filter (·.1 != some other)) = member? key members := by
  have hkept : ∀ member ∈ members,
      (member.1 == some key && member.1 != some other) = (member.1 == some key) := by
    rintro ⟨found, value⟩ -
    by_cases hfound : found = some key
    · simp [hfound, hne]
    · simp [hfound]
  rw [member?, member?, List.filter_filter, List.filter_congr hkept]

end ServerSentEvents.JsonValue
