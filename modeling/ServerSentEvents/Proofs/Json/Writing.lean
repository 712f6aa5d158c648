import ServerSentEvents.Json.Value
import ServerSentEvents.Proofs.Decimal

/-!
# The compact text of a value

A value is printable if its text tells everything about it.  No control character is left in such a
text (`JsonValue.Printable.not_control`), so that a line break can stand between two of them.
-/

namespace ServerSentEvents.JsonValue

/-- A value that its compact text denotes: its numbers are written without sign, fraction and
exponent, and all of its strings and keys are texts. -/
inductive Printable : JsonValue → Prop where
  | null : Printable null
  | bool (value : Bool) : Printable (bool value)
  | ofNat (n : Nat) : Printable (ofNat n)
  | ofString (text : String) : Printable (ofString text)
  | array {items : List JsonValue} (hitems : ∀ item ∈ items, Printable item) :
      Printable (array items)
  | object {members : List (Option String × JsonValue)}
      (hkeys : ∀ member ∈ members, member.1.isSome = true)
      (hvalues : ∀ member ∈ members, Printable member.2) : Printable (object members)

theorem compactChars_ofNat (n : Nat) : (ofNat n).compactChars = Nat.toDigits 10 n := by
  rw [ofNat, compactChars, Nat.toString_eq_ofList_toDigits, String.toList_ofList]

/-! ## Members -/

/-- The text of one member. -/
def memberChars (member : Option String × JsonValue) : List Char :=
  literal (member.1.getD "") ++ ':' :: compactChars member.2

theorem compactMembers_singleton (member : Option String × JsonValue) :
    compactMembers [member] = memberChars member := by
  simp [compactMembers, memberChars]

theorem compactMembers_cons_cons (first second : Option String × JsonValue)
    (members : List (Option String × JsonValue)) :
    compactMembers (first :: second :: members) =
      memberChars first ++ ',' :: compactMembers (second :: members) := by
  simp [compactMembers, memberChars]

/-- A comma stands behind each member that others follow. -/
theorem compactMembers_append_cons (before : List (Option String × JsonValue))
    (member : Option String × JsonValue) (after : List (Option String × JsonValue)) :
    compactMembers (before ++ member :: after) =
      (before.flatMap fun earlier => memberChars earlier ++ [',']) ++
        compactMembers (member :: after) := by
  induction before with
  | nil => rfl
  | cons first before ih =>
      have hnext : compactMembers (first :: (before ++ member :: after)) =
          memberChars first ++ ',' :: compactMembers (before ++ member :: after) := by
        cases before with
        | nil => exact compactMembers_cons_cons first member after
        | cons second before => exact compactMembers_cons_cons first second _
      rw [List.cons_append, hnext, ih]
      simp

/-! ## Control characters -/

/-- A text without control characters. -/
def Clean (cs : List Char) : Prop :=
  ∀ c ∈ cs, 0x20 ≤ c.toNat

instance (cs : List Char) : Decidable (Clean cs) :=
  List.decidableBAll (fun c : Char => 0x20 ≤ c.toNat) cs

theorem Clean.nil : Clean [] := nofun

theorem Clean.cons {c : Char} (hc : 0x20 ≤ c.toNat) {cs : List Char} (hcs : Clean cs) :
    Clean (c :: cs) :=
  List.forall_mem_cons.mpr ⟨hc, hcs⟩

theorem Clean.append {a b : List Char} (ha : Clean a) (hb : Clean b) : Clean (a ++ b) :=
  List.forall_mem_append.mpr ⟨ha, hb⟩

theorem clean_escapeChar (c : Char) : Clean (escapeChar c) := by
  have hdigits : ∀ n < 0x20, Clean [Nat.digitChar (n / 16), Nat.digitChar (n % 16)] := by
    decide
  unfold escapeChar
  split
  case h_8 =>
    split
    · next hcontrol => exact .append (a := ['\\', 'u', '0', '0']) (by decide) (hdigits _ hcontrol)
    · next hother => exact .cons (by omega) .nil
  all_goals decide

theorem clean_literal (text : String) : Clean (literal text) := by
  have hescaped : Clean (text.toList.flatMap escapeChar) := by
    intro c hc
    obtain ⟨escaped, -, hmem⟩ := List.mem_flatMap.mp hc
    exact clean_escapeChar escaped c hmem
  exact .cons (by decide) (hescaped.append (by decide))

theorem clean_compactItems {items : List JsonValue}
    (hitems : ∀ item ∈ items, Clean item.compactChars) : Clean (compactItems items) := by
  induction items with
  | nil => exact .nil
  | cons first items ih =>
      obtain ⟨hfirst, hothers⟩ := List.forall_mem_cons.mp hitems
      cases items with
      | nil => exact hfirst
      | cons second items => exact hfirst.append (.cons (by decide) (ih hothers))

theorem clean_compactMembers {members : List (Option String × JsonValue)}
    (hvalues : ∀ member ∈ members, Clean member.2.compactChars) :
    Clean (compactMembers members) := by
  induction members with
  | nil => exact .nil
  | cons first members ih =>
      obtain ⟨hfirst, hothers⟩ := List.forall_mem_cons.mp hvalues
      have hmember : Clean (memberChars first) :=
        (clean_literal _).append (.cons (by decide) hfirst)
      cases members with
      | nil =>
          rw [compactMembers_singleton]
          exact hmember
      | cons second members =>
          rw [compactMembers_cons_cons]
          exact hmember.append (.cons (by decide) (ih hothers))

theorem Printable.clean {value : JsonValue} (hvalue : value.Printable) :
    Clean value.compactChars := by
  induction hvalue with
  | null => decide
  | bool value => cases value <;> decide
  | ofNat n =>
      intro c hc
      rw [compactChars_ofNat] at hc
      have hleast : 0x30 ≤ c.toNat := (Char.isDigit_iff_toNat.mp (Decimal.isDigit_of_mem_toDigits hc)).1
      omega
  | ofString text => exact clean_literal text
  | array hitems ih => exact .cons (by decide) ((clean_compactItems ih).append (by decide))
  | object hkeys hvalues ih =>
      exact .cons (by decide) ((clean_compactMembers ih).append (by decide))

end ServerSentEvents.JsonValue
