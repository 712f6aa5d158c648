import Mathlib.Data.List.TakeWhile
import ServerSentEvents.Json.Reader
import ServerSentEvents.Proofs.Json.Writing

/-!
# Reading what was written

The reader takes the text of a printable value off whatever stands before the end of the value, and
gives the value back (`JsonValue.Printable.readBack`).  So a printable value is read from its compact
text (`JsonValue.parse?_compact`), and no other value has the same one.
-/

namespace ServerSentEvents.JsonValue

/-! ## Blanks -/

theorem skipBlanks_cons {c : Char} (hc : isBlank c = false) (cs : List Char) :
    skipBlanks (c :: cs) = c :: cs := by
  rw [skipBlanks, List.dropWhile_cons_of_neg (by simp [hc])]

theorem expect?_cons {d : Char} (hd : isBlank d = false) (c : Char) (cs : List Char) :
    expect? c (d :: cs) = if d = c then some cs else none := by
  rw [expect?, skipBlanks_cons hd]

/-! ## Strings -/

theorem readUnits_named {e c : Char} (hnamed : escaped? e = some c) (cs : List Char) :
    readUnits ('\\' :: e :: cs) =
      (readUnits cs).map fun (units, rest) => (.char c :: units, rest) := by
  have hletter : e ≠ 'u' := by
    rintro rfl
    cases hnamed
  rw [readUnits]
  · rw [hnamed]
    cases readUnits cs <;> rfl
  · simp [hletter]

theorem hexCode?_control :
    ∀ n < 0x20, hexCode? '0' '0' (Nat.digitChar (n / 16)) (Nat.digitChar (n % 16)) = some n := by
  decide

theorem readUnits_numbered {c : Char} (hcontrol : c.toNat < 0x20) (cs : List Char) :
    readUnits ('\\' :: 'u' :: '0' :: '0' :: Nat.digitChar (c.toNat / 16) ::
        Nat.digitChar (c.toNat % 16) :: cs) =
      (readUnits cs).map fun (units, rest) => (.char c :: units, rest) := by
  have hunit : TextUnit.ofCode c.toNat = .char c := by
    rw [TextUnit.ofCode, if_neg (by omega), Char.ofNat_toNat]
  rw [readUnits, hexCode?_control _ hcontrol]
  cases readUnits cs <;> simp [hunit]

theorem readUnits_unescaped {c : Char} (hquote : c ≠ '"') (hslash : c ≠ '\\')
    (hprinting : ¬c.toNat < 0x20) (cs : List Char) :
    readUnits (c :: cs) = (readUnits cs).map fun (units, rest) => (.char c :: units, rest) := by
  have hplain : ¬(c.toNat < 0x20 ∨ c = '\\') := not_or.mpr ⟨hprinting, hslash⟩
  rw [readUnits]
  · rw [if_neg hplain]
    cases readUnits cs <;> rfl
  all_goals simp [hquote, hslash]

/-- Whatever a character is written as, it is one unit. -/
theorem readUnits_escapeChar (c : Char) (cs : List Char) :
    readUnits (escapeChar c ++ cs) =
      (readUnits cs).map fun (units, rest) => (.char c :: units, rest) := by
  unfold escapeChar
  split
  -- the last case has no escape of its own, each of the others has one letter
  case h_8 _ hquote hslash _ _ _ _ _ =>
    split
    · next hcontrol => exact readUnits_numbered hcontrol cs
    · next hprinting => exact readUnits_unescaped hquote hslash hprinting cs
  all_goals exact readUnits_named rfl cs

theorem readUnits_escaped (cs rest : List Char) :
    readUnits (cs.flatMap escapeChar ++ '"' :: rest) = some (cs.map .char, rest) := by
  induction cs with
  | nil => rfl
  | cons c cs ih =>
      rw [List.flatMap_cons, List.append_assoc, readUnits_escapeChar, ih]
      rfl

theorem joinUnits_map_char (cs : List Char) : joinUnits (cs.map .char) = some cs := by
  induction cs with
  | nil => rfl
  | cons c cs ih => rw [List.map_cons, joinUnits, ih, Option.map_some]

/-- A text is read back from its literal, less the opening quote. -/
theorem readString_escaped (text : String) (rest : List Char) :
    readString (text.toList.flatMap escapeChar ++ '"' :: rest) = some (some text, rest) := by
  rw [readString, readUnits_escaped]
  simp [joinUnits_map_char]

theorem literal_append (text : String) (rest : List Char) :
    literal text ++ rest = '"' :: (text.toList.flatMap escapeChar ++ '"' :: rest) := by
  simp [literal]

/-! ## Numbers -/

/-- What may stand behind a value: nothing, or what separates or closes. -/
def Ends (rest : List Char) : Prop :=
  ∀ c ∈ rest.head?, c = ',' ∨ c = ']' ∨ c = '\x7d'

theorem Ends.nil : Ends [] := nofun

theorem Ends.cons {c : Char} (hc : c = ',' ∨ c = ']' ∨ c = '\x7d') (rest : List Char) :
    Ends (c :: rest) := by
  rintro _ ⟨⟩
  exact hc

theorem isDigit_eq (c : Char) : isDigit c = c.isDigit := by
  unfold isDigit Decimal.digit?
  split
  · next hdigit => exact (Char.isDigit_iff_toNat.mpr hdigit).symm
  · next hother =>
      have hnone : c.isDigit = false :=
        Bool.eq_false_iff.mpr fun hdigit => hother (Char.isDigit_iff_toNat.mp hdigit)
      exact hnone.symm

theorem Ends.not_isDigit {rest : List Char} (hrest : Ends rest) :
    ∀ c ∈ rest.head?, ¬isDigit c = true := by
  intro c hc
  rcases hrest c hc with rfl | rfl | rfl
  all_goals decide

theorem readDigits_append {digits rest : List Char} (hsome : digits ≠ [])
    (hdigits : ∀ c ∈ digits, isDigit c = true) (hrest : Ends rest) :
    readDigits (digits ++ rest) = some (digits, rest) := by
  have htake : rest.takeWhile isDigit = [] := by
    cases rest with
    | nil => rfl
    | cons c rest => exact List.takeWhile_cons_of_neg (hrest.not_isDigit c rfl)
  have hdrop : rest.dropWhile isDigit = rest := by
    cases rest with
    | nil => rfl
    | cons c rest => exact List.dropWhile_cons_of_neg (hrest.not_isDigit c rfl)
  rw [readDigits, List.takeWhile_append_of_pos hdigits, List.dropWhile_append_of_pos hdigits, htake,
    hdrop, List.append_nil]
  cases digits with
  | nil => exact absurd rfl hsome
  | cons c digits => rfl

theorem readWhole_toDigits (n : Nat) {rest : List Char} (hrest : Ends rest) :
    readWhole (Nat.toDigits 10 n ++ rest) = some (Nat.toDigits 10 n, rest) := by
  have hdigits : ∀ c ∈ Nat.toDigits 10 n, isDigit c = true := by
    intro c hc
    rw [isDigit_eq]
    exact Decimal.isDigit_of_mem_toDigits hc
  have hshortest : ¬((Nat.toDigits 10 n).head? = some '0' ∧ Nat.toDigits 10 n ≠ ['0']) :=
    fun ⟨hzero, hmore⟩ => hmore (Decimal.head?_toDigits hzero)
  rw [readWhole, readDigits_append Nat.toDigits_ne_nil hdigits hrest]
  exact if_neg hshortest

theorem Ends.readFraction {rest : List Char} (hrest : Ends rest) :
    readFraction rest = some ([], rest) := by
  cases rest with
  | nil => rfl
  | cons c rest => rcases hrest c rfl with rfl | rfl | rfl <;> rfl

theorem Ends.readExponent {rest : List Char} (hrest : Ends rest) :
    readExponent rest = some ([], rest) := by
  cases rest with
  | nil => rfl
  | cons c rest => rcases hrest c rfl with rfl | rfl | rfl <;> rfl

/-- The digits of a number are read back, up to what ends them. -/
theorem readNumber_toDigits (n : Nat) {rest : List Char} (hrest : Ends rest) :
    readNumber (Nat.toDigits 10 n ++ rest) = some (ofNat n, rest) := by
  obtain ⟨c, cs, hcs, hc⟩ := Decimal.exists_toDigits_eq_cons n
  have hunsigned : c ≠ '-' := by
    rintro rfl
    cases hc
  unfold readNumber
  split
  next sign digits hsign =>
    obtain ⟨rfl, rfl⟩ : [] = sign ∧ Nat.toDigits 10 n ++ rest = digits := by
      rw [hcs] at hsign ⊢
      split at hsign
      · next hminus => exact absurd (List.cons.inj hminus).1 hunsigned
      · exact Prod.mk.inj hsign
    rw [readWhole_toDigits n hrest, ofNat, Nat.toString_eq_ofList_toDigits]
    simp [hrest.readFraction, hrest.readExponent]

/-! ## Values -/

/-- A value that is taken off the text where it is written, whatever ends it, by a reader that may
call itself twice for each character. -/
def ReadBack (value : JsonValue) : Prop :=
  ∀ (fuel : Nat) (rest : List Char), 2 * value.compactChars.length ≤ fuel → Ends rest →
    readValue fuel (value.compactChars ++ rest) = some (value, rest)

theorem readItems_append {item : JsonValue} (hitem : item.ReadBack) {fuel : Nat}
    (hfuel : 2 * item.compactChars.length ≤ fuel) {after : List Char} (hafter : Ends after) :
    readItems (fuel + 1) (item.compactChars ++ after) =
      match expect? ',' after with
      | some cs => (readItems fuel cs).map fun (items, rest) => (item :: items, rest)
      | none => (expect? ']' after).map fun rest => ([item], rest) := by
  rw [readItems, hitem fuel after hfuel hafter]
  simp only [Option.bind_eq_bind, Option.bind_some]
  cases expect? ',' after with
  | none => cases expect? ']' after <;> rfl
  | some cs => cases hmore : readItems fuel cs <;> simp [hmore]

/-- The items of an array are taken off the text up to the bracket behind them. -/
theorem readItems_compactItems {items : List JsonValue} (hsome : items ≠ [])
    (hitems : ∀ item ∈ items, item.ReadBack) {fuel : Nat}
    (hfuel : 2 * (compactItems items).length + 1 ≤ fuel) (rest : List Char) :
    readItems fuel (compactItems items ++ ']' :: rest) = some (items, rest) := by
  induction items generalizing fuel with
  | nil => exact absurd rfl hsome
  | cons first items ih =>
      obtain ⟨hfirst, hothers⟩ := List.forall_mem_cons.mp hitems
      obtain ⟨fuel, rfl⟩ : ∃ less, fuel = less + 1 := ⟨fuel - 1, by omega⟩
      cases items with
      | nil =>
          rw [compactItems] at hfuel ⊢
          rw [readItems_append hfirst (by omega) (.cons (by simp) rest)]
          rfl
      | cons second items =>
          have htext : compactItems (first :: second :: items) =
              first.compactChars ++ ',' :: compactItems (second :: items) := by
            simp [compactItems]
          rw [htext] at hfuel ⊢
          -- the call for the rest of the items is paid for by the comma
          rw [List.length_append, List.length_cons] at hfuel
          rw [List.append_assoc, List.cons_append,
            readItems_append hfirst (by omega) (.cons (by simp) _), expect?_cons (by decide),
            if_pos rfl]
          dsimp only
          rw [ih (by simp) hothers (by omega), Option.map_some]

theorem readMembers_append {value : JsonValue} (hvalue : value.ReadBack) (key : String)
    {fuel : Nat} (hfuel : 2 * value.compactChars.length ≤ fuel) {after : List Char}
    (hafter : Ends after) :
    readMembers (fuel + 1) (memberChars (some key, value) ++ after) =
      match expect? ',' after with
      | some cs =>
          (readMembers fuel cs).map fun (members, rest) => ((some key, value) :: members, rest)
      | none => (expect? '\x7d' after).map fun rest => ([(some key, value)], rest) := by
  rw [memberChars, List.append_assoc, List.cons_append, Option.getD_some, literal_append,
    readMembers, expect?_cons (by decide), if_pos rfl]
  simp only [Option.bind_eq_bind, Option.bind_some, readString_escaped]
  rw [expect?_cons (by decide), if_pos rfl, Option.bind_some, hvalue fuel after hfuel hafter]
  simp only [Option.bind_some]
  cases expect? ',' after with
  | none => cases expect? '\x7d' after <;> rfl
  | some cs => cases hmore : readMembers fuel cs <;> simp [hmore]

theorem length_memberChars (member : Option String × JsonValue) :
    member.2.compactChars.length < (memberChars member).length := by
  rw [memberChars, List.length_append, List.length_cons]
  omega

/-- The members of an object are taken off the text up to the brace behind them. -/
theorem readMembers_compactMembers {members : List (Option String × JsonValue)}
    (hsome : members ≠ []) (hkeys : ∀ member ∈ members, member.1.isSome = true)
    (hvalues : ∀ member ∈ members, member.2.ReadBack) {fuel : Nat}
    (hfuel : 2 * (compactMembers members).length + 1 ≤ fuel) (rest : List Char) :
    readMembers fuel (compactMembers members ++ '\x7d' :: rest) = some (members, rest) := by
  induction members generalizing fuel with
  | nil => exact absurd rfl hsome
  | cons first members ih =>
      obtain ⟨hkey, hotherKeys⟩ := List.forall_mem_cons.mp hkeys
      obtain ⟨hfirst, hothers⟩ := List.forall_mem_cons.mp hvalues
      have hless := length_memberChars first
      obtain ⟨key, value⟩ := first
      obtain ⟨key, rfl⟩ := Option.isSome_iff_exists.mp hkey
      obtain ⟨fuel, rfl⟩ : ∃ less, fuel = less + 1 := ⟨fuel - 1, by omega⟩
      cases members with
      | nil =>
          rw [compactMembers_singleton] at hfuel ⊢
          rw [readMembers_append hfirst key (by omega) (.cons (by simp) rest)]
          rfl
      | cons second members =>
          rw [compactMembers_cons_cons] at hfuel ⊢
          rw [List.length_append, List.length_cons] at hfuel
          rw [List.append_assoc, List.cons_append,
            readMembers_append hfirst key (by omega) (.cons (by simp) _),
            expect?_cons (by decide), if_pos rfl]
          dsimp only
          rw [ih (by simp) hotherKeys hothers (by omega), Option.map_some]

/-! ## Printable values -/

theorem ne_of_isDigit {c d : Char} (hc : c.isDigit = true) (hd : d.isDigit = false) : c ≠ d := by
  rintro rfl
  rw [hc] at hd
  cases hd

/-- The text of a printable value begins with a character that nothing passes over and that closes
no array. -/
theorem Printable.exists_eq_cons {value : JsonValue} (hvalue : value.Printable) :
    ∃ c cs, value.compactChars = c :: cs ∧ isBlank c = false ∧ c ≠ ']' := by
  cases hvalue with
  | null => exact ⟨'n', _, rfl, by decide⟩
  | bool value =>
      cases value with
      | false => exact ⟨'f', _, rfl, by decide⟩
      | true => exact ⟨'t', _, rfl, by decide⟩
  | ofNat n =>
      obtain ⟨c, cs, hcs, hc⟩ := Decimal.exists_toDigits_eq_cons n
      refine ⟨c, cs, compactChars_ofNat n ▸ hcs, ?_, ne_of_isDigit hc (by decide)⟩
      simp [isBlank, ne_of_isDigit hc]
  | ofString text => exact ⟨'"', _, rfl, by decide⟩
  | array => exact ⟨'[', _, rfl, by decide⟩
  | object => exact ⟨'\x7b', _, rfl, by decide⟩

theorem readValue_of_isDigit {c : Char} (hc : c.isDigit = true) (fuel : Nat) (cs : List Char) :
    readValue (fuel + 1) (c :: cs) = readNumber (c :: cs) := by
  have hblank : isBlank c = false := by simp [isBlank, ne_of_isDigit hc]
  rw [readValue, skipBlanks_cons hblank]
  split
  case h_7 => rfl
  all_goals
    next hother =>
      rw [(List.cons.inj hother).1] at hc
      cases hc

theorem readValue_quote (fuel : Nat) (cs : List Char) :
    readValue (fuel + 1) ('"' :: cs) =
      (readString cs).map fun (text, rest) => (string text, rest) :=
  rfl

theorem readValue_bracket (fuel : Nat) (cs : List Char) :
    readValue (fuel + 1) ('[' :: cs) =
      match expect? ']' cs with
      | some rest => some (array [], rest)
      | none => (readItems fuel cs).map fun (items, rest) => (array items, rest) :=
  rfl

theorem readValue_brace (fuel : Nat) (cs : List Char) :
    readValue (fuel + 1) ('\x7b' :: cs) =
      match expect? '\x7d' cs with
      | some rest => some (object [], rest)
      | none => (readMembers fuel cs).map fun (members, rest) => (object members, rest) :=
  rfl

theorem readBack_array {items : List JsonValue} (hprintable : ∀ item ∈ items, item.Printable)
    (hitems : ∀ item ∈ items, item.ReadBack) : (array items).ReadBack := by
  rintro (_ | fuel) rest hfuel -
  · cases hfuel
  have hlength : (array items).compactChars.length = (compactItems items).length + 2 := by
    simp [compactChars]
  have htext : (array items).compactChars ++ rest = '[' :: (compactItems items ++ ']' :: rest) := by
    simp [compactChars]
  rw [htext, readValue_bracket]
  cases items with
  | nil => rfl
  | cons first others =>
      obtain ⟨c, cs, hcs, hblank, hc⟩ := (hprintable first List.mem_cons_self).exists_eq_cons
      have hopen : ∃ tail, compactItems (first :: others) = c :: tail := by
        cases others with
        | nil => exact ⟨cs, by rw [compactItems, hcs]⟩
        | cons second others => exact ⟨cs ++ ',' :: compactItems (second :: others),
            by simp [compactItems, hcs]⟩
      obtain ⟨tail, htail⟩ := hopen
      have hclose : expect? ']' (compactItems (first :: others) ++ ']' :: rest) = none := by
        rw [htail, List.cons_append, expect?_cons hblank, if_neg hc]
      rw [hclose]
      dsimp only
      rw [readItems_compactItems (by simp) hitems (by omega), Option.map_some]

theorem readBack_object {members : List (Option String × JsonValue)}
    (hkeys : ∀ member ∈ members, member.1.isSome = true)
    (hvalues : ∀ member ∈ members, member.2.ReadBack) : (object members).ReadBack := by
  rintro (_ | fuel) rest hfuel -
  · cases hfuel
  have hlength : (object members).compactChars.length = (compactMembers members).length + 2 := by
    simp [compactChars]
  have htext : (object members).compactChars ++ rest =
      '\x7b' :: (compactMembers members ++ '\x7d' :: rest) := by
    simp [compactChars]
  rw [htext, readValue_brace]
  cases members with
  | nil => rfl
  | cons first others =>
      have hclose : expect? '\x7d' (compactMembers (first :: others) ++ '\x7d' :: rest) = none := by
        cases others with
        | nil =>
            rw [compactMembers_singleton]
            rfl
        | cons second others =>
            rw [compactMembers_cons_cons]
            rfl
      rw [hclose]
      dsimp only
      rw [readMembers_compactMembers (by simp) hkeys hvalues (by omega), Option.map_some]

/-- Every printable value is taken off the text where it is written. -/
theorem Printable.readBack {value : JsonValue} (hvalue : value.Printable) : value.ReadBack := by
  induction hvalue with
  | null =>
      rintro (_ | fuel) rest hfuel -
      · cases hfuel
      · rfl
  | bool value =>
      rintro (_ | fuel) rest hfuel -
      · cases value <;> cases hfuel
      · cases value <;> rfl
  | ofNat n =>
      obtain ⟨c, cs, hcs, hc⟩ := Decimal.exists_toDigits_eq_cons n
      rintro (_ | fuel) rest hfuel hrest
      · rw [compactChars_ofNat, hcs] at hfuel
        cases hfuel
      · rw [compactChars_ofNat, ← readNumber_toDigits n hrest, hcs]
        exact readValue_of_isDigit hc fuel (cs ++ rest)
  | ofString text =>
      rintro (_ | fuel) rest hfuel -
      · cases hfuel
      · have htext := literal_append text rest
        rw [JsonValue.ofString, compactChars, Option.getD_some, htext, readValue_quote,
          readString_escaped]
        rfl
  | array hitems ih => exact readBack_array hitems ih
  | object hkeys hvalues ih => exact readBack_object hkeys ih

/-- A printable value is read from its compact text. -/
theorem parse?_compact {value : JsonValue} (hvalue : value.Printable) :
    parse? value.compact = some value := by
  have hread := hvalue.readBack (2 * value.compactChars.length + 2) [] (by omega) .nil
  rw [List.append_nil] at hread
  rw [parse?, compact, String.toList_ofList]
  simp only [hread, Option.bind_eq_bind, Option.bind_some]
  rfl

theorem eq_of_compactChars_eq {v w : JsonValue} (hv : v.Printable) (hw : w.Printable)
    (hsame : v.compactChars = w.compactChars) : v = w := by
  have hread := parse?_compact hv
  rw [compact, hsame, ← compact, parse?_compact hw] at hread
  exact (Option.some.inj hread).symm

end ServerSentEvents.JsonValue
