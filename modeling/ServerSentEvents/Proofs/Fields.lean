import ServerSentEvents.Proofs.Blocks
import ServerSentEvents.Proofs.Decimal
import ServerSentEvents.Proofs.Terminators
import ServerSentEvents.Proofs.Utf8

/-!
# Fields and the lines that carry them

Every field has a line that carries it.  A plain field, which no text of its own can break, is read
back from its line (`Field.ofLine?_line`), and the fields of lines that nothing breaks are plain
(`Field.plain_of_ofLine?`).
-/

namespace ServerSentEvents

/-! ## Numerals -/

namespace Decimal

theorem byteDigit?_of_isDigit {c : Char} (hc : c.isDigit = true) :
    c.toNat < 0x80 ∧ byteDigit? (UInt8.ofNat c.toNat) = some (c.toNat - '0'.toNat) := by
  have hbounds : 48 ≤ c.toNat ∧ c.toNat ≤ 57 := Char.isDigit_iff_toNat.mp hc
  have hbyte : (UInt8.ofNat c.toNat).toNat = c.toNat := Utf8.toNat_ofNat_of_lt (by omega)
  refine ⟨by omega, ?_⟩
  rw [byteDigit?, hbyte, if_pos (by omega)]
  rfl

theorem extend?_encode {cs : List Char} (hcs : ∀ c ∈ cs, c.isDigit = true) (n : Nat) :
    extend? byteDigit? n (cs.flatMap String.utf8EncodeChar) = some (Nat.ofDigitChars 10 cs n) := by
  induction cs generalizing n with
  | nil => rfl
  | cons c cs ih =>
      obtain ⟨hascii, hdigit⟩ := byteDigit?_of_isDigit (hcs c List.mem_cons_self)
      have hrest := ih (fun d hd => hcs d (List.mem_cons_of_mem c hd))
        (10 * n + (c.toNat - '0'.toNat))
      rw [List.flatMap_cons, Utf8.encode_one hascii, List.singleton_append, extend?,
        List.foldlM_cons, hdigit, Nat.ofDigitChars_cons]
      exact hrest

/-- The numeral of a number has the value of the number. -/
theorem ofBytes?_encode_toString (n : Nat) : ofBytes? (Utf8.encode (toString n)) = some n := by
  have hdigits : ∀ c ∈ Nat.toDigits 10 n, c.isDigit = true := by
    intro c hc
    exact isDigit_of_mem_toDigits hc
  have hvalue := extend?_encode hdigits 0
  rw [Nat.ofDigitChars_ten_toDigits] at hvalue
  rw [Nat.toString_eq_ofList_toDigits, Utf8.encode_ofList, ofBytes?, read?]
  · exact hvalue
  · cases hsome : Nat.toDigits 10 n with
    | nil => exact absurd hsome Nat.toDigits_ne_nil
    | cons c cs =>
        have hc := (byteDigit?_of_isDigit (hdigits c (by simp [hsome]))).1
        simp [Utf8.encode_one hc]

end Decimal

namespace Delay

/-- A delay of whole milliseconds whose number fits into a word. -/
def IsWhole (d : Delay) : Prop :=
  d.nanos % 1000000 = 0 ∧ d.wholeMillis < wordLimit

instance (d : Delay) : Decidable d.IsWhole :=
  inferInstanceAs (Decidable (_ ∧ _))

theorem isWhole_ofMillis (millis : Nat) (h : millis < wordLimit) : (ofMillis millis h).IsWhole := by
  constructor
  · simp only [ofMillis]
    omega
  · simp only [wholeMillis, ofMillis]
    omega

theorem toMillis_lt (d : Delay) : d.toMillis < wordLimit :=
  Nat.lt_of_le_of_lt (Nat.min_le_right _ _) (by decide)

/-- The bound on the milliseconds of a delay is of no account where they fit. -/
theorem IsWhole.toMillis_eq {d : Delay} (hd : d.IsWhole) : d.toMillis = d.wholeMillis := by
  have hfits := hd.2
  unfold toMillis
  omega

/-- A delay of whole milliseconds is known by their number. -/
theorem ofMillis_toMillis {d : Delay} (hd : d.IsWhole) : ofMillis d.toMillis d.toMillis_lt = d := by
  have hmillis := hd.toMillis_eq
  have hwhole := hd.1
  have hnanos := d.nanos_lt
  cases d with
  | mk seconds nanos hseconds hnanos =>
      simp only [ofMillis, hmillis, wholeMillis] at *
      congr
      · omega
      · omega

theorem toMillis_inj {d d' : Delay} (hd : d.IsWhole) (hd' : d'.IsWhole) :
    d.toMillis = d'.toMillis ↔ d = d' := by
  constructor
  · intro hsame
    rw [← ofMillis_toMillis hd, ← ofMillis_toMillis hd']
    simp only [hsame]
  · rintro rfl
    rfl

end Delay

namespace Field

/-! ## From fields to lines -/

/-- A text that no line end breaks. -/
def SingleLine (text : String) : Prop :=
  ∀ c ∈ text.toList, c ≠ '\n' ∧ c ≠ '\r'

instance (text : String) : Decidable (SingleLine text) :=
  List.decidableBAll (fun c => c ≠ '\n' ∧ c ≠ '\r') text.toList

/-- A field whose line holds it and nothing else. -/
def Plain : Field → Prop
  | .data text => SingleLine text
  | .event name => SingleLine name
  | .id value => SingleLine value ∧ '\x00' ∉ value.toList
  | .retry delay => delay.IsWhole
  | .comment text => SingleLine text
  | .blank => True

/-- The line of a field with this name and value. -/
def Name.line (name : Name) (value : String) : Bytes :=
  name.bytes ++ Bytes.colon :: Bytes.space :: Utf8.encode value

/-- The line of a field. -/
def line : Field → Bytes
  | .data text => Name.data.line text
  | .event name => Name.event.line name
  | .id value => Name.id.line value
  | .retry delay => Name.retry.line (toString delay.toMillis)
  | .comment text => Bytes.colon :: Bytes.space :: Utf8.encode text
  | .blank => []

theorem split_append {name : Bytes} (hname : Bytes.colon ∉ name) (rest : Bytes) :
    split (name ++ Bytes.colon :: rest) = (name, dropSpace rest) := by
  have hother : ∀ b ∈ name, (b != Bytes.colon) = true := by
    intro b hb
    simpa using fun hsame : b = Bytes.colon => hname (hsame ▸ hb)
  unfold split
  rw [List.takeWhile_append_of_pos hother, List.dropWhile_append_of_pos hother]
  simp

theorem Name.colon_not_mem_bytes (name : Name) : Bytes.colon ∉ name.bytes := by
  cases name <;> decide

theorem Name.ofBytes?_bytes (name : Name) : Name.ofBytes? name.bytes = some name := by
  cases name <;> decide

theorem Name.bytes_ne_nil (name : Name) : name.bytes ≠ [] := by
  cases name <;> decide

theorem ofLine?_name_append (name : Name) (value : Bytes) :
    ofLine? (name.bytes ++ Bytes.colon :: value) = ofName name (dropSpace value) := by
  have hsplit := split_append name.colon_not_mem_bytes value
  have hname : Name.ofBytes? (split (name.bytes ++ Bytes.colon :: value)).1 = some name := by
    rw [hsplit, name.ofBytes?_bytes]
  rw [ofLine?_of_split hname, hsplit]

theorem ofLine?_name_line (name : Name) (value : String) :
    ofLine? (name.line value) = ofName name (Utf8.encode value) := by
  rw [Name.line, ofLine?_name_append]
  simp [dropSpace]

theorem retryDelay?_encode {delay : Delay} (hdelay : delay.IsWhole) :
    retryDelay? (Utf8.encode (toString delay.toMillis)) = some delay := by
  rw [retryDelay?, Decimal.ofBytes?_encode_toString]
  dsimp only
  rw [dif_pos delay.toMillis_lt, Delay.ofMillis_toMillis hdelay]

/-- A plain field is read back from its line. -/
theorem ofLine?_line {field : Field} (hplain : field.Plain) : ofLine? field.line = some field := by
  cases field with
  | data text => rw [line, ofLine?_name_line, ofName, Utf8.decode_encode]
  | event name => rw [line, ofLine?_name_line, ofName, Utf8.decode_encode]
  | id value =>
      have hnull : (0 : UInt8) ∉ Utf8.encode value := by
        rw [Utf8.mem_encode_iff (by decide)]
        exact hplain.2
      rw [line, ofLine?_name_line, ofName, if_neg (by simpa using hnull), Utf8.decode_encode]
  | retry delay => rw [line, ofLine?_name_line, ofName, retryDelay?_encode hplain, Option.map_some]
  | comment text => simp [line, ofLine?, dropSpace, Utf8.decode_encode]
  | blank => rfl

theorem unbroken_encode {text : String} (htext : SingleLine text) :
    Bytes.Unbroken (Utf8.encode text) := by
  intro b hb
  by_contra hends
  rcases Bytes.isTerminator_eq_true_iff.mp (by simpa using hends) with rfl | rfl
  · have hfeed := (Utf8.mem_encode_iff (by decide) text).mp hb
    exact (htext _ hfeed).1 rfl
  · have hreturn := (Utf8.mem_encode_iff (by decide) text).mp hb
    exact (htext _ hreturn).2 rfl

theorem singleLine_toString (n : Nat) : SingleLine (toString n) := by
  intro c hc
  rw [Nat.toString_eq_ofList_toDigits, String.toList_ofList] at hc
  have hdigit := Decimal.isDigit_of_mem_toDigits hc
  constructor
  · rintro rfl
    cases hdigit
  · rintro rfl
    cases hdigit

theorem Name.unbroken_line (name : Name) {value : String} (hvalue : SingleLine value) :
    Bytes.Unbroken (name.line value) := by
  have hname : Bytes.Unbroken name.bytes := by
    cases name <;> decide
  have hafter : Bytes.Unbroken (Bytes.colon :: Bytes.space :: Utf8.encode value) := by
    rw [Bytes.unbroken_cons, Bytes.unbroken_cons]
    exact ⟨by decide, by decide, unbroken_encode hvalue⟩
  exact hname.append hafter

theorem unbroken_line {field : Field} (hplain : field.Plain) : Bytes.Unbroken field.line := by
  cases field with
  | data text => exact Name.unbroken_line _ hplain
  | event name => exact Name.unbroken_line _ hplain
  | id value => exact Name.unbroken_line _ hplain.1
  | retry delay => exact Name.unbroken_line _ (singleLine_toString _)
  | comment text =>
      rw [line, Bytes.unbroken_cons, Bytes.unbroken_cons]
      exact ⟨by decide, by decide, unbroken_encode hplain⟩
  | blank => exact Bytes.unbroken_nil

/-! ## From lines to fields -/

theorem singleLine_decode {bytes : Bytes} (hbytes : Bytes.Unbroken bytes) :
    SingleLine (Utf8.decode bytes) := by
  intro c hc
  rw [Utf8.decode, String.toList_ofList] at hc
  constructor
  · rintro rfl
    have hfeed := (Utf8.mem_decodeChars_iff (b := Bytes.lineFeed) (by decide) bytes).mp hc
    cases hbytes _ hfeed
  · rintro rfl
    have hreturn := (Utf8.mem_decodeChars_iff (b := Bytes.carriageReturn) (by decide) bytes).mp hc
    cases hbytes _ hreturn

theorem mem_of_mem_dropSpace {b : UInt8} {bytes : Bytes} (hb : b ∈ dropSpace bytes) :
    b ∈ bytes := by
  cases bytes with
  | nil => exact hb
  | cons c rest =>
      simp only [dropSpace] at hb
      split at hb
      · exact List.mem_cons_of_mem c hb
      · exact hb

theorem mem_of_mem_split {b : UInt8} {line : Bytes} (hb : b ∈ (split line).2) : b ∈ line :=
  (List.dropWhile_suffix _).subset (List.mem_of_mem_drop (mem_of_mem_dropSpace hb))

theorem plain_of_ofName {name : Name} {value : Bytes} (hvalue : Bytes.Unbroken value)
    {field : Field} (hfield : ofName name value = some field) : field.Plain := by
  cases name with
  | data =>
      cases hfield
      exact singleLine_decode hvalue
  | event =>
      cases hfield
      exact singleLine_decode hvalue
  | id =>
      unfold ofName at hfield
      dsimp only at hfield
      split at hfield
      · cases hfield
      · next hnull =>
          cases hfield
          refine ⟨singleLine_decode hvalue, ?_⟩
          intro hmem
          rw [Utf8.decode, String.toList_ofList] at hmem
          apply hnull
          simpa using (Utf8.mem_decodeChars_iff (b := 0) (by decide) value).mp hmem
  | retry =>
      obtain ⟨delay, hdelay, rfl⟩ := Option.map_eq_some_iff.mp hfield
      unfold retryDelay? at hdelay
      split at hdelay
      · cases hdelay
      · split at hdelay
        · cases hdelay
          exact Delay.isWhole_ofMillis _ _
        · cases hdelay

/-- The field of a line that nothing breaks is plain. -/
theorem plain_of_ofLine? {line : Bytes} (hline : Bytes.Unbroken line) {field : Field}
    (hfield : ofLine? line = some field) : field.Plain := by
  cases line with
  | nil =>
      cases hfield
      trivial
  | cons b rest =>
      simp only [ofLine?] at hfield
      split at hfield
      · cases hfield
        apply singleLine_decode
        intro c hc
        exact hline c (List.mem_cons_of_mem b (mem_of_mem_dropSpace hc))
      · obtain ⟨name, -, hnamed⟩ := Option.bind_eq_some_iff.mp hfield
        apply plain_of_ofName _ hnamed
        intro c hc
        exact hline c (mem_of_mem_split hc)

end Field

end ServerSentEvents
