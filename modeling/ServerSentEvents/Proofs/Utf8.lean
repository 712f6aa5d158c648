import Mathlib.Algebra.Group.Nat.Defs
import ServerSentEvents.Text.Utf8

/-!
# Decoding with replacements

A byte below 0x80 always ends the character before it and stands for itself, so decoding commutes
with cutting a byte string at such bytes.  Every character but the replacement can only come from
its own encoding (`Utf8.decodeChars_eq_cons_iff`), and the encoding of a text decodes to the text.
-/

namespace ServerSentEvents.Utf8

namespace Position

/-- The least number that the character begun may have. -/
def least : Position → Nat
  | .boundary => 0
  | .inside missing low _ bits => (bits * 64 + (low - 0x80)) * 64 ^ missing

/-- The number after the greatest that the character begun may have. -/
def bound : Position → Nat
  | .boundary => 0
  | .inside missing _ high bits => (bits * 64 + (high - 0x80) + 1) * 64 ^ missing

/-- The positions that decoding reaches: the next byte is no ASCII byte, and the character begun
will be neither ASCII nor outside of Unicode. -/
def Sound : Position → Prop
  | .boundary => True
  | .inside missing low high bits =>
    0x80 ≤ low ∧ high ≤ 0xbf ∧ 0x80 ≤ (inside missing low high bits).least ∧
      ((inside missing low high bits).bound ≤ 0xd800 ∨
        0xe000 ≤ (inside missing low high bits).least ∧
          (inside missing low high bits).bound ≤ 0x110000)

end Position

open Position

@[simp] theorem sound_boundary : Position.boundary.Sound := trivial

theorem sound_start (b : Nat) : (start b).1.Sound := by
  unfold start
  split
  · trivial
  split
  · trivial
  split
  · simp only [Sound, least, bound]
    omega
  split
  · dsimp only
    split <;> split <;> simp only [Sound, least, bound] <;> omega
  split
  · dsimp only
    split <;> split <;> simp only [Sound, least, bound] <;> omega
  · trivial

theorem bounds_continue (missing bits : Nat) {low high b : Nat} (hlow : low ≤ b)
    (hhigh : b ≤ high) :
    (inside (missing + 1) low high bits).least ≤
        (inside missing 0x80 0xbf (bits * 64 + (b - 0x80))).least ∧
      (inside missing 0x80 0xbf (bits * 64 + (b - 0x80))).bound ≤
        (inside (missing + 1) low high bits).bound := by
  have hpow : 64 ^ (missing + 1) = 64 * 64 ^ missing := Nat.pow_succ'
  constructor
  · simp only [least, hpow, ← Nat.mul_assoc]
    apply Nat.mul_le_mul_right
    omega
  · simp only [bound, hpow, ← Nat.mul_assoc]
    apply Nat.mul_le_mul_right
    omega

theorem sound_step {p : Position} (hp : p.Sound) (byte : UInt8) : (step p byte).1.Sound := by
  unfold step
  cases p with
  | boundary => exact sound_start byte.toNat
  | inside missing low high bits =>
      dsimp only
      split
      · next haccepted =>
          obtain ⟨hlow, hhigh⟩ := haccepted
          cases missing with
          | zero => trivial
          | succ missing =>
              have hbounds := bounds_continue missing bits hlow hhigh
              obtain ⟨-, -, hleast, hvalid⟩ := hp
              refine ⟨Nat.le_refl _, Nat.le_refl _, Nat.le_trans hleast hbounds.1, ?_⟩
              rcases hvalid with hbelow | ⟨habove, hbelow⟩
              · exact Or.inl (Nat.le_trans hbounds.2 hbelow)
              · exact Or.inr ⟨Nat.le_trans habove hbounds.1, Nat.le_trans hbounds.2 hbelow⟩
      · exact sound_start byte.toNat

theorem sound_run {p : Position} (hp : p.Sound) (bytes : Bytes) :
    (Transducer.run step p bytes).1.Sound := by
  induction bytes generalizing p with
  | nil => exact hp
  | cons b rest ih =>
      rw [Transducer.run_cons]
      exact ih (sound_step hp b)

theorem toNat_ofNat_of_valid {n : Nat} (hn : n < 0xd800 ∨ 0xe000 ≤ n ∧ n < 0x110000) :
    (Char.ofNat n).toNat = n := by
  have hvalid : n.isValidChar := by
    unfold Nat.isValidChar
    omega
  rw [Char.ofNat, dif_pos hvalid]
  rfl

theorem toNat_ofNat_of_ascii {b : UInt8} (hb : b.toNat < 0x80) :
    (Char.ofNat b.toNat).toNat = b.toNat :=
  toNat_ofNat_of_valid (by omega)

/-- The number of a character that is complete. -/
theorem toNat_complete {low high bits b : Nat} (hp : (inside 0 low high bits).Sound)
    (hlow : low ≤ b) (hhigh : b ≤ high) :
    (Char.ofNat (bits * 64 + (b - 0x80))).toNat = bits * 64 + (b - 0x80) := by
  simp only [Sound, least, bound] at hp
  exact toNat_ofNat_of_valid (by omega)

/-! ## Cutting at ASCII bytes -/

/-- The characters of a byte string that is read from a position. -/
def decodeFrom (p : Position) (bytes : Bytes) : List Char :=
  (Transducer.run step p bytes).2 ++ flush (Transducer.run step p bytes).1

theorem decodeFrom_boundary (bytes : Bytes) : decodeFrom .boundary bytes = decodeChars bytes := rfl

@[simp] theorem decodeFrom_nil (p : Position) : decodeFrom p [] = flush p := rfl

theorem decodeFrom_cons (p : Position) (b : UInt8) (rest : Bytes) :
    decodeFrom p (b :: rest) = (step p b).2 ++ decodeFrom (step p b).1 rest := by
  simp [decodeFrom, Transducer.run_cons]

theorem decodeFrom_append (p : Position) (a b : Bytes) :
    decodeFrom p (a ++ b) =
      (Transducer.run step p a).2 ++ decodeFrom (Transducer.run step p a).1 b := by
  simp [decodeFrom, Transducer.run_append]

@[simp] theorem decodeChars_nil : decodeChars [] = [] := rfl

theorem start_of_ascii {b : Nat} (hb : b < 0x80) : start b = (.boundary, [Char.ofNat b]) := by
  simp [start, hb]

theorem step_of_ascii {p : Position} (hp : p.Sound) {b : UInt8} (hb : b.toNat < 0x80) :
    step p b = (.boundary, flush p ++ [Char.ofNat b.toNat]) := by
  cases p with
  | boundary => simp [step, start_of_ascii hb, flush]
  | inside missing low high bits =>
      have hother : ¬(low ≤ b.toNat ∧ b.toNat ≤ high) := by
        intro haccepted
        have hlow := hp.1
        omega
      simp [step, hother, start_of_ascii hb, flush]

/-- An ASCII byte ends the character before it and stands for itself. -/
theorem decodeChars_append_cons (bytes : Bytes) {b : UInt8} (hb : b.toNat < 0x80) (rest : Bytes) :
    decodeChars (bytes ++ b :: rest) =
      decodeChars bytes ++ Char.ofNat b.toNat :: decodeChars rest := by
  have hsound : (Transducer.run step .boundary bytes).1.Sound := sound_run sound_boundary bytes
  rw [← decodeFrom_boundary, decodeFrom_append, decodeFrom_cons, step_of_ascii hsound hb,
    decodeFrom_boundary, ← decodeFrom_boundary bytes, decodeFrom]
  simp

theorem decodeChars_cons {b : UInt8} (hb : b.toNat < 0x80) (rest : Bytes) :
    decodeChars (b :: rest) = Char.ofNat b.toNat :: decodeChars rest :=
  decodeChars_append_cons [] hb rest

/-! ## ASCII characters -/

theorem replacement_toNat : replacement.toNat = 0xfffd := by
  decide

theorem mem_start {b : Nat} {c : Char} (hc : c ∈ (start b).2) (hascii : c.toNat < 0x80) :
    b < 0x80 ∧ c = Char.ofNat b := by
  have hother : c ≠ replacement := by
    rintro rfl
    rw [replacement_toNat] at hascii
    omega
  unfold start at hc
  split at hc
  · next hb => exact ⟨hb, by simpa using hc⟩
  split at hc
  · simp [hother] at hc
  split at hc
  · simp at hc
  split at hc
  · simp at hc
  split at hc
  · simp at hc
  · simp [hother] at hc

/-- Decoding makes no ASCII character of other bytes. -/
theorem mem_step {p : Position} (hp : p.Sound) {b : UInt8} {c : Char} (hc : c ∈ (step p b).2)
    (hascii : c.toNat < 0x80) : b.toNat < 0x80 ∧ c = Char.ofNat b.toNat := by
  unfold step at hc
  cases p with
  | boundary => exact mem_start hc hascii
  | inside missing low high bits =>
      dsimp only at hc
      split at hc
      · next haccepted =>
          cases missing with
          | zero =>
              have hmade : c = Char.ofNat (bits * 64 + (b.toNat - 0x80)) := List.mem_singleton.mp hc
              have hleast : 0x80 ≤ (inside 0 low high bits).least := hp.2.2.1
              rw [hmade, toNat_complete hp haccepted.1 haccepted.2] at hascii
              simp only [least] at hleast
              omega
          | succ missing => simp at hc
      · rcases List.mem_cons.mp hc with rfl | hstart
        · rw [replacement_toNat] at hascii
          omega
        · exact mem_start hstart hascii

theorem mem_decodeFrom {p : Position} (hp : p.Sound) {bytes : Bytes} {c : Char}
    (hc : c ∈ decodeFrom p bytes) (hascii : c.toNat < 0x80) :
    ∃ b ∈ bytes, b.toNat < 0x80 ∧ c = Char.ofNat b.toNat := by
  induction bytes generalizing p with
  | nil =>
      cases p with
      | boundary => simp [flush] at hc
      | inside missing low high bits =>
          obtain rfl : c = replacement := by simpa [flush] using hc
          rw [replacement_toNat] at hascii
          omega
  | cons b rest ih =>
      rw [decodeFrom_cons] at hc
      rcases List.mem_append.mp hc with hfirst | hrest
      · exact ⟨b, List.mem_cons_self, mem_step hp hfirst hascii⟩
      · obtain ⟨d, hd, hmade⟩ := ih (sound_step hp b) hrest
        exact ⟨d, List.mem_cons_of_mem b hd, hmade⟩

/-- An ASCII character stands in the text exactly if its byte stands in the byte string. -/
theorem mem_decodeChars_iff {b : UInt8} (hb : b.toNat < 0x80) (bytes : Bytes) :
    Char.ofNat b.toNat ∈ decodeChars bytes ↔ b ∈ bytes := by
  constructor
  · intro hc
    obtain ⟨d, hd, hsmall, hsame⟩ :=
      mem_decodeFrom sound_boundary hc (by rwa [toNat_ofNat_of_ascii hb])
    have hequal : b = d := by
      apply UInt8.toNat_inj.mp
      rw [← toNat_ofNat_of_ascii hb, ← toNat_ofNat_of_ascii hsmall, hsame]
    exact hequal ▸ hd
  · intro hmem
    obtain ⟨before, after, rfl⟩ := List.append_of_mem hmem
    rw [decodeChars_append_cons before hb after]
    exact List.mem_append_right _ List.mem_cons_self

/-! ## Characters and their encodings -/

theorem start_two {b : Nat} (hleast : 0xc2 ≤ b) (hbound : b < 0xe0) :
    start b = (.inside 0 0x80 0xbf (b - 0xc0), []) := by
  unfold start
  rw [if_neg (by omega), if_neg (by omega), if_pos hbound]

theorem start_three {b : Nat} (hleast : 0xe0 ≤ b) (hbound : b < 0xf0) :
    start b =
      (.inside 1 (if b = 0xe0 then 0xa0 else 0x80) (if b = 0xed then 0x9f else 0xbf) (b - 0xe0),
        []) := by
  unfold start
  rw [if_neg (by omega), if_neg (by omega), if_neg (by omega), if_pos hbound]

theorem start_four {b : Nat} (hleast : 0xf0 ≤ b) (hbound : b < 0xf5) :
    start b =
      (.inside 2 (if b = 0xf0 then 0x90 else 0x80) (if b = 0xf4 then 0x8f else 0xbf) (b - 0xf0),
        []) := by
  unfold start
  rw [if_neg (by omega), if_neg (by omega), if_neg (by omega), if_neg (by omega), if_pos hbound]

theorem start_other {b : Nat} (hother : 0x80 ≤ b ∧ b < 0xc2 ∨ 0xf5 ≤ b) :
    start b = (.boundary, [replacement]) := by
  unfold start
  rcases hother with ⟨hleast, hbound⟩ | hleast
  · rw [if_neg (by omega), if_pos hbound]
  · rw [if_neg (by omega), if_neg (by omega), if_neg (by omega), if_neg (by omega),
      if_neg (by omega)]

variable {missing low high bits : Nat} {b : UInt8} {bytes rest : Bytes} {c : Char} {cs : List Char}

theorem decodeChars_start :
    decodeChars (b :: rest) = (start b.toNat).2 ++ decodeFrom (start b.toNat).1 rest :=
  decodeFrom_cons .boundary b rest

theorem decodeFrom_complete (hlow : low ≤ b.toNat) (hhigh : b.toNat ≤ high) :
    decodeFrom (.inside 0 low high bits) (b :: rest) =
      Char.ofNat (bits * 64 + (b.toNat - 0x80)) :: decodeChars rest := by
  simp [decodeFrom_cons, step, hlow, hhigh, decodeFrom_boundary]

theorem decodeFrom_continue (hlow : low ≤ b.toNat) (hhigh : b.toNat ≤ high) :
    decodeFrom (.inside (missing + 1) low high bits) (b :: rest) =
      decodeFrom (.inside missing 0x80 0xbf (bits * 64 + (b.toNat - 0x80))) rest := by
  simp [decodeFrom_cons, step, hlow, hhigh]

/-- Inside a character, anything but its next byte makes a replacement. -/
theorem decodeFrom_inside_eq_cons (hc : c ≠ replacement)
    (hdecoded : decodeFrom (.inside missing low high bits) bytes = c :: cs) :
    ∃ b rest, bytes = b :: rest ∧ low ≤ b.toNat ∧ b.toNat ≤ high := by
  cases bytes with
  | nil =>
      simp only [decodeFrom_nil, flush, List.cons.injEq] at hdecoded
      exact absurd hdecoded.1.symm hc
  | cons b rest =>
      by_cases haccepted : low ≤ b.toNat ∧ b.toNat ≤ high
      · exact ⟨b, rest, rfl, haccepted⟩
      · simp only [decodeFrom_cons, step, haccepted, if_false, List.cons_append,
          List.cons.injEq] at hdecoded
        exact absurd hdecoded.1.symm hc

theorem encode_one (hc : c.toNat < 0x80) : String.utf8EncodeChar c = [UInt8.ofNat c.toNat] := by
  unfold String.utf8EncodeChar
  dsimp only
  rw [if_pos (by change c.toNat ≤ 127; omega)]
  rfl

theorem encode_two (hleast : 0x80 ≤ c.toNat) (hbound : c.toNat < 0x800) :
    String.utf8EncodeChar c =
      [UInt8.ofNat (c.toNat / 64 % 32 + 192), UInt8.ofNat (c.toNat % 64 + 128)] := by
  unfold String.utf8EncodeChar
  dsimp only
  rw [if_neg (by change ¬c.toNat ≤ 127; omega), if_pos (by change c.toNat ≤ 2047; omega)]
  rfl

theorem encode_three (hleast : 0x800 ≤ c.toNat) (hbound : c.toNat < 0x10000) :
    String.utf8EncodeChar c =
      [UInt8.ofNat (c.toNat / 4096 % 16 + 224), UInt8.ofNat (c.toNat / 64 % 64 + 128),
        UInt8.ofNat (c.toNat % 64 + 128)] := by
  unfold String.utf8EncodeChar
  dsimp only
  rw [if_neg (by change ¬c.toNat ≤ 127; omega), if_neg (by change ¬c.toNat ≤ 2047; omega),
    if_pos (by change c.toNat ≤ 65535; omega)]
  rfl

theorem encode_four (hleast : 0x10000 ≤ c.toNat) :
    String.utf8EncodeChar c =
      [UInt8.ofNat (c.toNat / 262144 % 8 + 240), UInt8.ofNat (c.toNat / 4096 % 64 + 128),
        UInt8.ofNat (c.toNat / 64 % 64 + 128), UInt8.ofNat (c.toNat % 64 + 128)] := by
  unfold String.utf8EncodeChar
  dsimp only
  rw [if_neg (by change ¬c.toNat ≤ 127; omega), if_neg (by change ¬c.toNat ≤ 2047; omega),
    if_neg (by change ¬c.toNat ≤ 65535; omega)]
  rfl

theorem toNat_ofNat_of_lt {n : Nat} (hn : n < 256) : (UInt8.ofNat n).toNat = n := by
  rw [UInt8.toNat_ofNat']
  omega

theorem isValidChar_toNat (c : Char) :
    c.toNat < 0xd800 ∨ 0xe000 ≤ c.toNat ∧ c.toNat < 0x110000 := by
  have hvalid : c.toNat.isValidChar := c.valid
  unfold Nat.isValidChar at hvalid
  omega

/-- The encoding of a character is decoded to the character. -/
theorem decodeChars_utf8EncodeChar_append (c : Char) (rest : Bytes) :
    decodeChars (String.utf8EncodeChar c ++ rest) = c :: decodeChars rest := by
  have hvalid := isValidChar_toNat c
  by_cases hone : c.toNat < 0x80
  · have hb := toNat_ofNat_of_lt (n := c.toNat) (by omega)
    rw [encode_one hone, List.singleton_append, decodeChars_cons (by omega), hb, Char.ofNat_toNat]
  by_cases htwo : c.toNat < 0x800
  · have hfirst := toNat_ofNat_of_lt (n := c.toNat / 64 % 32 + 192) (by omega)
    have hlast := toNat_ofNat_of_lt (n := c.toNat % 64 + 128) (by omega)
    rw [encode_two (by omega) htwo, List.cons_append, List.singleton_append, decodeChars_start,
      hfirst, start_two (by omega) (by omega), decodeFrom_complete (by omega) (by omega), hlast]
    have hnumber : (c.toNat / 64 % 32 + 192 - 0xc0) * 64 + (c.toNat % 64 + 128 - 0x80) =
        c.toNat := by omega
    rw [hnumber, Char.ofNat_toNat, List.nil_append]
  by_cases hthree : c.toNat < 0x10000
  · have hfirst := toNat_ofNat_of_lt (n := c.toNat / 4096 % 16 + 224) (by omega)
    have hnext := toNat_ofNat_of_lt (n := c.toNat / 64 % 64 + 128) (by omega)
    have hlast := toNat_ofNat_of_lt (n := c.toNat % 64 + 128) (by omega)
    rw [encode_three (by omega) hthree, List.cons_append, List.cons_append, List.singleton_append,
      decodeChars_start, hfirst, start_three (by omega) (by omega),
      decodeFrom_continue (by rw [hnext]; split <;> omega) (by rw [hnext]; split <;> omega),
      decodeFrom_complete (by omega) (by omega), hnext, hlast]
    have hnumber : ((c.toNat / 4096 % 16 + 224 - 0xe0) * 64 + (c.toNat / 64 % 64 + 128 - 0x80)) *
        64 + (c.toNat % 64 + 128 - 0x80) = c.toNat := by omega
    rw [hnumber, Char.ofNat_toNat, List.nil_append]
  · have hfirst := toNat_ofNat_of_lt (n := c.toNat / 262144 % 8 + 240) (by omega)
    have hnext := toNat_ofNat_of_lt (n := c.toNat / 4096 % 64 + 128) (by omega)
    have hthird := toNat_ofNat_of_lt (n := c.toNat / 64 % 64 + 128) (by omega)
    have hlast := toNat_ofNat_of_lt (n := c.toNat % 64 + 128) (by omega)
    rw [encode_four (by omega), List.cons_append, List.cons_append, List.cons_append,
      List.singleton_append, decodeChars_start, hfirst, start_four (by omega) (by omega),
      decodeFrom_continue (by rw [hnext]; split <;> omega) (by rw [hnext]; split <;> omega),
      decodeFrom_continue (by omega) (by omega),
      decodeFrom_complete (by omega) (by omega), hnext, hthird, hlast]
    have hnumber : (((c.toNat / 262144 % 8 + 240 - 0xf0) * 64 +
        (c.toNat / 4096 % 64 + 128 - 0x80)) * 64 + (c.toNat / 64 % 64 + 128 - 0x80)) * 64 +
        (c.toNat % 64 + 128 - 0x80) = c.toNat := by omega
    rw [hnumber, Char.ofNat_toNat, List.nil_append]

theorem ofNat_eq {n : Nat} (hb : b.toNat = n) : UInt8.ofNat n = b := by
  rw [← hb, UInt8.ofNat_toNat]

theorem encode_ofNat_two {a b : UInt8} {n : Nat} (ha : 0xc2 ≤ a.toNat) (ha' : a.toNat < 0xe0)
    (hb : 0x80 ≤ b.toNat) (hb' : b.toNat ≤ 0xbf)
    (hn : n = (a.toNat - 0xc0) * 64 + (b.toNat - 0x80)) :
    String.utf8EncodeChar (Char.ofNat n) = [a, b] := by
  have hnumber : (Char.ofNat n).toNat = n := toNat_ofNat_of_valid (by omega)
  rw [encode_two (by omega) (by omega), hnumber, ofNat_eq (b := a) (by omega),
    ofNat_eq (b := b) (by omega)]

theorem encode_ofNat_three {a b d : UInt8} {n : Nat} (ha : 0xe0 ≤ a.toNat) (ha' : a.toNat < 0xf0)
    (hb : (if a.toNat = 0xe0 then 0xa0 else 0x80) ≤ b.toNat)
    (hb' : b.toNat ≤ if a.toNat = 0xed then 0x9f else 0xbf)
    (hd : 0x80 ≤ d.toNat) (hd' : d.toNat ≤ 0xbf)
    (hn : n = ((a.toNat - 0xe0) * 64 + (b.toNat - 0x80)) * 64 + (d.toNat - 0x80)) :
    String.utf8EncodeChar (Char.ofNat n) = [a, b, d] := by
  have hbounds : 0x800 ≤ n ∧ n < 0x10000 ∧ (n < 0xd800 ∨ 0xe000 ≤ n) ∧ 0x80 ≤ b.toNat ∧
      b.toNat ≤ 0xbf := by
    split at hb <;> split at hb' <;> omega
  have hnumber : (Char.ofNat n).toNat = n := toNat_ofNat_of_valid (by omega)
  rw [encode_three (by omega) (by omega), hnumber, ofNat_eq (b := a) (by omega),
    ofNat_eq (b := b) (by omega), ofNat_eq (b := d) (by omega)]

theorem encode_ofNat_four {a b d e : UInt8} {n : Nat} (ha : 0xf0 ≤ a.toNat) (ha' : a.toNat < 0xf5)
    (hb : (if a.toNat = 0xf0 then 0x90 else 0x80) ≤ b.toNat)
    (hb' : b.toNat ≤ if a.toNat = 0xf4 then 0x8f else 0xbf)
    (hd : 0x80 ≤ d.toNat) (hd' : d.toNat ≤ 0xbf) (he : 0x80 ≤ e.toNat) (he' : e.toNat ≤ 0xbf)
    (hn : n = (((a.toNat - 0xf0) * 64 + (b.toNat - 0x80)) * 64 + (d.toNat - 0x80)) * 64 +
      (e.toNat - 0x80)) :
    String.utf8EncodeChar (Char.ofNat n) = [a, b, d, e] := by
  have hbounds : 0x10000 ≤ n ∧ n < 0x110000 ∧ 0x80 ≤ b.toNat ∧ b.toNat ≤ 0xbf := by
    split at hb <;> split at hb' <;> omega
  have hnumber : (Char.ofNat n).toNat = n := toNat_ofNat_of_valid (by omega)
  rw [encode_four (by omega), hnumber, ofNat_eq (b := a) (by omega),
    ofNat_eq (b := b) (by omega), ofNat_eq (b := d) (by omega), ofNat_eq (b := e) (by omega)]

/-- Every character but the replacement comes from its own encoding. -/
theorem exists_of_decodeChars_eq_cons (hc : c ≠ replacement)
    (hdecoded : decodeChars bytes = c :: cs) :
    ∃ rest, bytes = String.utf8EncodeChar c ++ rest ∧ decodeChars rest = cs := by
  cases bytes with
  | nil => simp at hdecoded
  | cons a rest =>
      rw [decodeChars_start] at hdecoded
      by_cases hone : a.toNat < 0x80
      · rw [start_of_ascii hone, List.singleton_append] at hdecoded
        obtain ⟨rfl, rfl⟩ := List.cons.inj hdecoded
        have hnumber := toNat_ofNat_of_ascii hone
        refine ⟨rest, ?_, rfl⟩
        rw [encode_one (by omega), ofNat_eq hnumber.symm]
        rfl
      by_cases htwo : 0xc2 ≤ a.toNat ∧ a.toNat < 0xe0
      · rw [start_two htwo.1 htwo.2, List.nil_append] at hdecoded
        obtain ⟨b, rest, rfl, hb, hb'⟩ := decodeFrom_inside_eq_cons hc hdecoded
        rw [decodeFrom_complete hb hb'] at hdecoded
        obtain ⟨rfl, rfl⟩ := List.cons.inj hdecoded
        refine ⟨rest, ?_, rfl⟩
        rw [encode_ofNat_two htwo.1 htwo.2 hb hb' rfl]
        rfl
      by_cases hthree : 0xe0 ≤ a.toNat ∧ a.toNat < 0xf0
      · rw [start_three hthree.1 hthree.2, List.nil_append] at hdecoded
        obtain ⟨b, rest, rfl, hb, hb'⟩ := decodeFrom_inside_eq_cons hc hdecoded
        rw [decodeFrom_continue hb hb'] at hdecoded
        obtain ⟨d, rest, rfl, hd, hd'⟩ := decodeFrom_inside_eq_cons hc hdecoded
        rw [decodeFrom_complete hd hd'] at hdecoded
        obtain ⟨rfl, rfl⟩ := List.cons.inj hdecoded
        refine ⟨rest, ?_, rfl⟩
        rw [encode_ofNat_three hthree.1 hthree.2 hb hb' hd hd' rfl]
        rfl
      by_cases hfour : 0xf0 ≤ a.toNat ∧ a.toNat < 0xf5
      · rw [start_four hfour.1 hfour.2, List.nil_append] at hdecoded
        obtain ⟨b, rest, rfl, hb, hb'⟩ := decodeFrom_inside_eq_cons hc hdecoded
        rw [decodeFrom_continue hb hb'] at hdecoded
        obtain ⟨d, rest, rfl, hd, hd'⟩ := decodeFrom_inside_eq_cons hc hdecoded
        rw [decodeFrom_continue hd hd'] at hdecoded
        obtain ⟨e, rest, rfl, he, he'⟩ := decodeFrom_inside_eq_cons hc hdecoded
        rw [decodeFrom_complete he he'] at hdecoded
        obtain ⟨rfl, rfl⟩ := List.cons.inj hdecoded
        refine ⟨rest, ?_, rfl⟩
        rw [encode_ofNat_four hfour.1 hfour.2 hb hb' hd hd' he he' rfl]
        rfl
      · rw [start_other (by omega), List.singleton_append] at hdecoded
        exact absurd (List.cons.inj hdecoded).1.symm hc

theorem decodeChars_eq_cons_iff (hc : c ≠ replacement) :
    decodeChars bytes = c :: cs ↔
      ∃ rest, bytes = String.utf8EncodeChar c ++ rest ∧ decodeChars rest = cs := by
  constructor
  · exact exists_of_decodeChars_eq_cons hc
  · rintro ⟨rest, rfl, rfl⟩
    exact decodeChars_utf8EncodeChar_append c rest

theorem ofNat_ne_replacement (hb : b.toNat < 0x80) : Char.ofNat b.toNat ≠ replacement := by
  intro hsame
  have hnumber := toNat_ofNat_of_ascii hb
  rw [hsame, replacement_toNat] at hnumber
  omega

/-- A text begins with an ASCII character exactly where the bytes begin with its byte. -/
theorem head?_decodeChars_iff (hb : b.toNat < 0x80) (bytes : Bytes) :
    (decodeChars bytes).head? = some (Char.ofNat b.toNat) ↔ bytes.head? = some b := by
  have hnumber := toNat_ofNat_of_ascii hb
  constructor
  · intro hhead
    obtain ⟨cs, hcs⟩ := List.head?_eq_some_iff.mp hhead
    obtain ⟨rest, rfl, -⟩ := (decodeChars_eq_cons_iff (ofNat_ne_replacement hb)).mp hcs
    rw [encode_one (by omega), ofNat_eq hnumber.symm]
    rfl
  · intro hhead
    obtain ⟨rest, rfl⟩ := List.head?_eq_some_iff.mp hhead
    rw [decodeChars_cons hb]
    rfl

theorem decodeFrom_inside_ne_nil (missing low high bits : Nat) (bytes : Bytes) :
    decodeFrom (.inside missing low high bits) bytes ≠ [] := by
  induction bytes generalizing missing low high bits with
  | nil => simp [flush]
  | cons b rest ih =>
      rw [decodeFrom_cons, step]
      dsimp only
      split
      · cases missing with
        | zero => simp
        | succ missing => exact ih missing 0x80 0xbf _
      · simp

theorem decodeChars_ne_nil (b : UInt8) (rest : Bytes) : decodeChars (b :: rest) ≠ [] := by
  rw [decodeChars_start]
  unfold start
  split
  · simp
  split
  · simp
  split
  · exact decodeFrom_inside_ne_nil _ _ _ _ rest
  split
  · exact decodeFrom_inside_ne_nil _ _ _ _ rest
  split
  · exact decodeFrom_inside_ne_nil _ _ _ _ rest
  · simp

/-- A text without replacements has one byte string only. -/
theorem decodeChars_eq_iff (hcs : replacement ∉ cs) :
    decodeChars bytes = cs ↔ bytes = cs.flatMap String.utf8EncodeChar := by
  induction cs generalizing bytes with
  | nil =>
      cases bytes with
      | nil => simp
      | cons b rest => simp [decodeChars_ne_nil]
  | cons c cs ih =>
      have hc : c ≠ replacement := fun hsame => hcs (hsame ▸ List.mem_cons_self)
      have hrest : replacement ∉ cs := fun hmem => hcs (List.mem_cons_of_mem c hmem)
      rw [decodeChars_eq_cons_iff hc, List.flatMap_cons]
      constructor
      · rintro ⟨rest, rfl, hdecoded⟩
        rw [(ih hrest).mp hdecoded]
      · rintro rfl
        exact ⟨_, rfl, (ih hrest).mpr rfl⟩

/-! ## Encoded texts -/

theorem encode_ofList (cs : List Char) :
    encode (String.ofList cs) = cs.flatMap String.utf8EncodeChar := by
  simp [encode]

theorem decodeChars_flatMap (cs : List Char) :
    decodeChars (cs.flatMap String.utf8EncodeChar) = cs := by
  induction cs with
  | nil => rfl
  | cons c cs ih => rw [List.flatMap_cons, decodeChars_utf8EncodeChar_append, ih]

/-- The encoding of a text is decoded to the text. -/
theorem decode_encode (text : String) : decode (encode text) = text := by
  rw [decode, encode, decodeChars_flatMap, String.ofList_toList]

/-- An ASCII byte stands in an encoding exactly where its character stands in the text. -/
theorem mem_encode_iff (hb : b.toNat < 0x80) (text : String) :
    b ∈ encode text ↔ Char.ofNat b.toNat ∈ text.toList := by
  rw [← mem_decodeChars_iff hb, encode, decodeChars_flatMap]

end ServerSentEvents.Utf8
