import Mathlib.Data.Nat.Digits.Defs
import ServerSentEvents.Proofs.Fields

/-!
# Numerals and their numbers

A numeral is a run of digits of any length, and its number is what positional notation makes of
them.  The reader accepts the numerals and nothing else (`Decimal.ofBytes?_eq_some_iff`).  What is
printed for the number of a numeral is the numeral without the zeros that it begins with
(`Decimal.encode_toString_value`), so that numerals of one number are printed alike.
-/

namespace ServerSentEvents.Decimal

def IsDigit (b : UInt8) : Prop :=
  0x30 ≤ b.toNat ∧ b.toNat ≤ 0x39

instance (b : UInt8) : Decidable (IsDigit b) :=
  inferInstanceAs (Decidable (_ ∧ _))

/-- At least one digit, and nothing else. -/
def IsNumeral (bytes : Bytes) : Prop :=
  bytes ≠ [] ∧ ∀ b ∈ bytes, IsDigit b

instance (bytes : Bytes) : Decidable (IsNumeral bytes) :=
  inferInstanceAs (Decidable (_ ∧ _))

/-- The number of digits in positional notation, the last of them counting ones. -/
def value (bytes : Bytes) : Nat :=
  Nat.ofDigits 10 (bytes.reverse.map fun b => b.toNat - 0x30)

/-- A numeral without the zeros that it begins with, the last digit apart. -/
def shortest (bytes : Bytes) : Bytes :=
  match bytes.dropWhile (· == 0x30) with
  | [] => [0x30]
  | digits => digits

@[simp] theorem value_nil : value [] = 0 := rfl

theorem value_concat (bytes : Bytes) (b : UInt8) :
    value (bytes ++ [b]) = 10 * value bytes + (b.toNat - 0x30) := by
  rw [value, List.reverse_append, List.reverse_singleton, List.singleton_append, List.map_cons,
    Nat.ofDigits_cons, Nat.add_comm]
  rfl

/-- The zeros that a numeral begins with do not count, however many they are. -/
theorem value_zeros_append (k : Nat) (bytes : Bytes) :
    value (List.replicate k 0x30 ++ bytes) = value bytes := by
  induction bytes using List.reverseRecOn with
  | nil =>
      induction k with
      | zero => rfl
      | succ k ih =>
          rw [List.append_nil] at ih ⊢
          rw [List.replicate_succ', value_concat, ih]
          rfl
  | append_singleton bytes b ih => rw [← List.append_assoc, value_concat, value_concat, ih]

theorem IsNumeral.zeros_append {bytes : Bytes} (hbytes : IsNumeral bytes) (k : Nat) :
    IsNumeral (List.replicate k 0x30 ++ bytes) := by
  refine ⟨by simp [hbytes.1], List.forall_mem_append.mpr ⟨?_, hbytes.2⟩⟩
  intro b hb
  rw [List.eq_of_mem_replicate hb]
  decide

/-! ## Reading -/

theorem byteDigit?_eq_some_iff {b : UInt8} {digit : Nat} :
    byteDigit? b = some digit ↔ IsDigit b ∧ b.toNat - 0x30 = digit := by
  unfold byteDigit? IsDigit
  split
  · next hdigit => simp [hdigit]
  · next hother => simp [hother]

theorem extend?_concat {α : Type _} (digit? : α → Option Nat) (n : Nat) (xs : List α) (x : α) :
    extend? digit? n (xs ++ [x]) =
      (extend? digit? n xs).bind fun m => (digit? x).map (10 * m + ·) := by
  rw [extend?, List.foldlM_append]
  simp [extend?, List.foldlM_cons]

theorem extend?_zero_eq_some_iff {bytes : Bytes} {n : Nat} :
    extend? byteDigit? 0 bytes = some n ↔ (∀ b ∈ bytes, IsDigit b) ∧ value bytes = n := by
  induction bytes using List.reverseRecOn generalizing n with
  | nil => simp [extend?]
  | append_singleton bytes b ih =>
      rw [extend?_concat, Option.bind_eq_some_iff, List.forall_mem_append, List.forall_mem_singleton,
        value_concat]
      constructor
      · rintro ⟨m, hread, hlast⟩
        obtain ⟨digit, hdigit, rfl⟩ := Option.map_eq_some_iff.mp hlast
        obtain ⟨hdigits, rfl⟩ := ih.mp hread
        obtain ⟨hb, rfl⟩ := byteDigit?_eq_some_iff.mp hdigit
        exact ⟨⟨hdigits, hb⟩, rfl⟩
      · rintro ⟨⟨hdigits, hb⟩, rfl⟩
        refine ⟨value bytes, ih.mpr ⟨hdigits, rfl⟩, ?_⟩
        rw [byteDigit?_eq_some_iff.mpr ⟨hb, rfl⟩, Option.map_some]

/-- The reader accepts numerals of any length, and reads their number. -/
theorem ofBytes?_eq_some_iff {bytes : Bytes} {n : Nat} :
    ofBytes? bytes = some n ↔ IsNumeral bytes ∧ value bytes = n := by
  rw [ofBytes?, IsNumeral, and_assoc, ← extend?_zero_eq_some_iff]
  cases bytes with
  | nil => simp [read?]
  | cons b rest => simp [read?]

/-! ## Printing -/

/-- The printed digit of a byte that is one. -/
theorem encode_digitChar {b : UInt8} (hb : IsDigit b) :
    (Nat.toDigits 10 (b.toNat - 0x30)).flatMap String.utf8EncodeChar = [b] := by
  have hprinted : ∀ digit < 10, (Nat.toDigits 10 digit).flatMap String.utf8EncodeChar =
      [UInt8.ofNat (digit + 0x30)] := by
    decide
  rw [hprinted _ (by have hmost := hb.2; omega), Nat.sub_add_cancel hb.1, UInt8.ofNat_toNat]

theorem encode_toDigits_ne_nil (n : Nat) :
    (Nat.toDigits 10 n).flatMap String.utf8EncodeChar ≠ [] := by
  cases hdigits : Nat.toDigits 10 n with
  | nil => exact absurd hdigits Nat.toDigits_ne_nil
  | cons c cs => simp [String.utf8EncodeChar_ne_nil]

/-- Digits that denote nothing are zeros, and of other digits all but the zeros before them are
printed. -/
theorem encode_toDigits_value {bytes : Bytes} (hdigits : ∀ b ∈ bytes, IsDigit b) :
    if value bytes = 0 then bytes.dropWhile (· == 0x30) = []
    else (Nat.toDigits 10 (value bytes)).flatMap String.utf8EncodeChar =
      bytes.dropWhile (· == 0x30) := by
  induction bytes using List.reverseRecOn with
  | nil => simp
  | append_singleton bytes b ih =>
      obtain ⟨hbefore, hlast⟩ := List.forall_mem_append.mp hdigits
      have hb : IsDigit b := hlast b List.mem_cons_self
      have hbound : b.toNat - 0x30 < 10 := by
        have hmost := hb.2
        omega
      have hbytes := ih hbefore
      rw [value_concat, List.dropWhile_append]
      by_cases hnone : value bytes = 0
      · rw [if_pos hnone] at hbytes
        rw [hnone, hbytes, Nat.mul_zero, Nat.zero_add]
        by_cases hzero : b = 0x30
        · subst hzero
          rfl
        · have hsome : b.toNat - 0x30 ≠ 0 := by
            intro hsame
            have hleast := hb.1
            exact hzero (UInt8.toNat_inj.mp (show b.toNat = 0x30 by omega))
          rw [if_neg hsome, encode_digitChar hb]
          simp [hzero]
      · rw [if_neg hnone] at hbytes
        have hdropped : (bytes.dropWhile (· == 0x30)).isEmpty = false := by
          rw [← hbytes]
          simpa using encode_toDigits_ne_nil (value bytes)
        rw [if_neg (by omega), hdropped, ← hbytes, ← encode_digitChar hb, ← List.flatMap_append,
          Nat.toDigits_append_toDigits (by decide) (Nat.pos_of_ne_zero hnone) hbound]
        rfl

/-- The number of a numeral is printed as the numeral itself, less the zeros that it begins with. -/
theorem encode_toString_value {bytes : Bytes} (hbytes : IsNumeral bytes) :
    Utf8.encode (toString (value bytes)) = shortest bytes := by
  have hdigits := encode_toDigits_value hbytes.2
  rw [Nat.toString_eq_ofList_toDigits, Utf8.encode_ofList, shortest]
  by_cases hnone : value bytes = 0
  · rw [if_pos hnone] at hdigits
    rw [hnone, hdigits]
    rfl
  · rw [if_neg hnone] at hdigits
    rw [hdigits]
    split
    · next hempty => exact absurd (hdigits.trans hempty) (encode_toDigits_ne_nil _)
    · rfl

end ServerSentEvents.Decimal
