import Mathlib.Data.List.Basic
import ServerSentEvents.Text.Decimal

/-!
# Digits and their numbers

A number is read back from the digits that are written for it (`Decimal.ofChars?_toDigits`), and
zeros before them change nothing.  Only the number zero is written with a zero at its head.
-/

namespace ServerSentEvents.Decimal

theorem isDigit_of_mem_toDigits {n : Nat} {c : Char} (hc : c ∈ Nat.toDigits 10 n) :
    c.isDigit = true :=
  Nat.isDigit_of_mem_toDigits (by decide) (by decide) hc

theorem exists_toDigits_eq_cons (n : Nat) :
    ∃ c cs, Nat.toDigits 10 n = c :: cs ∧ c.isDigit = true := by
  obtain ⟨c, cs, hcs⟩ := List.exists_cons_of_ne_nil (Nat.toDigits_ne_nil (b := 10) (n := n))
  exact ⟨c, cs, hcs, isDigit_of_mem_toDigits (hcs ▸ List.mem_cons_self)⟩

/-- Only the number zero is written with a zero at its head. -/
theorem head?_toDigits {n : Nat} (hzero : (Nat.toDigits 10 n).head? = some '0') :
    Nat.toDigits 10 n = ['0'] := by
  induction n using Nat.strongRecOn with
  | ind n ih =>
      by_cases hsmall : n < 10
      · have hsingle : ∀ digit < 10, (Nat.toDigits 10 digit).head? = some '0' →
            Nat.toDigits 10 digit = ['0'] := by
          decide
        exact hsingle n hsmall hzero
      · have hsplit : Nat.toDigits 10 n = Nat.toDigits 10 (n / 10) ++ [Nat.digitChar (n % 10)] :=
          Nat.toDigits_of_base_le (by decide) (by omega)
        rw [hsplit, List.head?_append_of_ne_nil _ Nat.toDigits_ne_nil] at hzero
        have hfirst := ih (n / 10) (by omega) hzero
        have hnumber := Nat.ofDigitChars_ten_toDigits (n := n / 10)
        rw [hfirst] at hnumber
        have hnone : n / 10 = 0 := hnumber.symm
        omega

/-! ## Reading digits -/

theorem extend?_digits {cs : List Char} (hcs : ∀ c ∈ cs, c.isDigit = true) (n : Nat) :
    extend? digit? n cs = some (Nat.ofDigitChars 10 cs n) := by
  induction cs generalizing n with
  | nil => rfl
  | cons c cs ih =>
      obtain ⟨hc, hrest⟩ := List.forall_mem_cons.mp hcs
      have hdigit : digit? c = some (c.toNat - '0'.toNat) := if_pos (Char.isDigit_iff_toNat.mp hc)
      rw [extend?, List.foldlM_cons, hdigit, Nat.ofDigitChars_cons]
      exact ih hrest _

theorem ofChars?_toDigits (n : Nat) : ofChars? (Nat.toDigits 10 n) = some n := by
  have hvalue := extend?_digits (fun c hc => isDigit_of_mem_toDigits (n := n) hc) 0
  rw [Nat.ofDigitChars_ten_toDigits] at hvalue
  rw [ofChars?, read?]
  · exact hvalue
  · exact Nat.toDigits_ne_nil

/-! ## Zeros before a numeral -/

theorem toList_padded (width n : Nat) :
    (padded width n).toList =
      List.replicate (width - (Nat.toDigits 10 n).length) '0' ++ Nat.toDigits 10 n :=
  String.toList_ofList

/-- The zeros before a numeral do not change what it says. -/
theorem ofDigitChars_padded (width n : Nat) :
    Nat.ofDigitChars 10 (padded width n).toList 0 = n := by
  simp [toList_padded, Nat.ofDigitChars_append, Nat.ofDigitChars_replicate_zero,
    Nat.ofDigitChars_ten_toDigits]

theorem isDigit_of_mem_padded {width n : Nat} {c : Char} (hc : c ∈ (padded width n).toList) :
    c.isDigit = true := by
  rw [toList_padded] at hc
  rcases List.mem_append.mp hc with hzero | hdigit
  · rw [List.eq_of_mem_replicate hzero]
    rfl
  · exact isDigit_of_mem_toDigits hdigit

end ServerSentEvents.Decimal
