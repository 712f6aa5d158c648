/-!
# Decimal numerals

A numeral is a non-empty run of the digits 0 to 9 and nothing else; leading zeros count as digits.
The same reader serves bytes and characters.
-/

namespace ServerSentEvents.Decimal

/-- The value of a character that is a digit. -/
def digit? (c : Char) : Option Nat :=
  if '0' ≤ c ∧ c ≤ '9' then some (c.toNat - 0x30) else none

/-- The value of a byte that is a digit. -/
def byteDigit? (b : UInt8) : Option Nat :=
  if 0x30 ≤ b.toNat ∧ b.toNat ≤ 0x39 then some (b.toNat - 0x30) else none

/-- Reads digits after a number that has been read already. -/
def extend? {α : Type _} (digit? : α → Option Nat) (n : Nat) (xs : List α) : Option Nat :=
  xs.foldlM (fun n x => (digit? x).map (10 * n + ·)) n

def read? {α : Type _} (digit? : α → Option Nat) : List α → Option Nat
  | [] => none
  | xs => extend? digit? 0 xs

/-- The value of a numeral in characters. -/
def ofChars? : List Char → Option Nat :=
  read? digit?

/-- The value of a numeral in bytes. -/
def ofBytes? : List UInt8 → Option Nat :=
  read? byteDigit?

/-- The numeral of `n` with zeros before it up to `width` digits. -/
def padded (width n : Nat) : String :=
  let digits := Nat.toDigits 10 n
  String.ofList (List.replicate (width - digits.length) '0' ++ digits)

end ServerSentEvents.Decimal
