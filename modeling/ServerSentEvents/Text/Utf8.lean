import ServerSentEvents.Bytes
import ServerSentEvents.Transducer

/-!
# UTF-8

Encoding is the standard's.  Decoding never fails: each maximal part of a sequence that cannot be
completed becomes one U+FFFD.  The decoder is a transducer over bytes, so a byte string may be cut
wherever the decoder is between two characters.
-/

namespace ServerSentEvents.Utf8

/-- Where the decoder stands. -/
inductive Position where
  | boundary
  /-- Inside a character: `missing + 1` bytes are due, the next from `low` to `high`, and the bits
  read so far have the value `bits`. -/
  | inside (missing low high bits : Nat)
  deriving Repr, DecidableEq

/-- The character that stands for bytes that are no UTF-8. -/
def replacement : Char := '\ufffd'

/-- Reads the first byte of a character. -/
def start (b : Nat) : Position × List Char :=
  if b < 0x80 then (.boundary, [Char.ofNat b])
  else if b < 0xc2 then (.boundary, [replacement])
  else if b < 0xe0 then (.inside 0 0x80 0xbf (b - 0xc0), [])
  else if b < 0xf0 then
    let low := if b = 0xe0 then 0xa0 else 0x80
    let high := if b = 0xed then 0x9f else 0xbf
    (.inside 1 low high (b - 0xe0), [])
  else if b < 0xf5 then
    let low := if b = 0xf0 then 0x90 else 0x80
    let high := if b = 0xf4 then 0x8f else 0xbf
    (.inside 2 low high (b - 0xf0), [])
  else (.boundary, [replacement])

/-- Reads one byte: a byte that cannot continue the character begun before it ends that character
as a replacement and begins the next one. -/
def step (p : Position) (byte : UInt8) : Position × List Char :=
  let b := byte.toNat
  match p with
  | .boundary => start b
  | .inside missing low high bits =>
    if low ≤ b ∧ b ≤ high then
      let bits := bits * 64 + (b - 0x80)
      match missing with
      | 0 => (.boundary, [Char.ofNat bits])
      | missing + 1 => (.inside missing 0x80 0xbf bits, [])
    else
      match start b with
      | (next, out) => (next, replacement :: out)

/-- The characters owed when the input ends: a replacement for a character left unfinished. -/
def flush : Position → List Char
  | .boundary => []
  | .inside .. => [replacement]

/-- The characters of a byte string, with replacements. -/
def decodeChars (bytes : Bytes) : List Char :=
  match Transducer.run step .boundary bytes with
  | (last, out) => out ++ flush last

/-- The text of a byte string, with replacements. -/
def decode (bytes : Bytes) : String :=
  String.ofList (decodeChars bytes)

def encode (text : String) : Bytes :=
  text.toList.flatMap String.utf8EncodeChar

/-- The text of a byte string that is UTF-8.  Encoded text is always valid, so a byte string is
valid exactly if its text encodes to it. -/
def decode? (bytes : Bytes) : Option String :=
  let text := decode bytes
  if encode text = bytes then some text else none

end ServerSentEvents.Utf8
