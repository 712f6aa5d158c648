import ServerSentEvents.Yaml.Node

/-!
# Escapes in double quotes

A backslash and a letter name one character, some of them by a number that follows in hexadecimal.
-/

namespace ServerSentEvents.Yaml

/-- How far a reader is inside an escape. -/
inductive Escape where
  | none
  /-- The first character of an escape has been read. -/
  | opened
  /-- So many hexadecimal digits are still to come, and those read so far make up `code`. -/
  | digits (left code : Nat)
  deriving DecidableEq, Repr

/-- The character that a one-letter escape names. -/
def escaped? : Char → Option Char
  | '0' => some '\x00'
  | 'a' => some '\x07'
  | 'b' => some '\x08'
  | 't' => some '\t'
  | '\t' => some '\t'
  | 'n' => some '\n'
  | 'v' => some '\x0b'
  | 'f' => some '\x0c'
  | 'r' => some '\r'
  | 'e' => some '\x1b'
  | ' ' => some ' '
  | '"' => some '"'
  | '/' => some '/'
  | '\\' => some '\\'
  | 'N' => some '\u0085'
  | '_' => some '\u00a0'
  | 'L' => some '\u2028'
  | 'P' => some '\u2029'
  | _ => Option.none

/-- How many hexadecimal digits follow the letter of an escape. -/
def escapeWidth? : Char → Option Nat
  | 'x' => some 2
  | 'u' => some 4
  | 'U' => some 8
  | _ => Option.none

/-- The character with a number, which must not be half of a surrogate pair. -/
def charOfCode? (code : Nat) : Option Char :=
  if code.isValidChar then some (Char.ofNat code) else Option.none

end ServerSentEvents.Yaml
