/-!
# The text of a YAML document

Which characters a document may hold, which of them separate words and which end lines, and where in
the text a character stands.
-/

namespace ServerSentEvents.Yaml

/-- The characters that a document may hold. -/
def isAllowed (c : Char) : Bool :=
  let n := c.toNat
  n == 0x09 || n == 0x0a || n == 0x0d || (0x20 ≤ n && n ≤ 0x7e) || n == 0x85 ||
    (0xa0 ≤ n && n ≤ 0xd7ff) || (0xe000 ≤ n && n ≤ 0xfffd) || 0x10000 ≤ n

/-- Gives the common line endings one form: a carriage return, with the line feed after it if there
is one, and a next-line character become a line feed.  The line separator and the paragraph
separator end a line too, and stay what they are. -/
def unifyBreaks : List Char → List Char
  | '\r' :: '\n' :: cs => '\n' :: unifyBreaks cs
  | '\r' :: cs => '\n' :: unifyBreaks cs
  | '\u0085' :: cs => '\n' :: unifyBreaks cs
  | c :: cs => c :: unifyBreaks cs
  | [] => []

def isBlank (c : Char) : Bool :=
  c == ' ' || c == '\t'

/-- The ends of lines, once they have been unified. -/
def isBreak (c : Char) : Bool :=
  c == '\n' || c == '\u2028' || c == '\u2029'

def isSpace (c : Char) : Bool :=
  isBlank c || isBreak c

/-- Whether a text keeps apart from what stood before it: it is over, or it begins with space. -/
def isApart : List Char → Bool
  | [] => true
  | c :: _ => isSpace c

/-- The place of a character. -/
structure Position where
  line : Nat := 0
  column : Nat := 0
  deriving DecidableEq, Repr

def Position.after (p : Position) (c : Char) : Position :=
  if isBreak c then ⟨p.line + 1, 0⟩ else ⟨p.line, p.column + 1⟩

end ServerSentEvents.Yaml
