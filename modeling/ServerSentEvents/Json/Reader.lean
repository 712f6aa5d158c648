import ServerSentEvents.Json.Value

/-!
# Reading JSON

The reader follows the grammar by recursive descent.  Each of its parts takes the characters to be
read and returns what it read and what is left.  A string literal is first cut into units, so that
two escapes that name the halves of a surrogate pair can be joined.
-/

namespace ServerSentEvents.JsonValue

/-- What is left after a part has been read. -/
abbrev Rest := List Char

/-- The characters that may stand between the parts of a text. -/
def isBlank (c : Char) : Bool :=
  c == ' ' || c == '\n' || c == '\r' || c == '\t'

/-- Passes over blanks. -/
def skipBlanks (cs : Rest) : Rest :=
  cs.dropWhile isBlank

/-- Passes over one character after blanks. -/
def expect? (c : Char) (cs : Rest) : Option Rest :=
  match skipBlanks cs with
  | d :: rest => if d = c then some rest else none
  | [] => none

/-! ### Strings -/

/-- A unit of a string literal. -/
inductive TextUnit where
  | char (c : Char)
  /-- An escape that names one half of a surrogate pair. -/
  | surrogate (code : Nat)
  deriving DecidableEq, Repr

/-- The unit that an escape by number names. -/
def TextUnit.ofCode (code : Nat) : TextUnit :=
  if 0xd800 ≤ code ∧ code < 0xe000 then surrogate code else char (Char.ofNat code)

def hexDigit? (c : Char) : Option Nat :=
  if '0' ≤ c ∧ c ≤ '9' then some (c.toNat - 0x30)
  else if 'a' ≤ c ∧ c ≤ 'f' then some (c.toNat - 0x57)
  else if 'A' ≤ c ∧ c ≤ 'F' then some (c.toNat - 0x37)
  else none

/-- The number of four hexadecimal digits. -/
def hexCode? (a b c d : Char) : Option Nat := do
  return ((← hexDigit? a) * 16 + (← hexDigit? b)) * 256 + (← hexDigit? c) * 16 + (← hexDigit? d)

/-- The character that a one-letter escape names. -/
def escaped? : Char → Option Char
  | '"' => some '"'
  | '\\' => some '\\'
  | '/' => some '/'
  | 'b' => some '\x08'
  | 'f' => some '\x0c'
  | 'n' => some '\n'
  | 'r' => some '\r'
  | 't' => some '\t'
  | _ => none

/-- Reads the units of a string literal whose opening quote has been read. -/
def readUnits : List Char → Option (List TextUnit × Rest)
  | [] => none
  | '"' :: rest => some ([], rest)
  | '\\' :: 'u' :: a :: b :: c :: d :: rest =>
    match hexCode? a b c d, readUnits rest with
    | some code, some (units, rest) => some (.ofCode code :: units, rest)
    | _, _ => none
  | '\\' :: e :: rest =>
    match escaped? e, readUnits rest with
    | some c, some (units, rest) => some (.char c :: units, rest)
    | _, _ => none
  | c :: rest =>
    if c.toNat < 0x20 ∨ c = '\\' then none
    else
      match readUnits rest with
      | some (units, rest) => some (.char c :: units, rest)
      | none => none

/-- The text of units, if every half of a surrogate pair stands beside its other half. -/
def joinUnits : List TextUnit → Option (List Char)
  | [] => some []
  | .char c :: units => (joinUnits units).map (c :: ·)
  | .surrogate high :: .surrogate low :: units =>
    if high < 0xdc00 ∧ 0xdc00 ≤ low then
      (joinUnits units).map
        (Char.ofNat (0x10000 + (high - 0xd800) * 0x400 + (low - 0xdc00)) :: ·)
    else none
  | .surrogate _ :: _ => none

/-- Reads a string literal whose opening quote has been read. -/
def readString (cs : List Char) : Option (Option String × Rest) :=
  (readUnits cs).map fun (units, rest) => ((joinUnits units).map String.ofList, rest)

/-! ### Numbers -/

def isDigit (c : Char) : Bool :=
  (Decimal.digit? c).isSome

def readDigits (cs : List Char) : Option (List Char × Rest) :=
  match cs.takeWhile isDigit with
  | [] => none
  | digits => some (digits, cs.dropWhile isDigit)

/-- Reads the digits before the point: a zero alone, or digits that begin with another. -/
def readWhole (cs : List Char) : Option (List Char × Rest) :=
  match readDigits cs with
  | some (digits, rest) =>
    if digits.head? = some '0' ∧ digits ≠ ['0'] then none else some (digits, rest)
  | none => none

/-- Reads a point and the digits behind it, if there is a point. -/
def readFraction : List Char → Option (List Char × Rest)
  | '.' :: cs => (readDigits cs).map fun (digits, rest) => ('.' :: digits, rest)
  | cs => some ([], cs)

/-- Reads an exponent, if there is one. -/
def readExponent : List Char → Option (List Char × Rest)
  | e :: cs =>
    if e = 'e' ∨ e = 'E' then
      match cs with
      | sign :: digits =>
        if sign = '+' ∨ sign = '-' then
          (readDigits digits).map fun (digits, rest) => (e :: sign :: digits, rest)
        else (readDigits cs).map fun (digits, rest) => (e :: digits, rest)
      | [] => none
    else some ([], e :: cs)
  | [] => some ([], [])

def readNumber (cs : List Char) : Option (JsonValue × Rest) := do
  let (sign, cs) : List Char × Rest := match cs with
    | '-' :: cs => (['-'], cs)
    | cs => ([], cs)
  let (whole, cs) ← readWhole cs
  let (fraction, cs) ← readFraction cs
  let (exponent, cs) ← readExponent cs
  return (number (String.ofList (sign ++ whole ++ fraction ++ exponent)), cs)

/-! ### Values -/

def readWord (word : String) (value : JsonValue) (cs : List Char) : Option (JsonValue × Rest) :=
  if word.toList.isPrefixOf cs then some (value, cs.drop word.length) else none

mutual

def readValue : Nat → List Char → Option (JsonValue × Rest)
  | 0, _ => none
  | fuel + 1, cs =>
    match skipBlanks cs with
    | '"' :: cs => (readString cs).map fun (text, rest) => (string text, rest)
    | '[' :: cs =>
      match expect? ']' cs with
      | some rest => some (array [], rest)
      | none => (readItems fuel cs).map fun (items, rest) => (array items, rest)
    | '\x7b' :: cs =>
      match expect? '\x7d' cs with
      | some rest => some (object [], rest)
      | none => (readMembers fuel cs).map fun (members, rest) => (object members, rest)
    | 't' :: cs => readWord "rue" (bool true) cs
    | 'f' :: cs => readWord "alse" (bool false) cs
    | 'n' :: cs => readWord "ull" null cs
    | cs => readNumber cs

/-- Reads the items of an array up to its closing bracket. -/
def readItems : Nat → List Char → Option (List JsonValue × Rest)
  | 0, _ => none
  | fuel + 1, cs => do
    let (item, cs) ← readValue fuel cs
    match expect? ',' cs with
    | some cs =>
      let (items, cs) ← readItems fuel cs
      return (item :: items, cs)
    | none => return ([item], ← expect? ']' cs)

/-- Reads the members of an object up to its closing brace. -/
def readMembers : Nat → List Char → Option (List (Option String × JsonValue) × Rest)
  | 0, _ => none
  | fuel + 1, cs => do
    let (key, cs) ← readString (← expect? '"' cs)
    let (value, cs) ← readValue fuel (← expect? ':' cs)
    match expect? ',' cs with
    | some cs =>
      let (members, cs) ← readMembers fuel cs
      return ((key, value) :: members, cs)
    | none => return ([(key, value)], ← expect? '\x7d' cs)

end

/-- Reads a text that holds one value and nothing else.  Every second call of the reader takes a
character away, so twice the length of the text bounds the depth of the calls. -/
def parse? (text : String) : Option JsonValue := do
  let cs := text.toList
  let (value, rest) ← readValue (2 * cs.length + 2) cs
  if (skipBlanks rest).isEmpty then return value else none

end ServerSentEvents.JsonValue
