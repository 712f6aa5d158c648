import ServerSentEvents.Text.Decimal

/-!
# JSON values and their compact text

A number is kept as it was written, and an object keeps its members in order, equal keys included,
so that each reader of a value decides for itself what it accepts.
-/

namespace ServerSentEvents

/-- A JSON value.  The text of a string or key is `none` if an escape in it names one half of a
surrogate pair without the other: such a literal is well formed and denotes no text. -/
inductive JsonValue where
  | null
  | bool (value : Bool)
  | number (literal : String)
  | string (text : Option String)
  | array (items : List JsonValue)
  | object (members : List (Option String × JsonValue))

namespace JsonValue

def ofString (text : String) : JsonValue :=
  string (some text)

/-- A number without sign, fraction and exponent. -/
def ofNat (n : Nat) : JsonValue :=
  number (toString n)

/-- An object with these members, those without a value left out. -/
def ofFields (fields : List (String × Option JsonValue)) : JsonValue :=
  object (fields.filterMap fun field => field.2.map fun value => (some field.1, value))

/-- The value of a number below `bound` that is written with digits alone. -/
def toNat? (bound : Nat) : JsonValue → Option Nat
  | number literal => (Decimal.ofChars? literal.toList).filter (· < bound)
  | _ => none

/-- The text of a string that has one. -/
def text? : JsonValue → Option String
  | string text => text
  | _ => none

/-- The value of a key that may be missing: `none` if the key comes more than once. -/
def member? (key : String) (members : List (Option String × JsonValue)) :
    Option (Option JsonValue) :=
  match members.filter (·.1 == some key) with
  | [] => some none
  | [found] => some (some found.2)
  | _ => none

/-- One character of a string literal: quotes, backslashes and controls are escaped. -/
def escapeChar (c : Char) : List Char :=
  match c with
  | '"' => ['\\', '"']
  | '\\' => ['\\', '\\']
  | '\x08' => ['\\', 'b']
  | '\x0c' => ['\\', 'f']
  | '\n' => ['\\', 'n']
  | '\r' => ['\\', 'r']
  | '\t' => ['\\', 't']
  | _ =>
    if c.toNat < 0x20 then
      ['\\', 'u', '0', '0', Nat.digitChar (c.toNat / 16), Nat.digitChar (c.toNat % 16)]
    else [c]

def literal (text : String) : List Char :=
  '"' :: (text.toList.flatMap escapeChar ++ ['"'])

mutual

def compactChars : JsonValue → List Char
  | null => "null".toList
  | bool true => "true".toList
  | bool false => "false".toList
  | number literal => literal.toList
  | string text => literal (text.getD "")
  | array items => '[' :: (compactItems items ++ [']'])
  | object members => '\x7b' :: (compactMembers members ++ ['\x7d'])

/-- The items of an array, commas between them. -/
def compactItems : List JsonValue → List Char
  | [] => []
  | [item] => compactChars item
  | item :: items => compactChars item ++ ',' :: compactItems items

/-- The members of an object, commas between them. -/
def compactMembers : List (Option String × JsonValue) → List Char
  | [] => []
  | [(key, value)] => literal (key.getD "") ++ ':' :: compactChars value
  | (key, value) :: members =>
    literal (key.getD "") ++ ':' :: (compactChars value ++ ',' :: compactMembers members)

end

/-- The compact text of a value, without blanks. -/
def compact (value : JsonValue) : String :=
  String.ofList value.compactChars

end JsonValue

end ServerSentEvents
