import ServerSentEvents.Text.Decimal

/-!
# YAML nodes

A settings file is a tree of scalars, sequences and mappings.  Whether a scalar was quoted decides
what it may stand for: only a plain one can be a number or nothing at all.
-/

namespace ServerSentEvents

/-- A node of a document. -/
inductive YamlNode where
  | plain (text : String)
  | quoted (text : String)
  | sequence (items : List YamlNode)
  /-- The entries stand in order, equal keys included. -/
  | mapping (entries : List (YamlNode × YamlNode))
  deriving Inhabited

namespace YamlNode

def text? : YamlNode → Option String
  | plain text => some text
  | quoted text => some text
  | _ => none

def isNull : YamlNode → Bool
  | plain text => ["", "~", "null", "Null", "NULL"].contains text
  | _ => false

/-- The entries of a mapping.  A node that is left out altogether is a mapping without entries. -/
def entries? : YamlNode → Option (List (YamlNode × YamlNode))
  | mapping entries => some entries
  | plain "" => some []
  | _ => none

/-- The value of a digit in bases up to sixteen. -/
def digit? (base : Nat) (c : Char) : Option Nat :=
  let value :=
    if '0' ≤ c ∧ c ≤ '9' then some (c.toNat - 0x30)
    else if 'a' ≤ c ∧ c ≤ 'f' then some (c.toNat - 0x57)
    else if 'A' ≤ c ∧ c ≤ 'F' then some (c.toNat - 0x37)
    else none
  value.filter (· < base)

/-- The value of a numeral in a base. -/
def readBase? (base : Nat) : List Char → Option Nat
  | [] => none
  | cs => cs.foldlM (fun n c => (digit? base c).map (base * n + ·)) 0

/-- The value of a number without sign, or with a plus sign.  The base is ten, or sixteen, eight or
two behind `0x`, `0o` or `0b`; a decimal number of several digits does not begin with a zero. -/
def number? (cs : List Char) : Option Nat :=
  let unsigned := match cs with
    | '+' :: rest => rest
    | rest => rest
  match unsigned with
  | '0' :: 'x' :: digits => readBase? 16 digits
  | '0' :: 'o' :: digits => readBase? 8 digits
  | '0' :: 'b' :: digits => readBase? 2 digits
  | '0' :: _ :: _ => none
  | digits => readBase? 10 digits

/-- The number below `bound` that a plain scalar stands for. -/
def toNat? (bound : Nat) : YamlNode → Option Nat
  | plain text => (number? text.toList).filter (· < bound)
  | _ => none

/-- The value of a key that may be missing: `none` if the key comes more than once. -/
def member? (key : String) (entries : List (YamlNode × YamlNode)) : Option (Option YamlNode) :=
  match entries.filter (·.1.text? == some key) with
  | [] => some none
  | [found] => some (some found.2)
  | _ => none

end YamlNode

end ServerSentEvents
