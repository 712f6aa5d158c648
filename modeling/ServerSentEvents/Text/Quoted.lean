import ServerSentEvents.Text.Unseen

/-!
# Quoted text

Messages show a text between double quotes: quotes and backslashes behind a backslash, the four
common controls by a letter, and every other character that would not be seen as itself by its
number in hexadecimal.
-/

namespace ServerSentEvents.Text

/-- One character as it stands between quotes. -/
def quoteChar (c : Char) : List Char :=
  match c with
  | '"' => ['\\', '"']
  | '\\' => ['\\', '\\']
  | '\n' => ['\\', 'n']
  | '\r' => ['\\', 'r']
  | '\t' => ['\\', 't']
  | '\x00' => ['\\', '0']
  | _ =>
    if isUnseen c then ['\\', 'u', '\x7b'] ++ Nat.toDigits 16 c.toNat ++ ['\x7d'] else [c]

def quote (text : String) : String :=
  String.ofList ('"' :: text.toList.flatMap quoteChar ++ ['"'])

end ServerSentEvents.Text
