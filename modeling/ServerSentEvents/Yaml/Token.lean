import ServerSentEvents.Yaml.Node
import ServerSentEvents.Yaml.Text

/-!
# YAML tokens

A document as a list of scalars and marks.  Some marks stand in the text, others stand for its
layout: where a block collection begins and ends, and that a scalar or a collection in brackets is a
key because a colon follows it.
-/

namespace ServerSentEvents.Yaml

/-- A scalar or a mark. -/
inductive Token where
  | scalar (node : YamlNode)
  | blockSequence
  | blockMapping
  | blockEnd
  | item
  | key
  | value
  | openBracket
  | closeBracket
  | openBrace
  | closeBrace
  | comma
  | documentStart
  | documentEnd
  deriving Inhabited

/-- The mark of a document's beginning or end with which a text begins.  Such a mark keeps apart
from what follows. -/
def documentMark? : List Char → Option Token
  | '-' :: '-' :: '-' :: rest => if isApart rest then some .documentStart else none
  | '.' :: '.' :: '.' :: rest => if isApart rest then some .documentEnd else none
  | _ => none

end ServerSentEvents.Yaml
