import ServerSentEvents.Yaml.Token

/-!
# Documents under construction

A document is put together from its tokens in order.  What has begun and not ended is a stack of
collections, each with the place that the next node takes in it.  A node may be left out where the
token after it shows that it is missing; a plain scalar without text stands for it.
-/

namespace ServerSentEvents.Yaml

/-- The shapes of collections. -/
inductive Shape where
  | blockSequence
  /-- A block sequence in a mapping's entry, no further in than the mapping itself.  It has no end
  of its own. -/
  | flushSequence
  | blockMapping
  | brackets
  | braces
  deriving DecidableEq, Repr

/-- The place in a collection that comes next. -/
inductive Slot where
  /-- No node comes next, but a mark. -/
  | ready
  /-- An item, or an entry in braces. -/
  | node
  | key
  /-- The colon after a key. -/
  | colon (key : YamlNode)
  | value (key : YamlNode)

/-- A collection that has not ended.  A sequence has items and a mapping has entries, both with the
last one first. -/
structure OpenCollection where
  shape : Shape
  slot : Slot
  items : List YamlNode := []
  entries : List (YamlNode × YamlNode) := []

namespace OpenCollection

/-- The node that is left out. -/
def missing : YamlNode :=
  .plain ""

/-- Adds an entry.  In a sequence it is an item of its own. -/
def addEntry (o : OpenCollection) (key value : YamlNode) : OpenCollection :=
  match o.shape with
  | .blockMapping | .braces => { o with slot := .ready, entries := (key, value) :: o.entries }
  | _ => { o with slot := .ready, items := .mapping [(key, value)] :: o.items }

/-- Puts a node into the place that comes next. -/
def put? (o : OpenCollection) (node : YamlNode) : Option OpenCollection :=
  match o.slot with
  | .ready | .colon _ => none
  | .node =>
    if o.shape = .braces then some (o.addEntry node missing)
    else some { o with slot := .ready, items := node :: o.items }
  | .key => some { o with slot := .colon node }
  | .value key => some (o.addEntry key node)

def toNode (o : OpenCollection) : YamlNode :=
  match o.shape with
  | .blockMapping | .braces => .mapping o.entries.reverse
  | _ => .sequence o.items.reverse

/-- Whether a token shows that the node in front of it is left out. -/
def skips (o : OpenCollection) (token : Token) : Bool :=
  match o.shape, o.slot, token with
  | .blockSequence, .node, .item | .blockSequence, .node, .blockEnd => true
  | .flushSequence, .node, .item | .flushSequence, .node, .key
  | .flushSequence, .node, .value | .flushSequence, .node, .blockEnd => true
  | .blockMapping, .key, .key | .blockMapping, .key, .value | .blockMapping, .key, .blockEnd => true
  | .blockMapping, .value _, .key | .blockMapping, .value _, .value
  | .blockMapping, .value _, .blockEnd => true
  | .braces, .key, .value | .braces, .key, .comma | .braces, .key, .closeBrace => true
  | .braces, .value _, .comma | .braces, .value _, .closeBrace => true
  | .brackets, .value _, .comma | .brackets, .value _, .closeBracket => true
  | _, _, _ => false

/-- Puts in what a token shows to be left out: a node, and the value of a key without a colon. -/
def settle (o : OpenCollection) (token : Token) : OpenCollection :=
  let o := if o.skips token then (o.put? missing).getD o else o
  match o.slot, token with
  | .colon _, .value => o
  | .colon key, _ => o.addEntry key missing
  | _, _ => o

end OpenCollection

/-- How much of a document there is. -/
inductive Root where
  | absent
  | begun
  | whole (node : YamlNode)

/-- A document that has not ended. -/
structure OpenDocument where
  root : Root := .absent
  /-- The collections that have not ended, the innermost first. -/
  collections : List OpenCollection := []

namespace OpenDocument

/-- Puts a node where one is expected. -/
def put? (d : OpenDocument) (node : YamlNode) : Option OpenDocument :=
  match d.collections with
  | [] =>
    match d.root with
    | .whole _ => none
    | _ => some { d with root := .whole node }
  | o :: outer => (o.put? node).map fun o => { d with collections := o :: outer }

/-- Begins a collection where a node is expected. -/
def begin? (d : OpenDocument) (shape : Shape) (slot : Slot) : Option OpenDocument :=
  (d.put? OpenCollection.missing).map fun _ =>
    { d with collections := { shape, slot } :: d.collections }

def end? (d : OpenDocument) : Option OpenDocument :=
  match d.collections with
  | [] => none
  | o :: outer => { d with collections := outer }.put? o.toNode

/-- Puts in what a token shows to be left out in the innermost collection. -/
def settleInner (d : OpenDocument) (token : Token) : OpenDocument :=
  match d.collections, d.root, token with
  | [], .begun, .documentStart | [], .begun, .documentEnd =>
    { d with root := .whole OpenCollection.missing }
  | [], _, _ => d
  | o :: outer, _, _ => { d with collections := o.settle token :: outer }

/-- Whether a token ends a sequence that has no end of its own. -/
def endsFlush (d : OpenDocument) (token : Token) : Bool :=
  match d.collections, token with
  | _, .item => false
  | { shape := .flushSequence, slot := .ready, .. } :: _, _ => true
  | _, _ => false

/-- Puts in all that a token shows to be left out before it. -/
def settle (d : OpenDocument) (token : Token) : Option OpenDocument :=
  let d := d.settleInner token
  if d.endsFlush token then d.end?.map (·.settleInner token) else some d

/-- Moves the innermost collection to another place in it. -/
def move (d : OpenDocument) (o : OpenCollection) (outer : List OpenCollection) (slot : Slot) :
    OpenDocument :=
  { d with collections := { o with slot } :: outer }

/-- Takes in a mark that stands inside collections. -/
def readMark (d : OpenDocument) (token : Token) : Option OpenDocument :=
  match d.collections with
  | [] => none
  | o :: outer =>
    match token, o.shape, o.slot with
    | .item, .blockSequence, .ready | .item, .flushSequence, .ready => some (d.move o outer .node)
    | .item, .blockMapping, .key | .item, .blockMapping, .value _ => d.begin? .flushSequence .node
    | .key, .blockMapping, .ready => some (d.move o outer .key)
    | .key, .brackets, .node | .key, .braces, .node => some (d.move o outer .key)
    | .value, _, .colon key => some (d.move o outer (.value key))
    | .comma, .brackets, .ready | .comma, .braces, .ready => some (d.move o outer .node)
    | .closeBracket, .brackets, .ready | .closeBracket, .brackets, .node => d.end?
    | .closeBrace, .braces, .ready | .closeBrace, .braces, .node => d.end?
    | .blockEnd, .blockSequence, .ready | .blockEnd, .blockMapping, .ready => d.end?
    | _, _, _ => none

def step (d : OpenDocument) (token : Token) : Option OpenDocument := do
  let d ← d.settle token
  match token with
  | .scalar node => d.put? node
  | .blockSequence => d.begin? .blockSequence .ready
  | .blockMapping => d.begin? .blockMapping .ready
  | .openBracket => d.begin? .brackets .node
  | .openBrace => d.begin? .braces .node
  | .documentStart =>
    match d.root, d.collections with
    | .absent, [] => some { d with root := .begun }
    | _, _ => none
  | .documentEnd =>
    match d.root, d.collections with
    | .whole _, [] => some d
    | _, _ => none
  | mark => d.readMark mark

def close (d : OpenDocument) : Option YamlNode :=
  match d.collections, d.root with
  | [], .whole node => some node
  | [], _ => some OpenCollection.missing
  | _, _ => none

end OpenDocument

end ServerSentEvents.Yaml
