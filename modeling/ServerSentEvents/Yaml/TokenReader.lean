import ServerSentEvents.Yaml.Escape
import ServerSentEvents.Yaml.Gap
import ServerSentEvents.Yaml.Token

/-!
# Reading tokens

A text is read one character at a time, with a look at the characters after it.  The reader keeps
the columns of the block collections that are open, because indentation begins and ends them, and
the last token that would be a key if a colon followed, because the mark of a key stands before the
key.  Anchors, aliases, tags, directives and block scalars are refused.
-/

namespace ServerSentEvents.Yaml

/-! ### Keys -/

/-- A token that would be a key if a colon followed. -/
structure KeyCandidate where
  /-- How many tokens stand before it. -/
  place : Nat
  /-- Whether nothing but a key can stand where it does. -/
  isNeeded : Bool
  position : Position
  deriving DecidableEq, Repr

namespace KeyCandidate

/-- How many characters there may be from the start of a key to its colon. -/
def reach : Nat :=
  1024

/-- Whether a colon at a position comes in time: on the same line and not too far away. -/
def reaches (k : KeyCandidate) (p : Position) : Bool :=
  k.position.line == p.line && p.column ≤ k.position.column + reach

end KeyCandidate

/-! ### The reader -/

/-- The two kinds of quotes. -/
inductive Quote where
  | single
  | double
  deriving DecidableEq, Repr

/-- What a reader is in the middle of. -/
inductive TokenReader.Mode where
  | between
  | comment
  /-- So many characters of a mark are still to come. -/
  | mark (left : Nat)
  /-- The reader is in a plain scalar, or in the gap after a word of it. -/
  | plain (text : String) (gap : Gap)
  /-- The reader is in a quoted scalar, or in the gap after a word of it. -/
  | quoted (quote : Quote) (text : String) (gap : Gap) (escape : Escape)

/-- A reader of tokens. -/
structure TokenReader where
  /-- Where the character stands that is being read. -/
  position : Position := {}
  /-- Where the character after it stands. -/
  ahead : Position := {}
  tokens : Array Token := #[]
  /-- The columns of the open block collections, the innermost first. -/
  columns : List Nat := []
  /-- The key candidate inside the innermost open bracket. -/
  candidate? : Option KeyCandidate := none
  /-- The key candidate outside of each open bracket, the innermost bracket first. -/
  outer : List (Option KeyCandidate) := []
  /-- Whether a token that begins now may be a key. -/
  mayBeKey : Bool := true
  /-- What the reader was in the middle of before the character that is being read. -/
  mode : TokenReader.Mode := .between

namespace TokenReader

/-- Whether a bracket is open.  Then indentation means nothing. -/
def inBrackets (r : TokenReader) : Bool :=
  !r.outer.isEmpty

/-- The first column inside the innermost block collection. -/
def depth (r : TokenReader) : Nat :=
  match r.columns with
  | [] => 0
  | column :: _ => column + 1

def push (r : TokenReader) (token : Token) : TokenReader :=
  { r with tokens := r.tokens.push token }

/-- Begins a block collection at a column, if that column is inside the innermost one.  Its token
goes to a place among the tokens. -/
def enter (r : TokenReader) (column place : Nat) (token : Token) : TokenReader :=
  if r.inBrackets || column < r.depth then r
  else
    { r with
      columns := column :: r.columns
      tokens := r.tokens.insertIdxIfInBounds place token }

/-- Ends so many of the innermost block collections. -/
def leaveInner (r : TokenReader) (count : Nat) : TokenReader :=
  if r.inBrackets then r
  else
    { r with
      columns := r.columns.drop count
      tokens := r.tokens ++ Array.replicate count Token.blockEnd }

/-- Ends the block collections that begin after a column. -/
def leave (r : TokenReader) (column : Nat) : TokenReader :=
  r.leaveInner (r.columns.takeWhile (column < ·)).length

def leaveAll (r : TokenReader) : TokenReader :=
  r.leaveInner r.columns.length

/-- Gives up the key candidate, unless it is needed. -/
def giveUp (r : TokenReader) : Option TokenReader :=
  if (r.candidate?.map (·.isNeeded)).getD false then none else some { r with candidate? := none }

/-- Gives up the key candidate if the position has left it behind. -/
def await (r : TokenReader) : Option TokenReader :=
  if (r.candidate?.map (·.reaches r.position)).getD true then some r else r.giveUp

/-- Makes the next token a key candidate, if it may be a key.  At the column of the innermost block
collection it has to be one. -/
def offer (r : TokenReader) : Option TokenReader :=
  if r.mayBeKey then
    r.giveUp.map fun r =>
      { r with
        candidate? := some
          { place := r.tokens.size
            isNeeded := !r.inBrackets && r.depth == r.position.column + 1
            position := r.position } }
  else some r

/-! ### Marks -/

def markDocument (r : TokenReader) (token : Token) : Option TokenReader :=
  r.leaveAll.giveUp.map fun r => { r with mayBeKey := false, mode := .mark 2 }.push token

def openWith (r : TokenReader) (token : Token) : Option TokenReader :=
  r.offer.map fun r =>
    { r with outer := r.candidate? :: r.outer, candidate? := none, mayBeKey := true }.push token

/-- Closes a bracket.  What it encloses may be a key. -/
def closeWith (r : TokenReader) (token : Token) : Option TokenReader :=
  r.giveUp.map fun r =>
    match r.outer with
    | [] => { r with mayBeKey := false }.push token
    | candidate? :: outer => { r with candidate?, outer, mayBeKey := false }.push token

def separate (r : TokenReader) : Option TokenReader :=
  r.giveUp.map fun r => { r with mayBeKey := true }.push .comma

/-- Begins an entry of a block collection with a mark.  Outside of brackets such a mark stands where
a key may stand. -/
def beginEntry (r : TokenReader) (collection token : Token) (mayBeKey : Bool) :
    Option TokenReader :=
  if r.inBrackets || r.mayBeKey then
    (r.enter r.position.column r.tokens.size collection).giveUp.map fun r =>
      { r with mayBeKey }.push token
  else none

/-- Begins a value.  If there is a key candidate, it is the value's key, and no other key follows on
the line. -/
def beginValue (r : TokenReader) : Option TokenReader :=
  match r.candidate? with
  | some k =>
    let r := { r with
      tokens := r.tokens.insertIdxIfInBounds k.place Token.key
      candidate? := none
      mayBeKey := false }
    some ((r.enter k.position.column k.place .blockMapping).push .value)
  | none => r.beginEntry .blockMapping .value !r.inBrackets

/-! ### Scalars -/

def beginScalar (r : TokenReader) (mode : Mode) : Option TokenReader :=
  r.offer.map fun r => { r with mayBeKey := false, mode }

/-- Ends a plain scalar.  If the line has ended since its last word, a key may follow. -/
def endPlain (r : TokenReader) (text : String) (gap : Gap) : TokenReader :=
  { r with mayBeKey := r.mayBeKey || gap.crossed }.push (.scalar (.plain text))

/-- The characters that separate what is in brackets. -/
def isSeparator (c : Char) : Bool :=
  [',', '[', ']', '\x7b', '\x7d'].contains c

/-- The other characters that begin no plain scalar. -/
def isReserved (c : Char) : Bool :=
  ['#', '&', '*', '!', '|', '>', '%', '@', '\u0060'].contains c

/-- Whether a document begins or ends here. -/
def atDocumentMark (r : TokenReader) (cs : List Char) : Bool :=
  r.position.column == 0 && (documentMark? cs).isSome

/-- Whether a plain scalar is over before a character.  It is over at the first word that is not
indented enough, that would be a comment or that is the mark of a document, and otherwise at a colon
that keeps apart from what follows, or inside brackets at a separator. -/
def isPlainOver (r : TokenReader) (gap : Gap) (c : Char) (cs : List Char) : Bool :=
  (!gap.isEmpty &&
    ((!r.inBrackets && r.position.column < r.depth) || c == '#' || r.atDocumentMark (c :: cs))) ||
  (c == ':' && isApart cs) || (r.inBrackets && isSeparator c)

/-- Whether a colon stands where a value in brackets would have to keep apart from it. -/
def isStrayColon (r : TokenReader) (c : Char) (cs : List Char) : Bool :=
  r.inBrackets && c == ':' && (cs.head?.map fun d => isSeparator d || d == '?').getD false

/-! ### One character -/

/-- Begins the token that starts with a character. -/
def beginToken (r : TokenReader) (c : Char) (cs : List Char) : Option TokenReader := do
  let r ← r.await
  let r := r.leave r.position.column
  if r.atDocumentMark (c :: cs) then r.markDocument (← documentMark? (c :: cs))
  else if c = '[' then r.openWith .openBracket
  else if c = '\x7b' then r.openWith .openBrace
  else if c = ']' then r.closeWith .closeBracket
  else if c = '\x7d' then r.closeWith .closeBrace
  else if c = ',' then r.separate
  else if c = '-' ∧ isApart cs then r.beginEntry .blockSequence .item true
  else if c = '?' ∧ (r.inBrackets || isApart cs) then
    r.beginEntry .blockMapping .key !r.inBrackets
  else if c = ':' ∧ (r.inBrackets || isApart cs) then r.beginValue
  else if c = '\'' then r.beginScalar (.quoted .single "" {} .none)
  else if c = '"' then r.beginScalar (.quoted .double "" {} .none)
  else if isReserved c ∨ isBlank c then none
  else r.beginScalar (.plain c.toString {})

/-- Reads a character between tokens.  A byte order mark may begin any line.  A tab may not stand
where a key may begin. -/
def readBetween (r : TokenReader) (c : Char) (cs : List Char) : Option TokenReader :=
  if c = '\ufeff' ∧ r.position.column = 0 then some r
  else if c = ' ' ∨ (c = '\t' ∧ (r.inBrackets || !r.mayBeKey)) then some r
  else if c = '#' then some { r with mode := .comment }
  else if isBreak c then some { r with mayBeKey := r.mayBeKey || !r.inBrackets }
  else r.beginToken c cs

/-- Reads a character in a plain scalar or after it.  On a further line of the scalar a tab may not
be part of the indentation.  Where the scalar is over, the reader is between tokens. -/
def readPlain (r : TokenReader) (text : String) (gap : Gap) (c : Char) (cs : List Char) :
    Option TokenReader :=
  if isSpace c then
    if c = '\t' ∧ gap.crossed ∧ r.position.column < r.depth then none
    else some { r with mode := .plain text (gap.push c) }
  else if r.isPlainOver gap c cs then (r.endPlain text gap).readBetween c cs
  else if r.isStrayColon c cs then none
  else some { r with mode := .plain ((text ++ gap.text).push c) {} }

/-- Reads a character in a quoted scalar, outside of escapes.  No document begins or ends there. -/
def readQuoted (r : TokenReader) (quote : Quote) (text : String) (gap : Gap) (c : Char)
    (cs : List Char) : Option TokenReader :=
  if r.atDocumentMark (c :: cs) then none
  else if isSpace c then some { r with mode := .quoted quote text (gap.push c) .none }
  else
    let text := text ++ gap.text
    match quote, c with
    | .single, '\'' =>
      if cs.head? = some '\'' then some { r with mode := .quoted quote text {} .opened }
      else some (r.push (.scalar (.quoted text)))
    | .double, '"' => some (r.push (.scalar (.quoted text)))
    | .double, '\\' => some { r with mode := .quoted quote text {} .opened }
    | _, _ => some { r with mode := .quoted quote (text.push c) {} .none }

/-- Reads a character in an escape.  In single quotes the only escape is a second quote. -/
def readEscape (r : TokenReader) (quote : Quote) (text : String) (escape : Escape) (c : Char) :
    Option TokenReader :=
  match quote, escape with
  | .double, .opened =>
    if isBreak c then some { r with mode := .quoted quote text .escaped .none }
    else
      match escapeWidth? c with
      | some width => some { r with mode := .quoted quote text {} (.digits width 0) }
      | none =>
        (escaped? c).map fun named => { r with mode := .quoted quote (text.push named) {} .none }
  | .double, .digits left code => do
    let code := 16 * code + (← YamlNode.digit? 16 c)
    if left ≤ 1 then
      let named ← charOfCode? code
      return { r with mode := .quoted quote (text.push named) {} .none }
    else return { r with mode := .quoted quote text {} (.digits (left - 1) code) }
  | _, _ => some { r with mode := .quoted quote (text.push c) {} .none }

/-- Reads one character, given those after it. -/
def step (r : TokenReader) (c : Char) (cs : List Char) : Option TokenReader :=
  let mode := r.mode
  let r := { r with position := r.ahead, ahead := r.ahead.after c, mode := .between }
  match mode with
  | .between => r.readBetween c cs
  | .comment => if isBreak c then r.readBetween c cs else some { r with mode := .comment }
  | .mark left => some (if left ≤ 1 then r else { r with mode := .mark (left - 1) })
  | .plain text gap => r.readPlain text gap c cs
  | .quoted quote text gap .none => r.readQuoted quote text gap c cs
  | .quoted quote text _ escape => r.readEscape quote text escape c

/-! ### A whole text -/

def run (r : TokenReader) : List Char → Option TokenReader
  | [] => some r
  | c :: cs =>
    match r.step c cs with
    | none => none
    | some r => r.run cs

/-- Ends a text.  No quoted scalar and no needed key may be left open. -/
def close (r : TokenReader) : Option (Array Token) := do
  let r := { r with position := r.ahead }
  let r ← match r.mode with
    | .between | .comment => some r
    | .plain text gap => some (r.endPlain text gap)
    | _ => none
  let r ← (← r.await).leaveAll.giveUp
  return r.tokens

end TokenReader

def Token.ofText? (text : String) : Option (Array Token) :=
  let cs := text.toList
  if cs.all isAllowed then (({} : TokenReader).run (unifyBreaks cs)).bind (·.close) else none

end ServerSentEvents.Yaml
