import ServerSentEvents.Yaml.Text

/-!
# Gaps inside scalars

A scalar may go on after blanks, and on further lines.  The space between two of its words is a gap,
and what a gap contributes to the scalar's value depends on the line ends in it: one alone becomes a
space, further ones are kept, and the blanks around line ends are dropped.
-/

namespace ServerSentEvents.Yaml

/-- The space since the last word of a scalar. -/
structure Gap where
  /-- The blanks, as long as no line has ended. -/
  blanks : String := ""
  crossed : Bool := false
  /-- The first end of a line, unless a backslash stands before it. -/
  first? : Option Char := none
  later : String := ""
  deriving DecidableEq, Repr

namespace Gap

/-- A gap that begins with an escaped end of a line. -/
def escaped : Gap where
  crossed := true

/-- Whether there is no gap at all. -/
def isEmpty (g : Gap) : Bool :=
  g.blanks.isEmpty && !g.crossed

def push (g : Gap) (c : Char) : Gap :=
  if isBreak c then
    if g.crossed then { g with later := g.later.push c }
    else { crossed := true, first? := some c }
  else if g.crossed then g
  else { g with blanks := g.blanks.push c }

/-- What a gap contributes to the value of the scalar around it. -/
def text (g : Gap) : String :=
  if g.crossed then
    match g.first? with
    | some '\n' => if g.later.isEmpty then " " else g.later
    | some c => c.toString ++ g.later
    | none => g.later
  else g.blanks

end Gap

end ServerSentEvents.Yaml
