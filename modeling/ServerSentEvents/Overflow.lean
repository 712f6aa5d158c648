import ServerSentEvents.Bytes
import ServerSentEvents.Text.Blank

/-!
# What becomes of an oversized line

The policy is asked once for each line that outgrows the limit, with the bytes read so far, and its
disposition holds until the line ends.  A policy has a name, and two further spellings that
configuration files may use; on the command line it may be spelled more freely.
-/

namespace ServerSentEvents

/-- The policies for oversized lines. -/
inductive OverflowPolicy where
  | failStream
  | logAndSkip
  | truncate
  | deadLetter
  deriving DecidableEq, Repr

/-- What is done with one oversized line. -/
inductive Disposition where
  | abort
  /-- The line is read and forgotten. -/
  | drop
  /-- So many of its first bytes stay. -/
  | truncate (length : Nat)
  /-- The line is collected for the diagnostic, these bytes first. -/
  | reroute (bytes : Bytes)
  deriving DecidableEq, Repr

namespace OverflowPolicy

/-- Every policy, in the order of its declaration. -/
def all : List OverflowPolicy :=
  [.failStream, .logAndSkip, .truncate, .deadLetter]

theorem mem_all (policy : OverflowPolicy) : policy ∈ all := by
  cases policy <;> decide

/-- The policy where none is named. -/
instance : Inhabited OverflowPolicy := ⟨.failStream⟩

/-- The disposition for a line of which `head` has been read. -/
def disposition (policy : OverflowPolicy) (head : Bytes) : Disposition :=
  match policy with
  | .failStream => .abort
  | .logAndSkip => .drop
  | .truncate => .truncate head.length
  | .deadLetter => .reroute head

/-- The name of a policy, its words joined by underscores. -/
def name : OverflowPolicy → String
  | .failStream => "fail_stream"
  | .logAndSkip => "log_and_skip"
  | .truncate => "truncate"
  | .deadLetter => "dead_letter"

/-- The name with dashes between its words. -/
def dashedName : OverflowPolicy → String
  | .failStream => "fail-stream"
  | .logAndSkip => "log-and-skip"
  | .truncate => "truncate"
  | .deadLetter => "dead-letter"

/-- The name with its words capitalised and joined. -/
def capitalName : OverflowPolicy → String
  | .failStream => "FailStream"
  | .logAndSkip => "LogAndSkip"
  | .truncate => "Truncate"
  | .deadLetter => "DeadLetter"

/-- The spellings of a policy in configuration files. -/
def spellings (policy : OverflowPolicy) : List String :=
  [policy.name, policy.dashedName, policy.capitalName]

def ofSpelling? (text : String) : Option OverflowPolicy :=
  all.find? fun policy => policy.spellings.contains text

/-- Underscores and dashes join words and mean nothing. -/
def isJoiner (c : Char) : Bool :=
  c == '_' || c == '-'

/-- The letters of a policy's name. -/
def letters (policy : OverflowPolicy) : List Char :=
  policy.name.toList.filter (!isJoiner ·)

/-- The policy that a text names when white space around it, then joiners anywhere inside, and then
the case of the letters A to Z are left out of account. -/
def ofText? (text : String) : Option OverflowPolicy :=
  let key := ((Text.trim text.toList).filter (!isJoiner ·)).map Char.toLower
  all.find? fun policy => policy.letters == key

end OverflowPolicy

end ServerSentEvents
