import ServerSentEvents.Channel
import ServerSentEvents.Disk
import ServerSentEvents.Log
import ServerSentEvents.Text.Decimal

/-!
# Dead letters

Rerouted lines are stored in a directory, one file to a line, named by the line's number.  Every
diagnostic that arrives is logged, also those that leave nothing to store.  The first failure ends
the storing.
-/

namespace ServerSentEvents

/-- Why dead letters could not be stored. -/
inductive DeadLetterError where
  | createDirectory (path : String)
  | write (path : String)
  deriving DecidableEq, Repr

def DeadLetterError.message : DeadLetterError → String
  | .createDirectory path => "failed to create dead-letter directory " ++ path
  | .write path => "failed to write " ++ path

namespace DeadLetter

/-- The channel to the writer. -/
def queue : Channel where
  capacity := 1024
  capacity_pos := by decide

/-- The name of the file for a line. -/
def letterName (lineNumber : Nat) : String :=
  "line-" ++ Decimal.padded 10 lineNumber ++ ".bin"

/-- The path of a file in a directory. -/
def joinPath (directory name : String) : String :=
  if directory.isEmpty ∨ directory.toList.getLast? = some '/' then directory ++ name
  else directory ++ "/" ++ name

/-- The path of the file for a line. -/
def path (directory : String) (lineNumber : Nat) : String :=
  joinPath directory (letterName lineNumber)

/-- What a diagnostic leaves to be stored. -/
def letter? (d : Diagnostic) : Option Bytes :=
  if d.policy = .deadLetter then d.bytes else none

/-- What is logged when a diagnostic arrives. -/
def arrival (d : Diagnostic) : LogRecord :=
  .oversizedLine d.policy d.lineNumber d.lineLength none

/-- What the writer has done so far. -/
structure Progress where
  tree : FileTree
  written : Nat := 0
  log : Array LogRecord := #[]
  error? : Option DeadLetterError := none

namespace Progress

/-- The writer begins once its directory has been made, or could not be. -/
def start (directory : String) (tree : FileTree) (isMade : Bool) : Progress where
  tree
  error? := if isMade then none else some (.createDirectory directory)

/-- A diagnostic arrives, and tells what is to be written where.  After a failure nothing is
done. -/
def arrive (directory : String) (p : Progress) (d : Diagnostic) :
    Progress × Option (String × Bytes) :=
  match p.error? with
  | some _ => (p, none)
  | none =>
    ({ p with log := p.log.push (arrival d) },
      (letter? d).map fun bytes => (path directory d.lineNumber, bytes))

/-- A letter of so many bytes has been written, or could not be. -/
def note (p : Progress) (path : String) (size : Nat) (isWritten : Bool) : Progress :=
  if isWritten then
    { p with written := p.written + 1, log := p.log.push (.letterWritten path size) }
  else { p with error? := some (.write path) }

/-- Handles one diagnostic. -/
def handle (disk : Disk) (directory : String) (p : Progress) (d : Diagnostic) : Progress :=
  match p.arrive directory d with
  | (p, none) => p
  | (p, some (path, bytes)) =>
    match p.tree.put (disk.fate p.written) path bytes with
    | (tree, isWritten) => { p with tree }.note path bytes.length isWritten

end Progress

/-- Stores diagnostics in a directory, in order. -/
def store (disk : Disk) (tree : FileTree) (directory : String) (diagnostics : List Diagnostic) :
    Progress :=
  match tree.makeDirectories disk.mayMake directory with
  | (tree, isMade) =>
    diagnostics.foldl (Progress.handle disk directory) (.start directory tree isMade)

end DeadLetter

end ServerSentEvents
