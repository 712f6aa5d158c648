import ServerSentEvents.Bytes
import ServerSentEvents.Text.Pieces

/-!
# File trees

A tree of directories and files, reached by paths.  A place in the tree is the list of the names on
the way to it from the working directory, which is the empty list.  Paths that begin with a slash
lead to places of their own, and two dots lead out of the working directory to places that begin
with two dots.
-/

namespace ServerSentEvents

/-- A place in a file tree: the names that lead to it. -/
abbrev Place := List String

/-- What is at a place. -/
inductive FileNode where
  | directory
  | file (bytes : Bytes)
  deriving DecidableEq, Repr

/-- What becomes of a file that is to be written, where there is a place for it. -/
inductive WriteFate where
  | done
  /-- The file cannot be opened, and stays as it was. -/
  | refused
  /-- The file is emptied, and has room for so many bytes. -/
  | cut (room : Nat)
  deriving DecidableEq, Repr

/-- What there is at which places.  The first entry of a place counts. -/
structure FileTree where
  entries : List (Place × FileNode) := []

namespace FileTree

/-- The place at which absolute paths begin. -/
def root : Place :=
  ["/"]

/-- Whether a place is the working directory or above it. -/
def isAbove (place : Place) : Bool :=
  place.all (· == "..")

/-- What is at a place. -/
def lookup (t : FileTree) (place : Place) : Option FileNode :=
  if isAbove place ∨ place = root then some .directory
  else (t.entries.find? (·.1 == place)).map (·.2)

/-- The tree with something else at a place. -/
def insert (t : FileTree) (place : Place) (node : FileNode) : FileTree :=
  { entries := (place, node) :: t.entries.filter (·.1 != place) }

/-! ### Paths -/

def longestPath : Nat :=
  4095

def longestName : Nat :=
  255

def isPath (path : String) : Bool :=
  !path.isEmpty && path.utf8ByteSize ≤ longestPath && !path.toList.contains '\x00'

/-- Where a path begins, and the names on it. -/
def steps (path : String) : Place × List String :=
  match path.toList with
  | '/' :: cs => (root, (Text.pieces '/' cs).map String.ofList)
  | cs => ([], (Text.pieces '/' cs).map String.ofList)

/-- Whether a name leads from a directory to the same directory. -/
def isIdle (name : String) : Bool :=
  name.isEmpty || name == "."

/-- One name further: an idle name leads nowhere else, two dots lead back, and a name that is too
long leads nowhere at all. -/
def advance (place : Place) (name : String) : Option Place :=
  if isIdle name then some place
  else if name = ".." then
    if place = root then some root
    else if isAbove place then some (place ++ [".."])
    else some place.dropLast
  else if name.utf8ByteSize ≤ longestName then some (place ++ [name])
  else none

/-- Follows names from a place.  Every place that is left on the way has to be a directory. -/
def follow (t : FileTree) (place : Place) : List String → Option Place
  | [] => some place
  | name :: names =>
    if t.lookup place = some .directory then
      match advance place name with
      | some next => t.follow next names
      | none => none
    else none

/-- The place of a path, if the path leads anywhere. -/
def place? (t : FileTree) (path : String) : Option Place :=
  if isPath path then
    match steps path with
    | (start, names) => t.follow start names
  else none

/-! ### Reading and writing -/

/-- What is at the end of a path. -/
def find? (t : FileTree) (path : String) : Option FileNode :=
  (t.place? path).bind t.lookup

def contents? (t : FileTree) (path : String) : Option Bytes :=
  match t.find? path with
  | some (.file bytes) => some bytes
  | _ => none

/-- Makes the directories on the way along names, where they may be made, and tells whether all of
them are there.  Those that were made before something was in the way stay. -/
def makeAlong (mayMake : Place → Bool) (t : FileTree) (place : Place) :
    List String → FileTree × Bool
  | [] => (t, true)
  | name :: names =>
    match advance place name with
    | none => (t, false)
    | some next =>
      match t.lookup next with
      | some .directory => t.makeAlong mayMake next names
      | some (.file _) => (t, false)
      | none =>
        if mayMake next then (t.insert next .directory).makeAlong mayMake next names
        else (t, false)

/-- Whether the last name of a path is a dot. -/
def endsInDot (names : List String) : Bool :=
  (names.filter (!·.isEmpty)).getLast? == some "."

/-- Makes a directory and those above it, and tells whether it is there.  No directory can be made
under the name of a dot: one that a path names with a dot at the end has to be there once those
above it have been made. -/
def makeDirectories (mayMake : Place → Bool) (t : FileTree) (path : String) : FileTree × Bool :=
  if path.isEmpty then (t, true)
  else if !isPath path then (t, false)
  else
    match steps path with
    | (start, names) =>
      let named := names.filter (!isIdle ·)
      if endsInDot names then
        match t.makeAlong mayMake start named.dropLast with
        | (t, isMade) =>
          (t, isMade && decide ((t.follow start named).bind t.lookup = some .directory))
      else t.makeAlong mayMake start named

/-- Writes a file, and tells whether all of it was written.  Nothing is done where its directory is
missing or it is a directory itself. -/
def put (fate : WriteFate) (t : FileTree) (path : String) (bytes : Bytes) : FileTree × Bool :=
  match t.place? path with
  | none => (t, false)
  | some place =>
    match t.lookup place, fate with
    | some .directory, _ => (t, false)
    | _, .refused => (t, false)
    | _, .done => (t.insert place (.file bytes), true)
    | _, .cut room => (t.insert place (.file (bytes.take room)), decide (bytes.length ≤ room))

/-- The path of a place below the working directory. -/
def pathOf (place : Place) : String :=
  "/".intercalate place

/-- Whether a place is not below the working directory. -/
def isOutside (place : Place) : Bool :=
  place.head? == root.head? || place.head? == some ".."

/-- The files below the working directory that another tree does not have. -/
def filesSince (t before : FileTree) : List (String × Bytes) :=
  t.entries.filterMap fun (place, node) =>
    match node with
    | .directory => none
    | .file bytes =>
      if isOutside place ∨ (before.lookup place).isSome then none
      else some (pathOf place, bytes)

end FileTree

end ServerSentEvents
