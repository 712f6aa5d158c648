import ServerSentEvents.FileTree
import ServerSentEvents.Source

/-!
# Disks

What becomes of a file that is opened, read or written depends on more than the tree of files.
Nothing is expected of a disk here: it may refuse to open what is there, hand out a file in any
pieces and give up in the middle of it, refuse to make a directory, and stop a file that is written
at any byte.
-/

namespace ServerSentEvents

/-- What a disk does that its tree does not tell. -/
structure Disk where
  /-- Whether what is at the end of a path may be opened for reading. -/
  mayOpen : String → Bool := fun _ => true
  /-- How the bytes at the end of a path come when they are read. -/
  readout : String → Bytes → List SourceItem := fun _ bytes => [.chunk bytes]
  /-- Whether a directory may be made at a place where nothing is. -/
  mayMake : Place → Bool := fun _ => true
  /-- What becomes of each file that is written, in turn. -/
  fate : Nat → WriteFate := fun _ => .done

namespace Disk

/-- What the system says of reading a directory. -/
def directoryRead : String :=
  "Is a directory (os error 21)"

/-- Opens a file for reading.  A directory can be opened too, and fails when it is read. -/
def openFile (disk : Disk) (t : FileTree) (path : String) : Option (List SourceItem) :=
  if disk.mayOpen path then
    match t.find? path with
    | none => none
    | some (.file bytes) => some (disk.readout path bytes)
    | some .directory => some [.failure directoryRead]
  else none

/-- What a file holds, if it can be read to its end. -/
def contents? (disk : Disk) (t : FileTree) (path : String) : Option Bytes :=
  match disk.openFile t path with
  | none => none
  | some source =>
    match SourceItem.failure? source with
    | some _ => none
    | none => some (SourceItem.chunks source).flatten

end Disk

end ServerSentEvents
