import ServerSentEvents.Log.Printing
import ServerSentEvents.Session
import ServerSentEvents.Yaml.Reader

/-!
# The program

The program does for real what a session describes.  What it prints, when it stops, which dead
letters it writes and what it tells in the end are settled by the definitions of sessions and of
dead letters; here are the calls to the system, in their order, and what their failures become.  A
source is read one chunk at a time, when the stream asks for it.
-/

namespace ServerSentEvents.Program

/-- How many bytes are asked for at a time. -/
def chunkSize : USize := 4096

def showLog (format : PrintFormat) (records : List LogRecord) : IO Unit := do
  for r in records do
    if r.level.isShown then IO.eprintln (r.printed format)

/-- Whether an action succeeds. -/
def succeeds (action : IO Unit) : IO Bool := do
  try
    action
    return true
  catch _ => return false

/-- What a file holds, if it can be read. -/
def contents? (path : String) : IO (Option Bytes) := do
  try
    return some (← IO.FS.readBinFile path).data.toList
  catch _ => return none

/-! ## The source -/

/-- Opens a source: the action that reads its next bytes, of which there are none at its end. -/
def openSource : InputSource → IO (Except SourceError (IO ByteArray))
  | .stdin => do
    let stdin ← IO.getStdin
    return .ok (stdin.read chunkSize)
  | .file path => do
    try
      let handle ← IO.FS.Handle.mk path .read
      return .ok (handle.read chunkSize)
    catch _ => return .error (.openFile path)
  | .url url => return .error (.request url)

/-- The items that a source has next. -/
def nextItems (read : IO ByteArray) : IO (List SourceItem) := do
  try
    let bytes ← read
    return if bytes.isEmpty then [] else [.chunk bytes.data.toList, .pending]
  catch
    | .inappropriateType .. => return [.failure Disk.directoryRead]
    | error => return [.failure (toString error)]

/-! ## Dead letters -/

/-- The writer of dead letters.  Of its progress the tree is not used: there is the real one. -/
structure Writer where
  directory : String
  progress : DeadLetter.Progress

namespace Writer

def start (directory : String) : IO Writer := do
  let isMade ← if directory.isEmpty then pure true else succeeds (IO.FS.createDirAll directory)
  return { directory, progress := .start directory {} isMade }

/-- The log is shown as it is kept. -/
def showProgress (format : PrintFormat) (w : Writer) : IO Writer := do
  showLog format w.progress.log.toList
  return { w with progress.log := #[] }

def take (format : PrintFormat) (w : Writer) (d : Diagnostic) : IO Writer := do
  let (progress, letter?) := w.progress.arrive w.directory d
  let w ← { w with progress }.showProgress format
  match letter? with
  | none => return w
  | some (path, bytes) =>
    let isWritten ← succeeds (IO.FS.writeBinFile path ⟨bytes.toArray⟩)
    { w with progress := w.progress.note path bytes.length isWritten }.showProgress format

end Writer

/-! ## The session -/

/-- Writes to the standard output what a session prints. -/
def write (bytes : ByteArray) : IO (Option PrintError) := do
  if bytes.isEmpty then return none
  let out ← IO.getStdout
  try
    out.write bytes
  catch error => return some (.write (toString error))
  try
    out.flush
    return none
  catch error => return some (.flush (toString error))

/-- Polls until the session stops. -/
partial def pump (format logFormat : PrintFormat) (read : IO ByteArray)
    (p : Session.State) (writer? : Option Writer) :
    IO (Session.State × Option Writer × Option SessionError) := do
  let (p, answer) := p.poll
  showLog logFormat p.log.toList
  let writer? ← writer?.mapM fun w => p.letters.toList.foldlM (Writer.take logFormat) w
  let hasFailed := writer?.any (·.progress.error?.isSome)
  let p := { p with sink := if hasFailed then p.sink.close else p.sink, log := #[], letters := #[] }
  let (output, verdict) := Session.react format {} answer
  match ← write ⟨output.taken⟩, verdict with
  | some error, _ => return (p, writer?, some (.printFailed error))
  | none, .stop failure? => return (p, writer?, failure?)
  | none, .goOn =>
    match answer with
    | .pending =>
      let items ← nextItems read
      pump format logFormat read { p with stream := p.stream.supply items } writer?
    | _ => pump format logFormat read p writer?

/-- Decodes with settled settings. -/
def decode (settings : Settings) (logFormat : PrintFormat) (splitter : Splitter)
    (read : IO ByteArray) : IO (Option SessionError) := do
  let writer? ← settings.deadLetterDir.mapM Writer.start
  let start := Session.start settings splitter [.pending] #[]
  let (p, writer?, failure?) ← pump settings.output logFormat read start writer?
  showLog logFormat [Session.finished p.stream]
  match writer? with
  | none => return failure?
  | some w =>
    let (told, failure?) := Session.conclude w.progress failure?
    showLog logFormat told
    return failure?

def run (arguments : Arguments) : IO (Option SessionError) := do
  let logFormat := arguments.logFormat.getD .text
  let file ← match arguments.config with
    | some path => contents? path
    | none => pure none
  match Settings.settle YamlNode.parse? arguments (fun _ => file) with
  | .error error => return some (.configInvalid error)
  | .ok (settings, log) =>
    showLog logFormat log
    match Session.equip settings.limits (← openSource arguments.source) with
    | .error failure => return some failure
    | .ok (splitter, read) => decode settings logFormat splitter read

end ServerSentEvents.Program

open ServerSentEvents in
/-- Reads the arguments, runs a session, and answers with its exit code. -/
def main (arguments : List String) : IO UInt32 := do
  match Arguments.parse arguments with
  | .error .displayHelp =>
    IO.println Arguments.usage
    return 0
  | .error .displayVersion =>
    IO.println Arguments.version
    return 0
  | .error error =>
    IO.eprintln s!"error: {error.message}"
    return UInt32.ofNat error.exitCode
  | .ok arguments =>
    match ← Program.run arguments with
    | none => return 0
    | some failure =>
      let cause := (failure.cause?.map (": " ++ ·)).getD ""
      IO.eprintln s!"ERROR {failure.message}{cause} exit_class={failure.className}"
      return UInt32.ofNat failure.exitCode
