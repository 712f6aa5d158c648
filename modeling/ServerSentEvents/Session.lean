import ServerSentEvents.DeadLetter
import ServerSentEvents.PolledEvents
import ServerSentEvents.Settings
import ServerSentEvents.Sink

/-!
# Sessions

A session is one run of the program: it settles its settings, opens its source, prints every event
of the stream, tells what it counted, and stores the dead letters.  The log of the session and the
log of the writer of dead letters are apart, since nothing orders one before the other.
-/

namespace ServerSentEvents

/-- Why a source could not be opened. -/
inductive SourceError where
  | openFile (path : String)
  /-- There is no connection to be had. -/
  | request (url : String)
  deriving DecidableEq, Repr

def SourceError.message : SourceError → String
  | .openFile path => "failed to open " ++ path
  | .request url => "request to " ++ url ++ " failed"

/-- Why a session failed. -/
inductive SessionError where
  | configInvalid (error : SettingsError)
  | sourceFailed (error : SourceError)
  | decodeFailed (error : StreamError)
  | printFailed (error : PrintError)
  | storeFailed (error : DeadLetterError)
  deriving DecidableEq, Repr

namespace SessionError

def className : SessionError → String
  | configInvalid _ => "config_invalid"
  | sourceFailed _ => "source_failed"
  | decodeFailed _ => "decode_failed"
  | printFailed _ | storeFailed _ => "output_failed"

def exitCode : SessionError → Nat
  | configInvalid _ => 2
  | sourceFailed _ => 3
  | decodeFailed _ => 4
  | printFailed _ | storeFailed _ => 5

/-- The wording of a failure, without its cause. -/
def message : SessionError → String
  | configInvalid error => error.message
  | sourceFailed error => error.message
  | decodeFailed error => error.message
  | printFailed error => error.message
  | storeFailed error => error.message

/-- The wording of the settings error's cause beneath a failure. -/
def cause? : SessionError → Option String
  | configInvalid error => error.cause?
  | _ => none

end SessionError

/-- What a session finds. -/
structure Surroundings where
  tree : FileTree := {}
  disk : Disk := {}
  /-- What comes from the standard input. -/
  stdin : List SourceItem := []

/-- What a file holds, if it can be read to its end. -/
def Surroundings.contents? (s : Surroundings) (path : String) : Option Bytes :=
  s.disk.contents? s.tree path

/-- What a session leaves behind. -/
structure Outcome where
  tree : FileTree
  output : Device := {}
  log : Array LogRecord := #[]
  writerLog : Array LogRecord := #[]
  failure? : Option SessionError := none

def Outcome.exitCode (o : Outcome) : Nat :=
  (o.failure?.map SessionError.exitCode).getD 0

namespace Session

/-- Opens the source of a session. -/
def openSource (s : Surroundings) : InputSource → Except SourceError (List SourceItem)
  | .stdin => .ok s.stdin
  | .file path =>
    match s.disk.openFile s.tree path with
    | none => .error (.openFile path)
    | some source => .ok source
  | .url url => .error (.request url)

/-- The splitter and the source of a session, unless one of them is not to be had. -/
def equip {α : Type} (limits : LineLimits) (opened : Except SourceError α) :
    Except SessionError (Splitter × α) :=
  match opened, Splitter.ofLimits limits with
  | .error error, _ => .error (.sourceFailed error)
  | .ok _, .error error => .error (.configInvalid (.unfit error))
  | .ok source, .ok splitter => .ok (splitter, source)

/-- The sink of a session: a channel to the writer if there is one, and the log otherwise. -/
def sinkFor (settings : Settings) : Sink :=
  if settings.deadLetterDir.isSome then .channel DeadLetter.queue
  else .logger

/-- The state of printing a stream. -/
structure State where
  stream : PolledEvents
  sink : Sink
  output : Device
  /-- What the writer has taken from the channel. -/
  letters : Array Diagnostic := #[]
  log : Array LogRecord

/-- Polls the stream once and passes its notices on.  The writer empties the channel after every
poll. -/
def State.poll (p : State) : State × PollAnswer Event :=
  match p.stream.poll with
  | (stream, answer, notices) =>
    match p.sink.acceptAll notices with
    | (sink, records) =>
      match sink.receiveAll with
      | (sink, letters) =>
        ({ p with stream, sink, letters := p.letters ++ letters, log := p.log ++ records }, answer)

/-- Whether a session goes on. -/
inductive Verdict where
  | goOn
  | stop (failure? : Option SessionError)
  deriving DecidableEq, Repr

/-- What an answer of the stream leads to.  An event is printed, and the session stops with the
stream or when something fails. -/
def react (format : PrintFormat) (output : Device) : PollAnswer Event → Device × Verdict
  | .ended => (output, .stop none)
  | .failed error => (output, .stop (some (.decodeFailed error)))
  | .pending => (output, .goOn)
  | .item event =>
    match output.print format event with
    | (output, some error) => (output, .stop (some (.printFailed error)))
    | (output, none) => (output, .goOn)

theorem isFinal_of_react {format : PrintFormat} {output next : Device}
    {answer : PollAnswer Event} (hreact : react format output answer = (next, .goOn)) :
    answer.isFinal = false := by
  cases answer with
  | item => rfl
  | pending => rfl
  | failed => simp [react] at hreact
  | ended => simp [react] at hreact

/-- Polls until the session stops. -/
def State.run (format : PrintFormat) (p : State) : State × Option SessionError :=
  match _hpoll : p.poll with
  | (next, answer) =>
    match _hreact : react format next.output answer with
    | (output, .stop failure?) => ({ next with output }, failure?)
    | (output, .goOn) => { next with output }.run format
termination_by p.stream.lines.outlook
decreasing_by
  have hanswer : p.stream.poll.2.1 = answer := congrArg (·.2) _hpoll
  have hstream : p.stream.poll.1 = next.stream := congrArg (·.1.stream) _hpoll
  have hless := p.stream.poll_lt (hanswer ▸ isFinal_of_react _hreact)
  rwa [hstream] at hless

def start (settings : Settings) (splitter : Splitter) (source : List SourceItem)
    (log : Array LogRecord) : State where
  stream := { lines := { source, splitter } }
  sink := sinkFor settings
  output := {}
  log := log.push (.decoding settings.limits)

/-- What is counted when a stream is over. -/
def finished (stream : PolledEvents) : LogRecord :=
  .streamFinished stream.events stream.counts stream.lastEventId

/-- What is told once the writer is done, and how the session ends: with the failure of the writer,
or else as it stopped. -/
def conclude (stored : DeadLetter.Progress) (failure? : Option SessionError) :
    List LogRecord × Option SessionError :=
  match stored.error? with
  | some error => ([], some (.storeFailed error))
  | none => (if 0 < stored.written then [.lettersCounted stored.written] else [], failure?)

/-- Decodes and prints with settled settings. -/
def decode (disk : Disk) (tree : FileTree) (settings : Settings) (splitter : Splitter)
    (source : List SourceItem) (log : Array LogRecord) : Outcome :=
  match (start settings splitter source log).run settings.output with
  | (p, failure?) =>
    let log := p.log.push (finished p.stream)
    match settings.deadLetterDir with
    | none => { tree, output := p.output, log, failure? }
    | some directory =>
      let stored := DeadLetter.store disk tree directory p.letters.toList
      match conclude stored failure? with
      | (told, failure?) =>
        { tree := stored.tree
          output := p.output
          writerLog := stored.log
          log := log ++ told
          failure? }

/-- Runs a session, where `parse?` reads YAML. -/
def run (parse? : String → Option YamlNode) (s : Surroundings) (arguments : Arguments) : Outcome :=
  match Settings.settle parse? arguments s.contents? with
  | .error error => { tree := s.tree, failure? := some (.configInvalid error) }
  | .ok (settings, log) =>
    match equip settings.limits (openSource s arguments.source) with
    | .error failure => { tree := s.tree, log := log.toArray, failure? := some failure }
    | .ok (splitter, source) =>
      decode s.disk s.tree settings splitter source log.toArray

end Session

end ServerSentEvents
