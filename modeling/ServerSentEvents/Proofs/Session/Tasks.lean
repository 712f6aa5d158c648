import Mathlib.Logic.Relation
import ServerSentEvents.Session

/-!
# The two tasks of a session

A session decodes and prints in one task and stores dead letters in another.  They share nothing
but the channel, and `Tasks.Step` lets either of them do the next thing it has to do, in any order.
-/

namespace ServerSentEvents

namespace Session

/-! ## The tasks -/

/-- How far the task has come that decodes and prints. -/
inductive Decoding where
  | polling
  /-- The stream has answered, and these notices have still to be passed on. -/
  | telling (untold : List Notice) (answer : PollAnswer Event)
  | stopped (failure? : Option SessionError)

/-- How far the task has come that stores dead letters. -/
inductive Writing where
  | starting
  | receiving
  /-- A diagnostic has been received and is not handled yet. -/
  | storing (d : Diagnostic)
  | stopped

/-- The task that stores dead letters. -/
structure Writer where
  disk : Disk
  directory : String
  writing : Writing := .starting
  progress : DeadLetter.Progress

/-- What the writer does next.  It waits at an empty channel until the other task is over, and goes
away once something could not be stored. -/
inductive Writer.Step (deserted : Bool) : Writer × Channel → Writer × Channel → Prop where
  | prepare {w : Writer} {c : Channel} (hstarting : w.writing = .starting) :
      Step deserted (w, c)
        ({ w with
            writing := .receiving
            progress := DeadLetter.store w.disk w.progress.tree w.directory [] }, c)
  | receive {w : Writer} {c : Channel} {d : Diagnostic} {waiting : List Diagnostic}
      (hreceiving : w.writing = .receiving) (hgoing : w.progress.error? = none)
      (hwaiting : c.waiting = d :: waiting) :
      Step deserted (w, c) ({ w with writing := .storing d }, { c with waiting })
  | store {w : Writer} {c : Channel} {d : Diagnostic} (hstoring : w.writing = .storing d) :
      Step deserted (w, c)
        ({ w with writing := .receiving, progress := w.progress.handle w.disk w.directory d }, c)
  | fail {w : Writer} {c : Channel} (hreceiving : w.writing = .receiving)
      (hfailed : w.progress.error? ≠ none) :
      Step deserted (w, c) ({ w with writing := .stopped }, c.close)
  | finish {w : Writer} {c : Channel} (hdeserted : deserted = true)
      (hreceiving : w.writing = .receiving) (hgoing : w.progress.error? = none)
      (hwaiting : c.waiting = []) :
      Step deserted (w, c) ({ w with writing := .stopped }, c)

/-- Both tasks of a session, and what is between them. -/
structure Tasks where
  stream : PolledEvents
  decoding : Decoding := .polling
  sink : Sink
  output : Device := {}
  log : Array LogRecord
  writer? : Option Writer

namespace Decoding

def isOver : Decoding → Bool
  | stopped _ => true
  | _ => false

def failure? : Decoding → Option SessionError
  | stopped failure? => failure?
  | _ => none

end Decoding

namespace Tasks

/-- The decoding task comes to its end. -/
def stop (p : Tasks) (failure? : Option SessionError) : Tasks :=
  { p with decoding := .stopped failure?, log := p.log.push (finished p.stream) }

/-- What becomes of an answer of the stream. -/
def act (format : PrintFormat) (p : Tasks) (answer : PollAnswer Event) : Tasks :=
  match react format p.output answer with
  | (output, .stop failure?) => { p with output }.stop failure?
  | (output, .goOn) => { p with output, decoding := .polling }

/-- An answer leaves the channel and the writer as they are. -/
theorem act_cases (format : PrintFormat) (p : Tasks) (answer : PollAnswer Event) :
    (p.act format answer).writer? = p.writer? ∧ (p.act format answer).sink = p.sink ∧
      ((p.act format answer).decoding.isOver = false ∧ (p.act format answer).log = p.log ∨
        (p.act format answer).decoding.isOver = true ∧
          (p.act format answer).log = p.log.push (finished p.stream)) := by
  rw [act]
  split
  · exact ⟨rfl, rfl, Or.inr ⟨rfl, rfl⟩⟩
  · exact ⟨rfl, rfl, Or.inl ⟨rfl, rfl⟩⟩

/-- What either task does next. -/
inductive Step (format : PrintFormat) : Tasks → Tasks → Prop where
  | poll {p : Tasks} (hpolling : p.decoding = .polling) :
      Step format p
        { p with
          stream := p.stream.poll.1
          decoding := .telling p.stream.poll.2.2 p.stream.poll.2.1 }
  | tell {p : Tasks} {notice : Notice} {untold : List Notice} {answer : PollAnswer Event}
      (htelling : p.decoding = .telling (notice :: untold) answer) :
      Step format p
        { p with
          decoding := .telling untold answer
          sink := (p.sink.accept notice).1
          log := p.log ++ (p.sink.accept notice).2 }
  | act {p : Tasks} {answer : PollAnswer Event} (htold : p.decoding = .telling [] answer) :
      Step format p (p.act format answer)
  | write {p : Tasks} {w next : Writer} {c rest : Channel} (hwriter : p.writer? = some w)
      (hsink : p.sink = .channel c) (hstep : Writer.Step p.decoding.isOver (w, c) (next, rest)) :
      Step format p { p with sink := .channel rest, writer? := some next }

/-- What the tasks may come to. -/
def Run (format : PrintFormat) : Tasks → Tasks → Prop :=
  Relation.ReflTransGen (Step format)

/-- The tasks of a session at its start. -/
def start (disk : Disk) (tree : FileTree) (settings : Settings) (splitter : Splitter)
    (source : List SourceItem) (log : Array LogRecord) : Tasks where
  stream := { lines := { source, splitter } }
  sink := sinkFor settings
  log := log.push (.decoding settings.limits)
  writer? := settings.deadLetterDir.map fun directory => { disk, directory, progress := { tree } }

/-- The error of the writer, once something could not be stored. -/
def storeError? (p : Tasks) : Option DeadLetterError :=
  p.writer?.bind (·.progress.error?)

/-- Neither task has anything left to do. -/
def Over (p : Tasks) : Prop :=
  p.decoding.isOver = true ∧ ∀ w ∈ p.writer?, w.writing = .stopped

/-- What a session leaves behind whose tasks are over. -/
def outcome (tree : FileTree) (p : Tasks) : Outcome :=
  match p.writer? with
  | none => { tree, output := p.output, log := p.log, failure? := p.decoding.failure? }
  | some w =>
    match conclude w.progress p.decoding.failure? with
    | (told, failure?) =>
      { tree := w.progress.tree
        output := p.output
        writerLog := w.progress.log
        log := p.log ++ told
        failure? }

end Tasks

/-- The failure of the writer takes the place of any other. -/
theorem failure?_conclude (stored : DeadLetter.Progress) (failure? : Option SessionError) :
    (conclude stored failure?).2 = (stored.error?.map .storeFailed).or failure? := by
  unfold conclude
  cases stored.error? <;> rfl

/-- Nothing but the number of letters is told in the end. -/
theorem eq_of_mem_conclude {stored : DeadLetter.Progress} {failure? : Option SessionError}
    {record : LogRecord} (hrecord : record ∈ (conclude stored failure?).1) :
    record = .lettersCounted stored.written := by
  unfold conclude at hrecord
  split at hrecord
  · cases hrecord
  · dsimp only at hrecord
    split at hrecord
    · exact List.mem_singleton.mp hrecord
    · cases hrecord

end Session

end ServerSentEvents
