import ServerSentEvents.Limits
import ServerSentEvents.Line

/-!
# Log records

Everything that is logged is a value of `LogRecord`.  A record has a level, a message, and fields
in a fixed order; a field that does not apply is left out.
-/

namespace ServerSentEvents

/-- How urgent a log record is. -/
inductive LogLevel where
  | debug
  | info
  | warn
  deriving DecidableEq, Repr

def LogLevel.name : LogLevel → String
  | .debug => "DEBUG"
  | .info => "INFO"
  | .warn => "WARN"

/-- The value of a field. -/
inductive LogValue where
  | text (value : String)
  | number (value : Nat)
  | flag (value : Bool)
  deriving DecidableEq, Repr

/-- What can be logged. -/
inductive LogRecord where
  /-- An oversized line was reported, with the number of bytes kept where that is told. -/
  | oversizedLine (policy : OverflowPolicy) (lineNumber lineLength : Nat) (captured : Option Nat)
  /-- A diagnostic found no room, or nobody to take it. -/
  | diagnosticDropped (lineNumber : Nat) (closed : Bool)
  /-- A line outgrew the limit and fails the stream. -/
  | lineTooLong (lineNumber limit : Nat)
  /-- The source has nothing more to give. -/
  | sourceEnded (lines oversized : Nat)
  | blockDiscarded
  /-- A directory for dead letters is set where none are written. -/
  | directoryUnused (policy : OverflowPolicy)
  | decoding (limits : LineLimits)
  | streamFinished (events : Nat) (counts : LineCounts) (lastEventId : Option String)
  | letterWritten (path : String) (size : Nat)
  /-- So many lines were stored in all. -/
  | lettersCounted (written : Nat)
  deriving DecidableEq, Repr

namespace LogRecord

def level : LogRecord → LogLevel
  | oversizedLine .. | directoryUnused .. => .warn
  | diagnosticDropped .. | lineTooLong .. | sourceEnded .. | blockDiscarded | decoding .. => .debug
  | streamFinished .. | letterWritten .. | lettersCounted .. => .info

def message : LogRecord → String
  | oversizedLine .. => "oversized SSE line"
  | diagnosticDropped .. => "overflow diagnostic dropped"
  | lineTooLong .. => "oversized SSE line, failing stream"
  | sourceEnded .. => "SSE source ended"
  | blockDiscarded => "discarding unterminated SSE event at end of stream"
  | directoryUnused .. =>
    "dead_letter_dir is set but overflow mode is not dead_letter; only diagnostics will be written"
  | decoding .. => "decoding"
  | streamFinished .. => "stream finished"
  | letterWritten .. => "dead-lettered line written"
  | lettersCounted .. => "dead-letter files written"

def fields : LogRecord → List (String × LogValue)
  | oversizedLine policy lineNumber lineLength captured =>
    [("mode", .text policy.name), ("line_number", .number lineNumber),
      ("line_length", .number lineLength)] ++
      captured.toList.map fun n => ("captured", .number n)
  | diagnosticDropped lineNumber closed =>
    [("line_number", .number lineNumber), ("closed", .flag closed)]
  | lineTooLong lineNumber limit => [("line_number", .number lineNumber), ("limit", .number limit)]
  | sourceEnded lines oversized => [("lines", .number lines), ("oversized", .number oversized)]
  | blockDiscarded => []
  | directoryUnused policy => [("mode", .text policy.name)]
  | decoding limits =>
    [("max_line_size", .number limits.maxSize),
      ("overflow_mode", .text limits.overflow.name)]
  | streamFinished events counts lastEventId =>
    [("events", .number events), ("lines", .number counts.lines),
      ("dropped", .number counts.dropped), ("truncated", .number counts.truncated),
      ("rerouted", .number counts.rerouted)] ++
      lastEventId.toList.map fun id => ("last_event_id", .text id)
  | letterWritten path size => [("path", .text path), ("bytes", .number size)]
  | lettersCounted written => [("written", .number written)]

end LogRecord

/-- What a decoder makes known beside its lines and events. -/
inductive Notice where
  | diagnostic (diagnostic : Diagnostic)
  | record (record : LogRecord)
  deriving DecidableEq, Repr

namespace Notice

/-- The diagnostic of a notice that is one. -/
def diagnostic? : Notice → Option Diagnostic
  | diagnostic d => some d
  | record _ => none

/-- The log record of a notice that is one. -/
def record? : Notice → Option LogRecord
  | diagnostic _ => none
  | record r => some r

def diagnostics (notices : List Notice) : List Diagnostic :=
  notices.filterMap diagnostic?

@[simp] theorem diagnostics_nil : diagnostics [] = [] := rfl

@[simp] theorem diagnostics_cons_diagnostic (d : Diagnostic) (rest : List Notice) :
    diagnostics (.diagnostic d :: rest) = d :: diagnostics rest := rfl

@[simp] theorem diagnostics_cons_record (r : LogRecord) (rest : List Notice) :
    diagnostics (.record r :: rest) = diagnostics rest := rfl

@[simp] theorem diagnostics_append (a b : List Notice) :
    diagnostics (a ++ b) = diagnostics a ++ diagnostics b :=
  List.filterMap_append

end Notice

end ServerSentEvents
