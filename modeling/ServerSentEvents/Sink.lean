import ServerSentEvents.Channel
import ServerSentEvents.Log
import ServerSentEvents.Transducer

/-!
# Diagnostic sinks

A decoder emits notices in order.  Log records among them go to the log as they are, and each
diagnostic goes to the sink, which may log something in its place.  Since the decoder never learns
what the sink did, the choice of a sink has no influence on decoding.
-/

namespace ServerSentEvents

/-- Where diagnostics go. -/
inductive Sink where
  /-- They are remembered, in order. -/
  | collector (seen : List Diagnostic)
  | logger
  | channel (channel : Channel)

namespace Sink

/-- Reports one diagnostic, and returns what is logged for it. -/
def report (sink : Sink) (d : Diagnostic) : Sink × List LogRecord :=
  match sink with
  | collector seen => (collector (seen ++ [d]), [])
  | logger =>
    (logger,
      [.oversizedLine d.policy d.lineNumber d.lineLength (some ((d.bytes.map List.length).getD 0))])
  | channel c =>
    match c.send d with
    | .ok c => (channel c, [])
    | .error refusal => (channel c, [.diagnosticDropped d.lineNumber (refusal == .closed)])

def accept (sink : Sink) : Notice → Sink × List LogRecord
  | .diagnostic d => sink.report d
  | .record r => (sink, [r])

/-- Passes notices on, in order, and returns the log. -/
def acceptAll (sink : Sink) (notices : List Notice) : Sink × List LogRecord :=
  Transducer.run accept sink notices

/-- A collector remembers the diagnostics among notices, in order. -/
theorem acceptAll_collector (seen : List Diagnostic) (notices : List Notice) :
    ((collector seen).acceptAll notices).1 = collector (seen ++ Notice.diagnostics notices) := by
  induction notices generalizing seen with
  | nil => simp [acceptAll]
  | cons notice notices ih =>
    simp only [acceptAll, Transducer.run_cons] at ih ⊢
    cases notice with
    | diagnostic d => simp [accept, report, ih]
    | record r => simp [accept, ih]

def takeSeen : Sink → Sink × List Diagnostic
  | collector seen => (collector [], seen)
  | sink => (sink, [])

def receiveAll : Sink → Sink × List Diagnostic
  | channel c => (channel c.receiveAll.1, c.receiveAll.2)
  | sink => (sink, [])

/-- Closes the receiving end of a channel. -/
def close : Sink → Sink
  | channel c => channel c.close
  | sink => sink

end Sink

end ServerSentEvents
