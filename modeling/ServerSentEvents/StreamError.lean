/-!
# Stream errors

Only two things end a stream before its source does: the source fails, or a line outgrows the
limit where the policy does not allow it.
-/

namespace ServerSentEvents

/-- What ended a stream. -/
inductive StreamError where
  /-- The source failed, for the cause it gave. -/
  | transport (cause : String)
  /-- A line was longer than `limit` bytes. -/
  | lineTooLong (limit lineNumber : Nat)
  deriving DecidableEq, Repr

namespace StreamError

def message : StreamError → String
  | transport cause => "transport failure: " ++ cause
  | lineTooLong limit lineNumber =>
    s!"line {lineNumber} exceeds the maximum line size of {limit} bytes"

def isTransport : StreamError → Bool
  | transport _ => true
  | lineTooLong .. => false

def isLineTooLong : StreamError → Bool
  | transport _ => false
  | lineTooLong .. => true

end StreamError

end ServerSentEvents
