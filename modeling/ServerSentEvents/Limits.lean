import ServerSentEvents.Delay
import ServerSentEvents.Overflow
import ServerSentEvents.Text.Quoted

/-!
# Line limits

The limits of a decoder are the length up to which a line is kept and the policy for longer lines.
A length of zero can be written down, and is refused when the limits are checked.
-/

namespace ServerSentEvents

/-- What is wrong with limits. -/
inductive LimitsError where
  /-- No line fits into zero bytes. -/
  | zeroSize
  /-- The text names no overflow policy. -/
  | unknownPolicy (text : String)
  deriving DecidableEq, Repr

/-- The wording of an error in limits. -/
def LimitsError.message : LimitsError → String
  | .zeroSize => "max_line_size must be a positive number of bytes"
  | .unknownPolicy text => "unknown overflow mode: " ++ Text.quote text

/-- The policy that a text names, or an error that carries the text. -/
def OverflowPolicy.ofText (text : String) : Except LimitsError OverflowPolicy :=
  match OverflowPolicy.ofText? text with
  | some policy => .ok policy
  | none => .error (.unknownPolicy text)

/-- What a decoder allows of one line. -/
structure LineLimits where
  maxSize : Nat := 64 * 1024
  overflow : OverflowPolicy := default
  deriving DecidableEq, Repr

namespace LineLimits

/-- Limits are fit for use if a line may have a byte at all. -/
def check (limits : LineLimits) : Except LimitsError Unit :=
  if limits.maxSize = 0 then .error .zeroSize else .ok ()

end LineLimits

end ServerSentEvents
