import ServerSentEvents.Json.Reader
import ServerSentEvents.Limits

/-!
# Line limits in JSON

Limits are written as an object.  Keys that are missing have their default, keys that are unknown
mean nothing, and a known key may come once.  Limits may also be read from an array of the size and
the policy, each of which has its default where the array ends before it.
-/

namespace ServerSentEvents.LineLimits

/-- The value of an optional key, read by `read?` if the key is there. -/
def setting? {α : Type} (read? : JsonValue → Option α) (missing : α) (key : String)
    (members : List (Option String × JsonValue)) : Option α := do
  match ← JsonValue.member? key members with
  | none => return missing
  | some value => read? value

/-- The policy that a JSON value names: its spelling, alone or as the one key of an object with the
value `null`. -/
def policyOfJson? : JsonValue → Option OverflowPolicy
  | .string text => text.bind OverflowPolicy.ofSpelling?
  | .object [(key, .null)] => key.bind OverflowPolicy.ofSpelling?
  | _ => none

/-- The limits that a JSON value describes. -/
def ofJson? : JsonValue → Option LineLimits
  | .object members => do
    if members.any (·.1.isNone) then none
    let maxSize ←
      setting? (JsonValue.toNat? wordLimit) ({} : LineLimits).maxSize "max_line_size" members
    let overflow ← setting? policyOfJson? ({} : LineLimits).overflow "overflow_mode" members
    return { maxSize, overflow }
  | .array [] => some {}
  | .array [size] => return { maxSize := ← size.toNat? wordLimit }
  | .array [size, policy] =>
    return { maxSize := ← size.toNat? wordLimit, overflow := ← policyOfJson? policy }
  | _ => none

/-- The limits that a JSON text describes. -/
def parseJson? (text : String) : Option LineLimits :=
  (JsonValue.parse? text).bind ofJson?

def toJson (limits : LineLimits) : JsonValue :=
  .ofFields [
    ("max_line_size", some (.ofNat limits.maxSize)),
    ("overflow_mode", some (.ofString limits.overflow.name))]

end ServerSentEvents.LineLimits
