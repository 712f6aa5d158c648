import ServerSentEvents.Json.Value
import ServerSentEvents.Log
import ServerSentEvents.Printing

/-!
# Printing log records

A record is printed on one line, as words and `key=value` pairs or as a JSON object.
-/

namespace ServerSentEvents

def LogValue.toText : LogValue → String
  | .text value => value
  | .number value => toString value
  | .flag value => toString value

/-- The JSON value of a field's value. -/
def LogValue.toJson : LogValue → JsonValue
  | .text value => .ofString value
  | .number value => .ofNat value
  | .flag value => .bool value

/-- Whether records of a level are printed. -/
def LogLevel.isShown : LogLevel → Bool
  | .debug => false
  | .info => true
  | .warn => true

/-- The line that is printed for a record. -/
def LogRecord.printed (r : LogRecord) : PrintFormat → String
  | .text =>
    " ".intercalate ([r.level.name, r.message] ++
      r.fields.map fun field => field.1 ++ "=" ++ field.2.toText)
  | .json =>
    (JsonValue.ofFields
      ([("level", some (.ofString r.level.name)), ("message", some (.ofString r.message))] ++
        r.fields.map fun field => (field.1, some field.2.toJson))).compact

end ServerSentEvents
