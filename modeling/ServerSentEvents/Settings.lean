import ServerSentEvents.Arguments
import ServerSentEvents.Limits
import ServerSentEvents.Log
import ServerSentEvents.Yaml.Node

/-!
# Settings

The settings of a run are the defaults, overlaid by a settings file, overlaid by the arguments.
Only the result is checked, so an argument can put right what a file has wrong.
-/

namespace ServerSentEvents

/-- How one run decodes, prints and stores. -/
structure Settings where
  limits : LineLimits := {}
  deadLetterDir : Option String := none
  output : PrintFormat := default
  deriving DecidableEq, Repr

/-- Why there are no settings. -/
inductive SettingsError where
  /-- The file cannot be read as text. -/
  | unreadable (path : String)
  /-- The file's text describes no settings. -/
  | malformed (path : String)
  /-- The settings are not fit for use. -/
  | unfit (cause : LimitsError)
  deriving DecidableEq, Repr

namespace SettingsError

/-- The wording of a settings error, without its cause. -/
def message : SettingsError → String
  | unreadable path => "failed to read settings file " ++ path
  | malformed path => "invalid settings file " ++ path
  | unfit _ => "invalid decoder settings"

/-- The wording of the limits error beneath a settings error. -/
def cause? : SettingsError → Option String
  | unfit cause => some cause.message
  | _ => none

end SettingsError

namespace Settings

/-! ### The settings file -/

/-- The value of an optional key, read by `read?` if the key is there. -/
def entry? {α : Type} (read? : YamlNode → Option α) (missing : α) (key : String)
    (entries : List (YamlNode × YamlNode)) : Option α := do
  match ← YamlNode.member? key entries with
  | none => return missing
  | some node => read? node

/-- The decoder's part of a file.  Unknown keys in it mean nothing. -/
def readLimits? (node : YamlNode) : Option LineLimits := do
  let entries ← node.entries?
  if entries.any (·.1.text?.isNone) then none
  let maxSize ←
    entry? (YamlNode.toNat? wordLimit) ({} : LineLimits).maxSize "max_line_size" entries
  let overflow ←
    entry? (fun node => node.text?.bind OverflowPolicy.ofSpelling?)
      ({} : LineLimits).overflow "overflow_mode" entries
  return { maxSize, overflow }

/-- A directory, or none if the node stands for nothing. -/
def readDirectory? (node : YamlNode) : Option (Option String) :=
  if node.isNull then some none else node.text?.map some

/-- The keys that a file may have. -/
def keys : List String :=
  ["decoder", "dead_letter_dir", "output"]

/-- The settings that a document describes.  Keys that are missing have their default, and an
unknown key is an error. -/
def ofYaml? (node : YamlNode) : Option Settings := do
  let entries ← node.entries?
  if entries.any (fun entry => !(entry.1.text?.map keys.contains).getD false) then none
  let limits ← entry? readLimits? {} "decoder" entries
  let deadLetterDir ← entry? readDirectory? none "dead_letter_dir" entries
  let output ← entry? (fun node => node.text?.bind PrintFormat.ofName?) default "output" entries
  return { limits, deadLetterDir, output }

/-- The settings in a file, given what the file holds, or nothing if it cannot be read.  Texts are
parsed by `parse?`, which may be any reader of YAML. -/
def ofFile (parse? : String → Option YamlNode) (path : String) (contents : Option Bytes) :
    Except SettingsError Settings :=
  match contents.bind Utf8.decode? with
  | none => .error (.unreadable path)
  | some text =>
    match (parse? text).bind ofYaml? with
    | none => .error (.malformed path)
    | some settings => .ok settings

/-! ### Arguments and checking -/

/-- Settings with the arguments over them. -/
def overlay (s : Settings) (a : Arguments) : Settings where
  limits :=
    { maxSize := a.maxLineSize.getD s.limits.maxSize
      overflow := a.overflow.getD s.limits.overflow }
  deadLetterDir := a.deadLetterDir.or s.deadLetterDir
  output := a.format.getD s.output

/-- Checks settings, and tells what is logged about those that are fit for use. -/
def check (s : Settings) : Except SettingsError (List LogRecord) :=
  match s.limits.check with
  | .error cause => .error (.unfit cause)
  | .ok () =>
    .ok <|
      if s.deadLetterDir.isSome && s.limits.overflow != .deadLetter then
        [.directoryUnused s.limits.overflow]
      else []

/-- The settings of a run, where `read?` reads files and `parse?` reads YAML. -/
def settle (parse? : String → Option YamlNode) (a : Arguments)
    (read? : String → Option Bytes) : Except SettingsError (Settings × List LogRecord) := do
  let file ← match a.config with
    | some path => ofFile parse? path (read? path)
    | none => .ok {}
  let settings := file.overlay a
  return (settings, ← settings.check)

end Settings

end ServerSentEvents
