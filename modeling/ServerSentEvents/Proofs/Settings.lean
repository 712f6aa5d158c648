import ServerSentEvents.Settings
import ServerSentEvents.Yaml.Reader

/-!
# Layers of settings

Each setting is chosen by itself: the argument for it, or else what the settings file has under its
key, or else the default (`Settings.Layered`).  Only what has been chosen is checked
(`Settings.settle_layers`), so that no argument can make up for a file that cannot be loaded, and
any value of the file can be put right.
-/

namespace ServerSentEvents

namespace YamlNode

/-- The node under a key of a mapping, if there is one. -/
def value? (node : YamlNode) (key : String) : Option YamlNode :=
  ((node.entries?.getD []).find? (·.1.text? == some key)).map (·.2)

end YamlNode

namespace Settings

/-! ## One setting -/

/-- What is chosen for one setting: what an argument says, or else what the file has, or else the
default. -/
def Chosen {α : Type} (given : Option α) (entry : Option YamlNode) (read? : YamlNode → Option α)
    (missing chosen : α) : Prop :=
  match given, entry with
  | some value, _ => chosen = value
  | none, some node => read? node = some chosen
  | none, none => chosen = missing

section

variable {α : Type} {read? : YamlNode → Option α} {missing value : α} {key : String}
  {node : YamlNode} {entries : List (YamlNode × YamlNode)}

/-- An argument changes nothing but the choice. -/
theorem Chosen.overlaid {entry : Option YamlNode} (h : Chosen none entry read? missing value)
    (given : Option α) : Chosen given entry read? missing (given.getD value) := by
  cases given with
  | none => exact h
  | some given => rfl

/-- There is no more than one choice. -/
theorem Chosen.unique {given : Option α} {entry : Option YamlNode} {other : α}
    (h : Chosen given entry read? missing value) (h' : Chosen given entry read? missing other) :
    value = other := by
  cases given with
  | some given => exact Eq.trans h (Eq.symm h')
  | none =>
      cases entry with
      | some node => exact Option.some.inj (Eq.trans (Eq.symm h) h')
      | none => exact Eq.trans h (Eq.symm h')

end

/-! ## All settings -/

/-- The policy that a node names. -/
def policy? (node : YamlNode) : Option OverflowPolicy :=
  node.text?.bind OverflowPolicy.ofSpelling?

/-- The format that a node names. -/
def format? (node : YamlNode) : Option PrintFormat :=
  node.text?.bind PrintFormat.ofName?

/-- Settings that are chosen one by one from arguments and a document. -/
structure Layered (a : Arguments) (document : YamlNode) (s : Settings) : Prop where
  maxSize : Chosen a.maxLineSize ((document.value? "decoder").bind (·.value? "max_line_size"))
    (YamlNode.toNat? wordLimit) (64 * 1024) s.limits.maxSize
  overflow : Chosen a.overflow ((document.value? "decoder").bind (·.value? "overflow_mode"))
    policy? .failStream s.limits.overflow
  deadLetterDir : Chosen (a.deadLetterDir.map some) (document.value? "dead_letter_dir")
    readDirectory? none s.deadLetterDir
  output : Chosen a.format (document.value? "output") format? .json s.output

/-- Arguments are one layer more. -/
theorem Layered.overlay {document : YamlNode} {file : Settings} (h : Layered {} document file)
    (a : Arguments) : Layered a document (file.overlay a) where
  maxSize := h.maxSize.overlaid a.maxLineSize
  overflow := h.overflow.overlaid a.overflow
  deadLetterDir := by
    have hchosen := h.deadLetterDir.overlaid (a.deadLetterDir.map some)
    have hor : (file.overlay a).deadLetterDir =
        (a.deadLetterDir.map some).getD file.deadLetterDir := by
      rw [Settings.overlay]
      cases a.deadLetterDir <;> rfl
    rwa [hor]
  output := h.output.overlaid a.format

/-- The layers leave nothing open. -/
theorem Layered.unique {a : Arguments} {document : YamlNode} {s t : Settings}
    (h : Layered a document s) (h' : Layered a document t) : s = t := by
  obtain ⟨⟨maxSize, overflow⟩, directory, output⟩ := s
  obtain ⟨⟨maxSize', overflow'⟩, directory', output'⟩ := t
  obtain rfl : maxSize = maxSize' := h.maxSize.unique h'.maxSize
  obtain rfl : overflow = overflow' := h.overflow.unique h'.overflow
  obtain rfl : directory = directory' := h.deadLetterDir.unique h'.deadLetterDir
  obtain rfl : output = output' := h.output.unique h'.output
  rfl

/-! ## Settling -/

/-- What the settings file says alone, whatever the arguments are. -/
def loaded (parse? : String → Option YamlNode) (config : Option String)
    (read? : String → Option Bytes) : Except SettingsError Settings :=
  match config with
  | none => .ok {}
  | some path => ofFile parse? path (read? path)

variable {parse? : String → Option YamlNode} {config : Option String}
  {read? : String → Option Bytes}

/-- What is checked is what has been chosen. -/
theorem settle_eq (parse? : String → Option YamlNode) (a : Arguments)
    (read? : String → Option Bytes) :
    settle parse? a read? = (loaded parse? a.config read?).bind fun file =>
      (file.overlay a).check.map fun log => (file.overlay a, log) := by
  have hmap (file : Settings) :
      ((file.overlay a).check.bind fun log => .ok (file.overlay a, log)) =
        (file.overlay a).check.map fun log => (file.overlay a, log) := by
    cases (file.overlay a).check <;> rfl
  unfold settle loaded
  cases a.config with
  | none => exact hmap {}
  | some path =>
      cases hfile : ofFile parse? path (read? path) with
      | error error =>
          simp only [hfile]
          rfl
      | ok file =>
          simp only [hfile]
          exact hmap file

/-- What is told of settings that have been checked. -/
def warnings (s : Settings) : List LogRecord :=
  if s.deadLetterDir.isSome = true ∧ s.limits.overflow ≠ .deadLetter then
    [.directoryUnused s.limits.overflow]
  else []

theorem check_eq (s : Settings) :
    s.check = if s.limits.maxSize = 0 then .error (.unfit .zeroSize) else .ok s.warnings := by
  rw [check, LineLimits.check]
  by_cases hzero : s.limits.maxSize = 0
  · simp [hzero]
  · simp [hzero, warnings]

end Settings

end ServerSentEvents
