import ServerSentEvents.Proofs.DeadLetter

/-!
# Storing up to the first failure

Whether a letter can be written is settled once its directory is there: files that are written
beside it take nothing away (`FileTree.SameDirectories`).  So diagnostics are stored up to the first
whose letter cannot be written, in whatever order their numbers come and however often, and of the
letters with one number the last is left (`DeadLetter.store_files`).
-/

namespace ServerSentEvents

namespace DeadLetter

/-! ## Letters and their paths -/

/-- The letter that a diagnostic leaves to be stored. -/
def letterOf? (d : Diagnostic) : Option Letter :=
  (letter? d).map (⟨d.lineNumber, ·⟩)

/-- The letters that diagnostics leave, in order. -/
def letters (diagnostics : List Diagnostic) : List Letter :=
  diagnostics.filterMap letterOf?

/-- The last of the letters with a number. -/
def newest? (letters : List Letter) (n : Nat) : Option Letter :=
  letters.reverse.find? (·.number == n)

theorem newest?_concat (letters : List Letter) (letter : Letter) (n : Nat) :
    newest? (letters ++ [letter]) n =
      if letter.number = n then some letter else newest? letters n := by
  rw [newest?, List.reverse_append, List.reverse_singleton, List.singleton_append, List.find?_cons]
  by_cases hsame : letter.number = n
  · simp [hsame]
  · rw [beq_false_of_ne hsame, if_neg hsame, newest?]

/-! ## What has been stored -/

/-- A tree in which letters have been written, one after the other: paths lead where they led, the
last letter with a number is found in the file of that number, and nothing else has changed. -/
structure Filed (made : FileTree) (directory : String) (letters : List Letter) (t : FileTree) :
    Prop where
  directories : t.SameDirectories made
  contents : ∀ n letter, newest? letters n = some letter →
    t.contents? (path directory n) = some letter.bytes
  untouched : ∀ place, (∀ letter ∈ letters,
    made.place? (path directory letter.number) ≠ some place) → t.lookup place = made.lookup place

theorem Filed.start (made : FileTree) (directory : String) : Filed made directory [] made where
  directories := .refl made
  contents := nofun
  untouched _ _ := rfl

/-- One more letter takes the place of an earlier one with its number, and no other. -/
theorem Filed.concat {made t : FileTree} {directory : String} {letters : List Letter}
    (h : Filed made directory letters t) {letter : Letter} {place : Place}
    (hplace : made.place? (path directory letter.number) = some place)
    (hfile : t.lookup place ≠ some .directory) :
    Filed made directory (letters ++ [letter]) (t.insert place (.file letter.bytes)) := by
  have hdirectories := (FileTree.sameDirectories_insert hfile letter.bytes).trans h.directories
  refine ⟨hdirectories, ?_, ?_⟩
  · intro n kept hnewest
    rw [FileTree.contents?_eq_some_iff, hdirectories.place?_eq]
    rw [newest?_concat] at hnewest
    split at hnewest
    · next hnumber =>
        cases hnewest
        exact ⟨place, hnumber ▸ hplace, FileTree.lookup_insert_self hfile _⟩
    · next hnumber =>
        obtain ⟨there, hthere, hkept⟩ :=
          FileTree.contents?_eq_some_iff.mp (h.contents n kept hnewest)
        rw [h.directories.place?_eq] at hthere
        refine ⟨there, hthere, ?_⟩
        rwa [t.lookup_insert_of_ne]
        rintro rfl
        exact hnumber (place?_path_injective hplace hthere)
  · intro other hother
    obtain ⟨hearlier, hlast⟩ := List.forall_mem_append.mp hother
    have hne : other ≠ place := by
      rintro rfl
      exact hlast letter List.mem_cons_self hplace
    rw [t.lookup_insert_of_ne hne, h.untouched other hearlier]

/-- What is logged of a diagnostic that is handled without failure. -/
def records (directory : String) (d : Diagnostic) : List LogRecord :=
  arrival d :: (letterOf? d).toList.map fun letter =>
    .letterWritten (path directory letter.number) letter.bytes.length

/-- What the writer has done when it has handled diagnostics without failure. -/
structure Handled (made : FileTree) (directory : String) (diagnostics : List Diagnostic)
    (p : Progress) : Prop where
  error?_eq : p.error? = none
  written_eq : p.written = (letters diagnostics).length
  log_eq : p.log.toList = diagnostics.flatMap (records directory)
  filed : Filed made directory (letters diagnostics) p.tree

variable {disk : Disk} {made : FileTree} {directory : String} {diagnostics : List Diagnostic}
  {p : Progress} {d : Diagnostic} {letter : Letter}

theorem Handled.start (made : FileTree) (directory : String) :
    Handled made directory [] (.start directory made true) :=
  ⟨rfl, rfl, rfl, .start made directory⟩

end DeadLetter

end ServerSentEvents
