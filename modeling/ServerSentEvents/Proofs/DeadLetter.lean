import Mathlib.Data.List.Induction
import Mathlib.Logic.Function.Basic
import ServerSentEvents.DeadLetter
import ServerSentEvents.Proofs.Decimal
import ServerSentEvents.Proofs.FileTree

/-!
# Dead letters and their files

The path of a dead letter leads to the directory and then to a name that no other line has.  So
letters with different numbers get different files, and every file keeps its letter
(`DeadLetter.Stored`).
-/

namespace ServerSentEvents

namespace DeadLetter

/-! ## Names -/

theorem toList_letterName (n : Nat) :
    (letterName n).toList = "line-".toList ++ (Decimal.padded 10 n).toList ++ ".bin".toList := by
  simp [letterName]

/-- No two lines have a name in common, however long their numbers are. -/
theorem letterName_injective : Function.Injective letterName := by
  intro a b hnames
  have hlists := congrArg String.toList hnames
  rw [toList_letterName, toList_letterName] at hlists
  have hnumerals := List.append_cancel_left (List.append_cancel_right hlists)
  rw [← Decimal.ofDigitChars_padded 10 a, hnumerals, Decimal.ofDigitChars_padded]

theorem slash_not_mem_letterName (n : Nat) : '/' ∉ (letterName n).toList := by
  have hdigits : '/' ∉ (Decimal.padded 10 n).toList := by
    intro hslash
    exact absurd (Decimal.isDigit_of_mem_padded hslash) (by decide)
  simp [toList_letterName, hdigits]

/-- The name of a dead letter leads on from a directory, and not back, unless it is too long. -/
theorem advance_letterName (base : Place) (n : Nat) :
    FileTree.advance base (letterName n) =
      if (letterName n).utf8ByteSize ≤ FileTree.longestName then some (base ++ [letterName n])
      else none := by
  have hidle : FileTree.isIdle (letterName n) = false := by
    simp [FileTree.isIdle, ← String.toList_inj, toList_letterName]
  have hback : letterName n ≠ ".." := by
    simp [← String.toList_inj, toList_letterName]
  rw [FileTree.advance, hidle, if_neg Bool.false_ne_true, if_neg hback]

/-! ## Paths -/

/-- A slash and a name after a path are one more step of it. -/
theorem exists_steps_of_slash (cs : List Char) :
    ∃ start names,
      (∀ path : String, path.toList = cs → cs ≠ [] → FileTree.steps path = (start, names)) ∧
      ∀ path name : String, path.toList = cs ++ '/' :: name.toList →
        '/' ∉ name.toList → FileTree.steps path = (start, names ++ [name]) := by
  have hlast {name : String} (hname : '/' ∉ name.toList) :
      (Text.pieces '/' name.toList).map String.ofList = [name] := by
    simp [Text.pieces_of_not_mem hname]
  by_cases hroot : ∃ rest, cs = '/' :: rest
  · obtain ⟨rest, rfl⟩ := hroot
    refine ⟨FileTree.root, (Text.pieces '/' rest).map String.ofList, ?_, ?_⟩
    · intro path hpath _
      simp only [FileTree.steps, hpath]
    · intro path name hpath hname
      rw [FileTree.steps, hpath, List.cons_append]
      simp only [Text.pieces_append, List.map_append, hlast hname]
  · cases cs with
    | nil =>
        refine ⟨FileTree.root, [], fun path hpath hsome => absurd rfl hsome, ?_⟩
        intro path name hpath hname
        rw [FileTree.steps, hpath, List.nil_append]
        simp only [hlast hname, List.nil_append]
    | cons c rest =>
        have hother (later : List Char) (rest' : List Char) :
            c :: rest ++ later ≠ '/' :: rest' := by
          intro heq
          exact hroot ⟨rest, by rw [(List.cons.inj heq).1]⟩
        refine ⟨[], (Text.pieces '/' (c :: rest)).map String.ofList, ?_, ?_⟩
        · intro path hpath _
          rw [FileTree.steps, hpath]
          split
          · next heq => exact absurd heq (by simpa using hother [] _)
          · rfl
        · intro path name hpath hname
          rw [FileTree.steps, hpath]
          split
          · next heq => exact absurd heq (hother _ _)
          · rw [Text.pieces_append, List.map_append, hlast hname]

/-- The path of a name in a directory leads through the directory, and from there to the name.  A
slash at the end of the directory is one idle step less. -/
theorem exists_steps_joinPath (directory : String) :
    ∃ start names,
      (directory = "" ∧ start = [] ∧ names = [] ∨ directory ≠ "" ∧
        (FileTree.steps directory = (start, names) ∨
          FileTree.steps directory = (start, names ++ [""]))) ∧
      ∀ name : String, '/' ∉ name.toList →
        FileTree.steps (joinPath directory name) = (start, names ++ [name]) := by
  by_cases hnone : directory.toList = []
  · have hempty : directory = "" := String.toList_inj.mp hnone
    refine ⟨[], [], Or.inl ⟨hempty, rfl, rfl⟩, ?_⟩
    intro name hname
    have hpath : joinPath directory name = name := by simp [joinPath, hempty]
    rw [hpath, FileTree.steps]
    split
    · next heq => simp [heq] at hname
    · simp [Text.pieces_of_not_mem hname]
  · have hsome : directory ≠ "" := fun hempty => hnone (String.toList_inj.mpr hempty)
    by_cases hslash : directory.toList.getLast? = some '/'
    · obtain ⟨cs, hcs⟩ := List.getLast?_eq_some_iff.mp hslash
      obtain ⟨start, names, -, hsteps⟩ := exists_steps_of_slash cs
      have hidle := hsteps directory "" (by simpa using hcs) (by simp)
      refine ⟨start, names, Or.inr ⟨hsome, Or.inr hidle⟩,
        fun name hname => hsteps _ name ?_ hname⟩
      simp [joinPath, hcs]
    · obtain ⟨start, names, hdirectory, hsteps⟩ := exists_steps_of_slash directory.toList
      refine ⟨start, names, Or.inr ⟨hsome, Or.inl (hdirectory directory rfl hnone)⟩,
        fun name hname => hsteps _ name ?_ hname⟩
      simp [joinPath, hslash, hsome]

/-- In one tree the paths of dead letters lead to one directory, and there to their names. -/
theorem exists_place?_path (t : FileTree) (directory : String) :
    ∃ base, ∀ n place, t.place? (path directory n) = some place →
      place = base ++ [letterName n] := by
  obtain ⟨start, names, -, hsteps⟩ := exists_steps_joinPath directory
  refine ⟨(t.follow start names).getD [], ?_⟩
  intro n place hplace
  rw [FileTree.place?, path, hsteps _ (slash_not_mem_letterName n)] at hplace
  split at hplace
  · dsimp only at hplace
    rw [FileTree.follow_concat] at hplace
    obtain ⟨base, hbase, hlast⟩ := Option.bind_eq_some_iff.mp hplace
    rw [hbase, Option.getD_some]
    rw [FileTree.follow, advance_letterName] at hlast
    split at hlast
    · split at hlast
      · next next hadvance =>
          obtain ⟨-, hnext⟩ := Option.ite_none_right_eq_some.mp hadvance
          exact (Option.some.inj hlast).symm.trans (Option.some.inj hnext).symm
      · cases hlast
    · cases hlast
  · cases hplace

theorem place?_path_injective {t : FileTree} {directory : String} {a b : Nat} {place : Place}
    (ha : t.place? (path directory a) = some place)
    (hb : t.place? (path directory b) = some place) : a = b := by
  obtain ⟨base, hbase⟩ := exists_place?_path t directory
  have hnames := (hbase a place ha).symm.trans (hbase b place hb)
  exact letterName_injective (List.cons.inj (List.append_cancel_left hnames)).1

/-! ## Storing -/

variable {disk : Disk}

namespace Progress

theorem handle_of_error {p : Progress} (hfailed : p.error? ≠ none) (directory : String)
    (d : Diagnostic) : p.handle disk directory d = p := by
  obtain ⟨error, herror⟩ := Option.ne_none_iff_exists'.mp hfailed
  simp [handle, arrive, herror]

/-- A letter is logged when it arrives, and its file is written in its turn. -/
theorem handle_of_some {p : Progress} (hgoing : p.error? = none) (directory : String)
    {d : Diagnostic} {bytes : Bytes} (hletter : letter? d = some bytes) {tree : FileTree}
    {isWritten : Bool}
    (hput : p.tree.put (disk.fate p.written) (path directory d.lineNumber) bytes =
      (tree, isWritten)) :
    p.handle disk directory d =
      { p with tree, log := p.log.push (arrival d) }.note (path directory d.lineNumber)
        bytes.length isWritten := by
  simp [handle, arrive, hgoing, hletter, hput]

theorem foldl_handle_of_error {p : Progress} (hfailed : p.error? ≠ none) (directory : String)
    (diagnostics : List Diagnostic) :
    diagnostics.foldl (handle disk directory) p = p := by
  induction diagnostics with
  | nil => rfl
  | cons d diagnostics ih => rw [List.foldl_cons, handle_of_error hfailed, ih]

theorem error?_of_handle {p : Progress} {directory : String} {d : Diagnostic}
    (hstored : (p.handle disk directory d).error? = none) : p.error? = none := by
  by_cases hfailed : p.error? = none
  · exact hfailed
  · rwa [handle_of_error hfailed] at hstored

end Progress

theorem store_append (disk : Disk) (tree : FileTree) (directory : String)
    (a b : List Diagnostic) :
    store disk tree directory (a ++ b) =
      b.foldl (Progress.handle disk directory) (store disk tree directory a) := by
  unfold store
  dsimp only
  rw [List.foldl_append]

/-- A line that is to be stored. -/
structure Letter where
  number : Nat
  bytes : Bytes
  deriving DecidableEq, Repr

/-- The diagnostic that carries a letter. -/
def Letter.diagnostic (letter : Letter) : Diagnostic :=
  ⟨.deadLetter, letter.number, letter.bytes.length, some letter.bytes⟩

theorem Progress.handle_letter {p : Progress} {directory : String} {letter : Letter}
    (hstored : (p.handle disk directory letter.diagnostic).error? = none) :
    p.tree.put (disk.fate p.written) (path directory letter.number) letter.bytes =
        ((p.handle disk directory letter.diagnostic).tree, true) ∧
      (p.handle disk directory letter.diagnostic).written = p.written + 1 := by
  obtain ⟨tree, isWritten, hput⟩ : ∃ tree isWritten, p.tree.put (disk.fate p.written)
      (path directory letter.number) letter.bytes = (tree, isWritten) := ⟨_, _, rfl⟩
  have hletter : letter? letter.diagnostic = some letter.bytes := rfl
  have hhandle := handle_of_some (error?_of_handle hstored) directory hletter hput
  rw [hhandle] at hstored ⊢
  cases isWritten with
  | false => cases hstored
  | true => exact ⟨hput, rfl⟩

/-- What is left of a tree in which letters have been stored: every letter has a file that holds
it, and nothing else is new but directories. -/
structure Stored (before : FileTree) (directory : String) (letters : List Letter) (p : Progress) :
    Prop where
  written_eq : p.written = letters.length
  contents : ∀ letter ∈ letters,
    p.tree.contents? (path directory letter.number) = some letter.bytes
  created : ∀ place, p.tree.lookup place ≠ before.lookup place →
    p.tree.lookup place = some .directory ∨ ∃ letter ∈ letters,
      p.tree.place? (path directory letter.number) = some place ∧
        p.tree.lookup place = some (.file letter.bytes)

/-- Letters with different numbers get different files. -/
theorem Stored.place?_ne {before : FileTree} {directory : String} {letters : List Letter}
    {p : Progress} (h : Stored before directory letters p)
    (hapart : (letters.map (·.number)).Nodup) :
    letters.Pairwise fun a b =>
      p.tree.place? (path directory a.number) ≠ p.tree.place? (path directory b.number) := by
  have hplace : ∀ letter ∈ letters, ∃ place,
      p.tree.place? (path directory letter.number) = some place := by
    intro letter hletter
    obtain ⟨place, hplace, -⟩ := FileTree.contents?_eq_some_iff.mp (h.contents letter hletter)
    exact ⟨place, hplace⟩
  refine (List.pairwise_map.mp hapart).imp_of_mem ?_
  intro a b ha hb hne hsame
  obtain ⟨place, hplace⟩ := hplace a ha
  exact hne (place?_path_injective hplace (hsame ▸ hplace))

theorem Stored.concat {before : FileTree} {directory : String} {letters : List Letter}
    {p : Progress} (h : Stored before directory letters p) {letter : Letter}
    (hfresh : letter.number ∉ letters.map (·.number))
    (hstored : (p.handle disk directory letter.diagnostic).error? = none) :
    Stored before directory (letters ++ [letter]) (p.handle disk directory letter.diagnostic) := by
  obtain ⟨hput, hwritten⟩ := Progress.handle_letter hstored
  obtain ⟨place, hplace, hfile, hnext⟩ := FileTree.put_eq_true hput
  have hextends : (p.handle disk directory letter.diagnostic).tree.Extends p.tree := by
    rw [hnext]
    exact FileTree.extends_insert hfile _
  have hnew : (p.handle disk directory letter.diagnostic).tree.lookup place =
      some (.file letter.bytes) := by
    rw [hnext]
    exact FileTree.lookup_insert_self hfile _
  have hother : ∀ other, other ≠ place →
      (p.handle disk directory letter.diagnostic).tree.lookup other = p.tree.lookup other := by
    intro other hne
    rw [hnext]
    exact p.tree.lookup_insert_of_ne hne _
  refine ⟨?_, ?_, ?_⟩
  · rw [hwritten, h.written_eq, List.length_append, List.length_singleton]
  · intro kept hmem
    rw [FileTree.contents?_eq_some_iff]
    rcases List.mem_append.mp hmem with hold | hlast
    · obtain ⟨there, hthere, hkept⟩ := FileTree.contents?_eq_some_iff.mp (h.contents kept hold)
      refine ⟨there, hextends.place? hthere, ?_⟩
      rwa [hother]
      rintro rfl
      have hsame := place?_path_injective hthere hplace
      exact hfresh (hsame ▸ List.mem_map_of_mem hold)
    · obtain rfl : kept = letter := List.mem_singleton.mp hlast
      exact ⟨place, hextends.place? hplace, hnew⟩
  · intro other hchanged
    by_cases hsame : other = place
    · subst hsame
      exact Or.inr ⟨letter, by simp, hextends.place? hplace, hnew⟩
    · rw [hother other hsame] at hchanged ⊢
      rcases h.created other hchanged with hdirectory | ⟨old, hold, hthere, hfile'⟩
      · exact Or.inl hdirectory
      · exact Or.inr ⟨old, List.mem_append_left _ hold, hextends.place? hthere, hfile'⟩

/-- Letters with different numbers are all stored, unless one of them cannot be. -/
theorem stored_store {tree : FileTree} {directory : String} {letters : List Letter}
    (hapart : (letters.map (·.number)).Nodup)
    (hstored : (store disk tree directory (letters.map (·.diagnostic))).error? = none) :
    Stored tree directory letters (store disk tree directory (letters.map (·.diagnostic))) := by
  induction letters using List.reverseRecOn with
  | nil =>
      refine ⟨rfl, nofun, ?_⟩
      intro place hchanged
      have hmade := tree.lookup_makeDirectories disk.mayMake directory place
      exact Or.inl (hmade.resolve_left hchanged).2
  | append_singleton letters letter ih =>
      rw [List.map_append, List.map_singleton, store_append, List.foldl_cons, List.foldl_nil]
        at hstored ⊢
      rw [List.map_append, List.map_singleton, List.nodup_append] at hapart
      exact (ih hapart.1 (Progress.error?_of_handle hstored)).concat
        (fun hmem => hapart.2.2 _ hmem _ List.mem_cons_self rfl) hstored

end DeadLetter

end ServerSentEvents
