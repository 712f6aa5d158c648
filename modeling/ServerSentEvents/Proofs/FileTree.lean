import ServerSentEvents.FileTree

/-!
# Files in a tree

What is written at a path is found there, and stays there while other files are written: writing
takes no directory away, so every path still leads where it led.  A write that fails changes no
other file (`FileTree.put_cases`), and directories that cannot all be made leave those that could
(`FileTree.lookup_makeDirectories`).
-/

namespace ServerSentEvents

/-- Whether a file of so many bytes is written to its end, once it has been opened. -/
def WriteFate.completes (size : Nat) : WriteFate → Bool
  | done => true
  | refused => false
  | cut room => size ≤ room

namespace FileTree

/-! ## What is at a place -/

theorem lookup_insert_of_ne (t : FileTree) {place other : Place} (hne : other ≠ place)
    (node : FileNode) : (t.insert place node).lookup other = t.lookup other := by
  have hentry : ((place, node).1 == other) = false := by simpa using hne.symm
  have hkept : (t.entries.filter (·.1 != place)).find? (·.1 == other) =
      t.entries.find? (·.1 == other) := by
    rw [List.find?_filter]
    congr 1
    funext entry
    by_cases hother : entry.1 = other <;> simp [hother, hne]
  rw [lookup, lookup, insert, List.find?_cons, hentry, hkept]

theorem lookup_insert_self {t : FileTree} {place : Place}
    (hbelow : t.lookup place ≠ some .directory) (node : FileNode) :
    (t.insert place node).lookup place = some node := by
  have hplace : ¬(isAbove place = true ∨ place = root) := by
    intro habove
    exact hbelow (if_pos habove)
  rw [lookup, if_neg hplace]
  simp [insert]

/-! ## Where paths lead -/

/-- A tree that has at least the directories of another. -/
def Extends (t before : FileTree) : Prop :=
  ∀ place, before.lookup place = some .directory → t.lookup place = some .directory

theorem Extends.follow {t before : FileTree} (h : t.Extends before) {place last : Place}
    {names : List String} (hfollow : before.follow place names = some last) :
    t.follow place names = some last := by
  induction names generalizing place with
  | nil => exact hfollow
  | cons name names ih =>
      rw [FileTree.follow] at hfollow ⊢
      split at hfollow
      · next hdirectory =>
          rw [if_pos (h place hdirectory)]
          split at hfollow
          · exact ih hfollow
          · cases hfollow
      · cases hfollow

theorem Extends.place? {t before : FileTree} (h : t.Extends before) {path : String} {place : Place}
    (hplace : before.place? path = some place) : t.place? path = some place := by
  unfold FileTree.place? at hplace ⊢
  split at hplace
  · next hpath =>
      rw [if_pos hpath]
      exact h.follow hplace
  · cases hplace

/-- Trees that have the same directories. -/
def SameDirectories (t before : FileTree) : Prop :=
  t.Extends before ∧ before.Extends t

theorem SameDirectories.place?_eq {t before : FileTree} (h : t.SameDirectories before)
    (path : String) : t.place? path = before.place? path :=
  Option.ext fun _ => ⟨h.2.place?, h.1.place?⟩

theorem SameDirectories.refl (t : FileTree) : t.SameDirectories t :=
  ⟨fun _ => id, fun _ => id⟩

theorem SameDirectories.trans {t middle before : FileTree} (h : t.SameDirectories middle)
    (h' : middle.SameDirectories before) : t.SameDirectories before :=
  ⟨fun place hplace => h.1 place (h'.1 place hplace),
    fun place hplace => h'.2 place (h.2 place hplace)⟩

theorem follow_concat (t : FileTree) (place : Place) (names : List String) (name : String) :
    t.follow place (names ++ [name]) =
      (t.follow place names).bind fun last => t.follow last [name] := by
  induction names generalizing place with
  | nil => rfl
  | cons first names ih =>
      rw [List.cons_append, follow, follow]
      split
      · split
        · exact ih _
        · rfl
      · rfl

theorem contents?_eq_some_iff {t : FileTree} {path : String} {bytes : Bytes} :
    t.contents? path = some bytes ↔
      ∃ place, t.place? path = some place ∧ t.lookup place = some (.file bytes) := by
  rw [contents?, find?]
  cases t.place? path with
  | none => simp
  | some place =>
      cases hnode : t.lookup place with
      | none => simp [hnode]
      | some node => cases node <;> simp [hnode]

/-! ## Writing -/

/-- Writing a file takes no directory away. -/
theorem extends_insert {t : FileTree} {place : Place} (hplace : t.lookup place ≠ some .directory)
    (node : FileNode) : (t.insert place node).Extends t := by
  intro other hother
  have hne : other ≠ place := by
    rintro rfl
    exact hplace hother
  rw [t.lookup_insert_of_ne hne, hother]

/-- Writing a file makes no directory either. -/
theorem sameDirectories_insert {t : FileTree} {place : Place}
    (hplace : t.lookup place ≠ some .directory) (bytes : Bytes) :
    (t.insert place (.file bytes)).SameDirectories t := by
  refine ⟨extends_insert hplace _, ?_⟩
  intro other hother
  by_cases hsame : other = place
  · rw [hsame, lookup_insert_self hplace] at hother
    cases hother
  · rwa [t.lookup_insert_of_ne hsame] at hother

/-- A file cannot be opened for writing: the disk refuses it, or its path leads nowhere or to a
directory. -/
def Unopened (fate : WriteFate) (t : FileTree) (path : String) : Prop :=
  fate = .refused ∨ ∀ place, t.place? path = some place → t.lookup place = some .directory

/-- What writing a file does: nothing, where the file cannot be opened; or else all of its bytes or
only the first of them are at its place. -/
theorem put_cases (fate : WriteFate) (t : FileTree) (path : String) (bytes : Bytes) :
    t.Unopened fate path ∧ t.put fate path bytes = (t, false) ∨
      ¬t.Unopened fate path ∧ ∃ place, t.place? path = some place ∧
        t.lookup place ≠ some .directory ∧
        ((fate.completes bytes.length = true ∧
            t.put fate path bytes = (t.insert place (.file bytes), true)) ∨
          ∃ room, fate = .cut room ∧ room < bytes.length ∧
            t.put fate path bytes = (t.insert place (.file (bytes.take room)), false)) := by
  cases hplace : t.place? path with
  | none => exact Or.inl ⟨Or.inr (by simp [hplace]), by simp [put, hplace]⟩
  | some place =>
      by_cases hfile : t.lookup place = some .directory
      · refine Or.inl ⟨Or.inr fun other hother => ?_, by simp [put, hplace, hfile]⟩
        obtain rfl : place = other := Option.some.inj (hplace.symm.trans hother)
        exact hfile
      · have hopened (hfate : fate ≠ .refused) : ¬t.Unopened fate path := by
          rintro (hrefused | hnowhere)
          · exact hfate hrefused
          · exact hfile (hnowhere place hplace)
        cases fate with
        | refused => exact Or.inl ⟨Or.inl rfl, by simp [put, hplace]⟩
        | done =>
            refine Or.inr ⟨hopened nofun, place, rfl, hfile, Or.inl ⟨rfl, ?_⟩⟩
            simp [put, hplace]
        | cut room =>
            have hput : t.put (.cut room) path bytes =
                (t.insert place (.file (bytes.take room)), decide (bytes.length ≤ room)) := by
              simp [put, hplace]
            refine Or.inr ⟨hopened nofun, place, rfl, hfile, ?_⟩
            by_cases hroom : bytes.length ≤ room
            · left
              refine ⟨by simpa [WriteFate.completes] using hroom, ?_⟩
              rw [hput, List.take_of_length_le hroom, decide_eq_true hroom]
            · right
              refine ⟨room, rfl, Nat.lt_of_not_le hroom, ?_⟩
              rw [hput, decide_eq_false hroom]

/-- A file that was written to its end is at its place. -/
theorem put_eq_true {fate : WriteFate} {t next : FileTree} {path : String} {bytes : Bytes}
    (hput : t.put fate path bytes = (next, true)) :
    ∃ place, t.place? path = some place ∧ t.lookup place ≠ some .directory ∧
      next = t.insert place (.file bytes) := by
  rcases t.put_cases fate path bytes with
    ⟨-, hnone⟩ | ⟨-, place, hplace, hfile, ⟨-, hall⟩ | ⟨room, -, -, hpart⟩⟩
  · simp [hnone] at hput
  · rw [hall] at hput
    exact ⟨place, hplace, hfile, (Prod.mk.inj hput).1.symm⟩
  · simp [hpart] at hput

/-! ## Making directories -/

/-- Directories are made where nothing was, and nothing else is made, also if not all of them can
be made. -/
theorem lookup_makeAlong (mayMake : Place → Bool) (t : FileTree) (place : Place)
    (names : List String) (other : Place) :
    (t.makeAlong mayMake place names).1.lookup other = t.lookup other ∨
      t.lookup other = none ∧
        (t.makeAlong mayMake place names).1.lookup other = some .directory := by
  fun_induction makeAlong mayMake t place names with
  | case1 => exact Or.inl rfl
  | case2 => exact Or.inl rfl
  | case3 t place name names step _ _ ih => exact ih
  | case4 => exact Or.inl rfl
  | case5 t place name names step hstep hnone hmay ih =>
      by_cases hother : other = step
      · subst hother
        have hthere : (t.insert other .directory).lookup other = some .directory :=
          lookup_insert_self (by simp [hnone]) _
        rcases ih with hsame | ⟨hnothing, -⟩
        · exact Or.inr ⟨hnone, hsame.trans hthere⟩
        · rw [hthere] at hnothing
          cases hnothing
      · rwa [t.lookup_insert_of_ne hother .directory] at ih
  | case6 => exact Or.inl rfl

/-- Whether or not a directory can be made, no file is made or changed. -/
theorem lookup_makeDirectories (mayMake : Place → Bool) (t : FileTree) (path : String)
    (other : Place) :
    (t.makeDirectories mayMake path).1.lookup other = t.lookup other ∨
      t.lookup other = none ∧
        (t.makeDirectories mayMake path).1.lookup other = some .directory := by
  unfold makeDirectories
  split
  · exact Or.inl rfl
  split
  · exact Or.inl rfl
  dsimp only
  split
  · exact lookup_makeAlong _ _ _ _ _
  · exact lookup_makeAlong _ _ _ _ _

end FileTree

end ServerSentEvents
