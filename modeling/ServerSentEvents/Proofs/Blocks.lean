import ServerSentEvents.BlockReader

/-!
# Lines and their blocks

Only a blank line closes a block.  A line that holds a byte is blank to a block reader only where it
is the byte-order mark of the whole stream, and then no field has come yet, so that it closes
nothing.  A line without its terminator is such a line: whether it is taken in or not, the
events are the same.
-/

namespace ServerSentEvents

namespace Field

theorem ofName_ne_blank (name : Name) (value : Bytes) : ofName name value ≠ some .blank := by
  cases name with
  | data => simp [ofName]
  | event => simp [ofName]
  | id =>
      unfold ofName
      dsimp only
      split <;> simp
  | retry => simp [ofName]

/-- Only the empty line is blank. -/
theorem ofLine?_eq_blank_iff {line : Bytes} : ofLine? line = some .blank ↔ line = [] := by
  cases line with
  | nil => simp [ofLine?]
  | cons b rest =>
      refine iff_of_false ?_ (List.cons_ne_nil b rest)
      intro hblank
      simp only [ofLine?] at hblank
      split at hblank
      · cases hblank
      · obtain ⟨name, -, hname⟩ := Option.bind_eq_some_iff.mp hblank
        exact ofName_ne_blank name _ hname

/-- A line with a name before its first colon carries the field of the name and the value. -/
theorem ofLine?_of_split {line : Bytes} {name : Name}
    (hname : Name.ofBytes? (split line).1 = some name) :
    ofLine? line = ofName name (split line).2 := by
  cases line with
  | nil => cases hname
  | cons b rest =>
      have hb : b ≠ Bytes.colon := by
        rintro rfl
        cases hname
      rw [ofLine?, if_neg hb]
      dsimp only
      rw [hname, Option.bind_some]

end Field

namespace BlockReader

/-! ## Lines by parts -/

theorem takeAll_append (r : BlockReader) (a b : List Line) :
    r.takeAll (a ++ b) =
      (((r.takeAll a).1.takeAll b).1, (r.takeAll a).2 ++ ((r.takeAll a).1.takeAll b).2) :=
  Transducer.run_append _ r a b

@[simp] theorem takeAll_nil (r : BlockReader) : r.takeAll [] = (r, []) := rfl

theorem takeAll_cons (r : BlockReader) (line : Line) (lines : List Line) :
    r.takeAll (line :: lines) =
      (((r.take line.bytes).1.takeAll lines).1,
        (r.take line.bytes).2.toList ++ ((r.take line.bytes).1.takeAll lines).2) :=
  Transducer.run_cons _ r line lines

@[simp] theorem abandon_abandon (r : BlockReader) : r.abandon.abandon = r.abandon := rfl

@[simp] theorem lastEventId_abandon (r : BlockReader) :
    r.abandon.lastEventId = r.lastEventId := rfl

/-- The end of the stream is told without a diagnostic. -/
theorem diagnostics_close (r : BlockReader) : Notice.diagnostics r.close.2 = [] := by
  unfold close
  dsimp only
  split <;> rfl

/-! ## Lines that close nothing -/

/-- A reader that no line has reached holds no field. -/
def Sound (r : BlockReader) : Prop :=
  r.begun = false → r.block.isEmpty = true

theorem sound_start : Sound {} := fun _ => rfl

theorem begun_takeField (r : BlockReader) (field : Option Field) :
    (r.takeField field).1.begun = r.begun := by
  unfold takeField closeBlock
  split
  · rfl
  · split <;> rfl
  · rfl

theorem begun_take (r : BlockReader) (line : Bytes) : (r.take line).1.begun = true := by
  unfold take
  split
  · next hbegun => rw [begun_takeField, hbegun]
  · rw [begun_takeField]

theorem sound_take (r : BlockReader) (line : Bytes) : (r.take line).1.Sound := by
  intro hnone
  rw [begun_take] at hnone
  cases hnone

theorem sound_takeAll {r : BlockReader} (hr : r.Sound) (lines : List Line) :
    (r.takeAll lines).1.Sound := by
  induction lines generalizing r with
  | nil => exact hr
  | cons line lines ih =>
      rw [takeAll_cons]
      exact ih (r.sound_take line.bytes)

theorem takeField_some (r : BlockReader) {field : Field} (hfield : field ≠ .blank) :
    r.takeField (some field) = ({ r with block := r.block.add field }, none) := by
  cases field with
  | blank => exact absurd rfl hfield
  | _ => rfl

theorem takeField_of_ne_blank (r : BlockReader) {field : Option Field}
    (hfield : field ≠ some .blank) :
    (r.takeField field).2 = none ∧ (r.takeField field).1.lastEventId = r.lastEventId := by
  unfold takeField
  split
  · exact ⟨rfl, rfl⟩
  · exact absurd rfl hfield
  · exact ⟨rfl, rfl⟩

/-- A blank line closes nothing where no field has come. -/
theorem takeField_of_isEmpty {r : BlockReader} (hempty : r.block.isEmpty = true)
    (field : Option Field) :
    (r.takeField field).2 = none ∧ (r.takeField field).1.lastEventId = r.lastEventId := by
  unfold takeField
  split
  · exact ⟨rfl, rfl⟩
  · simp [closeBlock, hempty]
  · exact ⟨rfl, rfl⟩

/-- A line that holds a byte completes no event, a byte-order mark included. -/
theorem take_of_ne_nil {r : BlockReader} (hr : r.Sound) {line : Bytes} (hline : line ≠ []) :
    (r.take line).2 = none ∧ (r.take line).1.lastEventId = r.lastEventId := by
  cases hbegun : r.begun with
  | true =>
      have hfield : Field.ofLine? line ≠ some .blank := by
        intro hblank
        exact hline (Field.ofLine?_eq_blank_iff.mp hblank)
      simpa [take, hbegun] using r.takeField_of_ne_blank hfield
  | false =>
      -- The mark alone may make the line blank, but then the block is empty.
      have hempty : ({ r with begun := true } : BlockReader).block.isEmpty = true := hr hbegun
      simpa [take, hbegun] using takeField_of_isEmpty hempty (Field.ofLine? (stripMark line))

/-- Lines that hold a byte each complete no event. -/
theorem takeAll_of_ne_nil {r : BlockReader} (hr : r.Sound) {lines : List Line}
    (hlines : ∀ line ∈ lines, line.bytes ≠ []) :
    (r.takeAll lines).2 = [] ∧ (r.takeAll lines).1.lastEventId = r.lastEventId := by
  induction lines generalizing r with
  | nil => exact ⟨rfl, rfl⟩
  | cons line lines ih =>
      have hfirst := take_of_ne_nil hr (hlines line List.mem_cons_self)
      have hrest : ∀ other ∈ lines, other.bytes ≠ [] := by
        intro other hother
        exact hlines other (List.mem_cons_of_mem line hother)
      have hothers := ih (r.sound_take line.bytes) hrest
      rw [takeAll_cons]
      refine ⟨?_, hothers.2.trans hfirst.2⟩
      rw [hfirst.1, hothers.1]
      rfl

end BlockReader

end ServerSentEvents
