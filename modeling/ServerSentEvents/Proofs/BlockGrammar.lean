import Mathlib.Data.List.DropRight
import ServerSentEvents.Proofs.Blocks

/-!
# The grammar of blocks

What a block reader answers is computed here from the requests made of it, without a state: a block
is what has come since the last cut, and its proper fields make the event.  The reader keeps the
event in parts and remembers apart from them whether a field has come.  `BlockReader.Heard` ties
these to the requests, one more request keeps it (`BlockReader.Heard.respond`), and so every answer
is the grammar's (`BlockReader.respondAll_eq`).
-/

namespace ServerSentEvents

namespace Field

/-- Whether a field makes its block an event. -/
def isProper : Field → Bool
  | .data _ | .event _ | .id _ | .retry _ => true
  | .comment _ | .blank => false

@[simp] def data? : Field → Option String
  | .data text => some text
  | _ => none

@[simp] def event? : Field → Option String
  | .event name => some name
  | _ => none

@[simp] def id? : Field → Option String
  | .id value => some value
  | _ => none

@[simp] def retry? : Field → Option Delay
  | .retry delay => some delay
  | _ => none

/-- A line that adds nothing to its block. -/
inductive Ignored : Bytes → Prop where
  | remark (text : Bytes) : Ignored (Bytes.colon :: text)
  | unknownName {line : Bytes} (hsome : line ≠ [])
      (hname : Name.ofBytes? (split line).1 = none) : Ignored line
  | nullId {line : Bytes} (hname : Name.ofBytes? (split line).1 = some .id)
      (hnull : (0 : UInt8) ∈ (split line).2) : Ignored line
  | noDelay {line : Bytes} (hname : Name.ofBytes? (split line).1 = some .retry)
      (hvalue : retryDelay? (split line).2 = none) : Ignored line

theorem Ignored.ofLine?_eq {line : Bytes} (h : Ignored line) :
    ofLine? line = none ∨ ∃ text, ofLine? line = some (.comment text) := by
  cases h with
  | remark text => exact Or.inr ⟨_, rfl⟩
  | unknownName hsome hname =>
      cases line with
      | nil => exact absurd rfl hsome
      | cons b rest =>
          rw [ofLine?]
          split
          · exact Or.inr ⟨_, rfl⟩
          · dsimp only
            rw [hname]
            exact Or.inl rfl
  | nullId hname hnull =>
      left
      rw [ofLine?_of_split hname, ofName, if_pos (by simpa using hnull)]
  | noDelay hname hvalue =>
      left
      rw [ofLine?_of_split hname, ofName, hvalue, Option.map_none]

end Field

/-- The event of a block with these fields: the values of its data lines are joined by line feeds,
and of every other field the last one counts. -/
def Event.ofFields (fields : List Field) : Event where
  event := (fields.filterMap Field.event?).getLast?
  id := (fields.filterMap Field.id?).getLast?
  retry := (fields.filterMap Field.retry?).getLast?
  data := "\n".intercalate (fields.filterMap Field.data?)

namespace Block

/-! ## Fields of a block -/

/-- Data lines joined by line feeds, if there are any. -/
def joined? (lines : List String) : Option String :=
  if lines = [] then none else some ("\n".intercalate lines)

/-- The block that has taken in these proper fields. -/
def ofFields (fields : List Field) : Block where
  event := (fields.filterMap Field.event?).getLast?
  id := (fields.filterMap Field.id?).getLast?
  retry := (fields.filterMap Field.retry?).getLast?
  data := joined? (fields.filterMap Field.data?)
  hasFields := !fields.isEmpty

@[simp] theorem ofFields_nil : ofFields [] = {} := rfl

theorem joinData_joined? (lines : List String) (line : String) :
    some (joinData (joined? lines) line) = joined? (lines ++ [line]) := by
  by_cases hnone : lines = []
  · simp [hnone, joined?, joinData]
  · simp [joined?, hnone, joinData, String.intercalate_append_of_ne_nil]

/-- A proper field adds to the fields of the block. -/
theorem add_ofFields (fields : List Field) {field : Field} (hproper : field.isProper = true) :
    (ofFields fields).add field = ofFields (fields ++ [field]) := by
  unfold ofFields
  simp only [List.filterMap_append]
  cases field with
  | data text => simp [add, List.filterMap_cons, joinData_joined?]
  | event name => simp [add, List.filterMap_cons]
  | id value => simp [add, List.filterMap_cons]
  | retry delay => simp [add, List.filterMap_cons]
  | comment text => cases hproper
  | blank => cases hproper

theorem add_of_not_isProper (b : Block) {field : Field} (hother : field.isProper = false) :
    b.add field = b := by
  cases field with
  | comment text => rfl
  | blank => rfl
  | _ => cases hother

theorem toEvent_ofFields (fields : List Field) :
    (ofFields fields).toEvent = Event.ofFields fields := by
  unfold ofFields toEvent Event.ofFields joined?
  split
  · next hnone => simp [hnone]
  · rfl

end Block

namespace BlockReader

/-! ## Requests -/

/-- What can be asked of a block reader. -/
inductive Request where
  | take (line : Bytes)
  | abandon
  | close

/-- Does what is asked, and answers with the event that this completes. -/
def respond (r : BlockReader) : Request → BlockReader × Option Event
  | .take line => r.take line
  | .abandon => (r.abandon, none)
  | .close => (r.close.1, none)

def respondAll (r : BlockReader) (requests : List Request) : BlockReader × List (Option Event) :=
  Transducer.run (fun r request => ((r.respond request).1, [(r.respond request).2])) r requests

namespace Request

def isTake : Request → Bool
  | .take _ => true
  | _ => false

/-- The request without a byte-order mark before its line. -/
def unmarked : Request → Request
  | .take line => .take (stripMark line)
  | request => request

/-- The requests without a byte-order mark before the first of their lines. -/
def unmarkFirst : List Request → List Request
  | [] => []
  | .take line :: rest => .take (stripMark line) :: rest
  | request :: rest => request :: unmarkFirst rest

/-- The field of the line that is handed in. -/
def field? : Request → Option Field
  | .take line => Field.ofLine? line
  | _ => none

/-- Whether the block that was open is over: a blank line closes it, and it may be thrown away. -/
def isCut : Request → Bool
  | .take line => Field.ofLine? line == some .blank
  | _ => true

/-- The proper fields of the lines since the last cut. -/
def openFields (requests : List Request) : List Field :=
  ((requests.rtakeWhile (!·.isCut)).filterMap field?).filter Field.isProper

/-- The answer to a request after others: a blank line completes the event of the proper fields
before it, if there are any. -/
def answer? (earlier : List Request) : Request → Option Event
  | .take line =>
    if Field.ofLine? line = some .blank ∧ openFields earlier ≠ [] then
      some (Event.ofFields (openFields earlier))
    else none
  | _ => none

theorem unmarkFirst_concat (requests : List Request) (request : Request) :
    unmarkFirst (requests ++ [request]) =
      unmarkFirst requests ++ [if requests.any isTake then request else request.unmarked] := by
  induction requests with
  | nil => cases request <;> rfl
  | cons first rest ih =>
      cases first with
      | take line => simp [unmarkFirst, isTake]
      | abandon => simp [unmarkFirst, isTake, ih]
      | close => simp [unmarkFirst, isTake, ih]

theorem openFields_concat_of_isCut (requests : List Request) {request : Request}
    (hcut : request.isCut = true) : openFields (requests ++ [request]) = [] := by
  simp [openFields, hcut]

theorem openFields_concat_of_not_isCut (requests : List Request) {request : Request}
    (hcut : request.isCut = false) :
    openFields (requests ++ [request]) =
      openFields requests ++ request.field?.toList.filter Field.isProper := by
  cases hfield : request.field? <;>
    simp [openFields, hcut, hfield]

end Request

open Request

/-! ## The invariant of answering -/

/-- A line leaves of the open block what the grammar leaves of it, and completes the event of the
grammar. -/
theorem takeField_ofLine? {r : BlockReader} {earlier : List Request}
    (hblock : r.block = Block.ofFields (openFields earlier)) (line : Bytes) :
    (r.takeField (Field.ofLine? line)).1.block =
        Block.ofFields (openFields (earlier ++ [.take line])) ∧
      (r.takeField (Field.ofLine? line)).2 = answer? earlier (.take line) := by
  cases hfield : Field.ofLine? line with
  | none =>
      have hgoing : (Request.take line).isCut = false := by simp [isCut, hfield]
      rw [openFields_concat_of_not_isCut earlier hgoing]
      simp [takeField, answer?, field?, hfield, hblock]
  | some field =>
      by_cases hblank : field = .blank
      · subst hblank
        have hcut : (Request.take line).isCut = true := by simp [isCut, hfield]
        rw [openFields_concat_of_isCut earlier hcut]
        by_cases hnone : openFields earlier = []
        · simp [takeField, closeBlock, answer?, hfield, hblock, hnone, Block.isEmpty]
        · have hsome : (Block.ofFields (openFields earlier)).isEmpty = false := by
            simp [Block.ofFields, Block.isEmpty, hnone]
          simp [takeField, closeBlock, answer?, hfield, hsome, hblock, hnone,
            Block.toEvent_ofFields]
      · have hgoing : (Request.take line).isCut = false := by simp [isCut, hfield, hblank]
        rw [openFields_concat_of_not_isCut earlier hgoing, takeField_some r hblank]
        cases hproper : field.isProper with
        | true =>
            simp [answer?, field?, hfield, hblank, hproper, hblock, Block.add_ofFields]
        | false =>
            simp [answer?, field?, hfield, hblank, hproper, hblock, Block.add_of_not_isProper]

/-- A block reader has been asked for these requests from its start. -/
structure Heard (requests : List Request) (r : BlockReader) : Prop where
  block_eq : r.block = Block.ofFields (openFields (unmarkFirst requests))
  begun_eq : r.begun = requests.any isTake

theorem Heard.start : Heard [] {} where
  block_eq := rfl
  begun_eq := rfl

theorem take_eq_takeField (r : BlockReader) (line : Bytes) :
    r.take line =
      { r with begun := true }.takeField
        (Field.ofLine? (if r.begun then line else stripMark line)) := by
  unfold take
  split
  · next hbegun => rw [← hbegun]
  · rfl

/-- One more request keeps the invariant, and is answered as the grammar says. -/
theorem Heard.respond {requests : List Request} {r : BlockReader} (h : Heard requests r)
    (request : Request) :
    Heard (requests ++ [request]) (r.respond request).1 ∧
      (r.respond request).2 =
        answer? (unmarkFirst requests)
          (if requests.any isTake then request else request.unmarked) := by
  have hconcat := unmarkFirst_concat requests request
  cases request with
  | take line =>
      have hheard :
          (if requests.any isTake then Request.take line else (Request.take line).unmarked) =
            .take (if requests.any isTake then line else stripMark line) := by
        split <;> rfl
      rw [hheard] at hconcat ⊢
      obtain ⟨hblock, hanswer⟩ :=
        takeField_ofLine? (r := { r with begun := true }) h.block_eq
          (if requests.any isTake then line else stripMark line)
      rw [BlockReader.respond, take_eq_takeField, h.begun_eq]
      refine ⟨⟨?_, ?_⟩, hanswer⟩
      · rw [hblock, hconcat]
      · rw [begun_takeField]
        simp [isTake]
  | abandon =>
      have hheard : (if requests.any isTake then Request.abandon else Request.abandon.unmarked) =
          .abandon := by split <;> rfl
      rw [hheard] at hconcat ⊢
      refine ⟨⟨?_, ?_⟩, rfl⟩
      · rw [hconcat, openFields_concat_of_isCut _ rfl]
        rfl
      · simp [BlockReader.respond, abandon, h.begun_eq, isTake]
  | close =>
      have hheard : (if requests.any isTake then Request.close else Request.close.unmarked) =
          .close := by split <;> rfl
      rw [hheard] at hconcat ⊢
      refine ⟨⟨?_, ?_⟩, rfl⟩
      · rw [hconcat, openFields_concat_of_isCut _ rfl]
        rfl
      · simp [BlockReader.respond, close, abandon, h.begun_eq, isTake]

theorem respondAll_append (r : BlockReader) (a b : List Request) :
    r.respondAll (a ++ b) =
      (((r.respondAll a).1.respondAll b).1,
        (r.respondAll a).2 ++ ((r.respondAll a).1.respondAll b).2) :=
  Transducer.run_append _ r a b

theorem respondAll_concat (r : BlockReader) (requests : List Request) (request : Request) :
    r.respondAll (requests ++ [request]) =
      (((r.respondAll requests).1.respond request).1,
        (r.respondAll requests).2 ++ [((r.respondAll requests).1.respond request).2]) := by
  rw [respondAll_append]
  rfl

theorem Heard.respondAll (requests : List Request) :
    Heard requests (({} : BlockReader).respondAll requests).1 := by
  induction requests using List.reverseRecOn with
  | nil => exact Heard.start
  | append_singleton requests request ih =>
      rw [respondAll_concat]
      exact (ih.respond request).1

theorem length_unmarkFirst (requests : List Request) :
    (unmarkFirst requests).length = requests.length := by
  induction requests with
  | nil => rfl
  | cons first rest ih => cases first <;> simp [unmarkFirst, ih]

theorem length_respondAll (r : BlockReader) (requests : List Request) :
    (r.respondAll requests).2.length = requests.length := by
  induction requests using List.reverseRecOn with
  | nil => rfl
  | append_singleton requests request ih => simp [respondAll_concat, ih]

/-- Every answer of a run is the grammar's answer to what was asked before. -/
theorem getElem?_respondAll (requests : List Request) (k : Nat) :
    (({} : BlockReader).respondAll requests).2[k]? =
      (unmarkFirst requests)[k]?.map (answer? ((unmarkFirst requests).take k)) := by
  induction requests using List.reverseRecOn with
  | nil => rfl
  | append_singleton requests request ih =>
      have hlength := length_unmarkFirst requests
      have hran := length_respondAll {} requests
      have hanswer := ((Heard.respondAll requests).respond request).2
      rw [respondAll_concat, unmarkFirst_concat, hanswer]
      rcases Nat.lt_trichotomy k requests.length with hlt | rfl | hgt
      · rw [List.getElem?_append_left (by omega), List.getElem?_append_left (by omega),
          List.take_append_of_le_length (by omega), ih]
      · rw [List.getElem?_append_right (by omega), List.getElem?_append_right (by omega)]
        rw [hran, hlength, Nat.sub_self, List.take_left' hlength]
        rfl
      · rw [List.getElem?_eq_none (by simp; omega), List.getElem?_eq_none (by simp; omega)]
        rfl

theorem isCut_unmarked {request : Request} (hcut : request.isCut = true) :
    request.unmarked.isCut = true := by
  cases request with
  | take line =>
      obtain rfl : line = [] := Field.ofLine?_eq_blank_iff.mp (by simpa [isCut] using hcut)
      rfl
  | _ => rfl

/-- After a cut the open block is empty, and a further blank line closes nothing. -/
theorem Heard.respond_of_isCut {requests : List Request} {r : BlockReader}
    (h : Heard requests r) {cut : Request} (hcut : cut.isCut = true) :
    (r.respond cut).1.block = {} ∧ ((r.respond cut).1.take []).2 = none := by
  have hblock : (r.respond cut).1.block = {} := by
    rw [(h.respond cut).1.block_eq, unmarkFirst_concat, openFields_concat_of_isCut]
    · rfl
    · split
      · exact hcut
      · exact isCut_unmarked hcut
  refine ⟨hblock, ?_⟩
  have hblank : (if (r.respond cut).1.begun then ([] : Bytes) else stripMark []) = [] := by
    split <;> rfl
  rw [take_eq_takeField, hblank]
  simp [Field.ofLine?, takeField, closeBlock, hblock, Block.isEmpty]

/-- A block reader holds a field exactly if the grammar leaves one open. -/
theorem Heard.holdsField_iff {requests : List Request} {r : BlockReader} (h : Heard requests r) :
    r.holdsField = true ↔ openFields (unmarkFirst requests) ≠ [] := by
  rw [holdsField, h.block_eq]
  simp [Block.isEmpty, Block.ofFields]

/-- Every answer of a block reader is the grammar's: a blank line completes the event of the proper
fields since the last cut, if there are any, and nothing else completes one.  The reader holds a
field exactly if there are any since the last cut.  Lines that the grammar ignores change nothing,
and after a cut nothing is left of the block before it. -/
theorem respondAll_eq (requests : List Request) :
    let heard := unmarkFirst requests
    let ran := ({} : BlockReader).respondAll requests
    (∀ k, ran.2[k]? = heard[k]?.map (answer? (heard.take k))) ∧
      (ran.1.holdsField = true ↔ openFields heard ≠ []) ∧
      (∀ line, Field.Ignored (if ran.1.begun then line else stripMark line) →
        ran.1.take line = ({ ran.1 with begun := true }, none)) ∧
      ∀ cut, cut.isCut = true →
        (ran.1.respond cut).1.block = {} ∧ ((ran.1.respond cut).1.take []).2 = none := by
  have h := Heard.respondAll requests
  refine ⟨getElem?_respondAll requests, h.holdsField_iff, ?_, ?_⟩
  · intro line hignored
    rw [take_eq_takeField]
    rcases hignored.ofLine?_eq with hnone | ⟨text, hcomment⟩
    · rw [hnone]
      rfl
    · rw [hcomment]
      rfl
  · intro cut hcut
    exact h.respond_of_isCut hcut

/-- The mark before the first line is no part of it, an empty data line is a line of the data, and
neither a remark nor an id that holds a NUL changes anything. -/
theorem respondAll_eq_of_mark :
    let lines : List Bytes := [byteOrderMark ++ Utf8.encode "data", Utf8.encode "data: b",
      Utf8.encode ": remark", Utf8.encode "id", []]
    let requests := lines.map Request.take ++ [.take (Utf8.encode "data: c")]
    let ran := ({} : BlockReader).respondAll requests
    ran.2[4]? = some (some ⟨none, some "", none, "\nb"⟩) ∧ ran.2[5]? = some none ∧
      ran.1.holdsField = true ∧
      ran.1.take (Utf8.encode "id: \x00") = ({ ran.1 with begun := true }, none) ∧
      (ran.1.respond .abandon).1.block = {} := by
  intro lines requests ran
  obtain ⟨hanswers, hholds, hignored, hcut⟩ := respondAll_eq requests
  have hnull := hignored (Utf8.encode "id: \x00") (.nullId (by decide +kernel) (by decide +kernel))
  exact ⟨(hanswers 4).trans (by decide +kernel), (hanswers 5).trans (by decide +kernel),
    hholds.mpr (by decide +kernel), hnull, (hcut .abandon rfl).1⟩

end BlockReader

end ServerSentEvents
