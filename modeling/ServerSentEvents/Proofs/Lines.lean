import Mathlib.Data.List.Induction
import ServerSentEvents.Bytes

/-!
# The lines of a byte string

The grammar of lines is stated here for whole byte strings, without states or chunks.  A carriage
return right before a line feed forms one terminator with it; every other carriage return, and
every line feed, ends a line.  `Bytes.cut_concat_cases` says what one more byte at the end changes,
which is what a reader of a growing stream has to follow.  The terminators begin at `Bytes.ends`,
and what stands before one of them is the lines before it and its own line.
-/

namespace ServerSentEvents

/-- What is left of a list begins with an element for which the condition fails. -/
theorem eq_false_of_dropWhile {α : Type} {p : α → Bool} {l rest : List α} {a : α}
    (hrest : l.dropWhile p = a :: rest) : p a = false := by
  have hhead := List.head_dropWhile_not p (l := l) (by simp [hrest])
  simpa [hrest] using hhead

namespace Bytes

/-- Puts a byte before the first of the ended lines, or before the rest where none has ended. -/
def consFirst (b : UInt8) : List Bytes × Bytes → List Bytes × Bytes
  | ([], rest) => ([], b :: rest)
  | (first :: others, rest) => ((b :: first) :: others, rest)

/-- The lines that end in a byte string, and the bytes after the last of them. -/
def cut : Bytes → List Bytes × Bytes
  | [] => ([], [])
  | b :: rest =>
    if b = carriageReturn ∧ rest.head? = some lineFeed then cut rest
    else if isTerminator b then ([] :: (cut rest).1, (cut rest).2)
    else consFirst b (cut rest)

/-- The terminated lines of a byte string, without their terminators. -/
def lines (bytes : Bytes) : List Bytes :=
  (cut bytes).1

/-- The unterminated rest of a byte string. -/
def remainder (bytes : Bytes) : Bytes :=
  (cut bytes).2

@[simp] theorem lines_nil : lines [] = [] := rfl

@[simp] theorem remainder_nil : remainder [] = [] := rfl

theorem consFirst_append_line (b : UInt8) (p : List Bytes × Bytes) :
    consFirst b (p.1 ++ [p.2], []) = ((consFirst b p).1 ++ [(consFirst b p).2], []) := by
  rcases p with ⟨_ | ⟨first, others⟩, rest⟩ <;> rfl

theorem consFirst_append_byte (b c : UInt8) (p : List Bytes × Bytes) :
    consFirst b (p.1, p.2 ++ [c]) = ((consFirst b p).1, (consFirst b p).2 ++ [c]) := by
  rcases p with ⟨_ | ⟨first, others⟩, rest⟩ <;> rfl

/-- Unless the two bytes at the end form one terminator, a byte at the end leaves it open which
carriage returns have their line feed. -/
theorem head?_concat_iff (b c : UInt8) (rest : Bytes)
    (hapart : ¬(b = carriageReturn ∧ rest = [] ∧ c = lineFeed)) :
    (b = carriageReturn ∧ (rest ++ [c]).head? = some lineFeed) ↔
      (b = carriageReturn ∧ rest.head? = some lineFeed) := by
  cases rest with
  | nil =>
      constructor
      · rintro ⟨hb, hc⟩
        exact absurd ⟨hb, rfl, by simpa using hc⟩ hapart
      · rintro ⟨hb, hc⟩
        simp at hc
  | cons d rest => rfl

theorem cut_concat_of_not_isTerminator (bytes : Bytes) {c : UInt8}
    (hc : isTerminator c = false) :
    cut (bytes ++ [c]) = ((cut bytes).1, (cut bytes).2 ++ [c]) := by
  have hfeed := isTerminator_eq_false_iff.mp hc
  induction bytes with
  | nil => simp [cut, hc, hfeed.2, consFirst]
  | cons b rest ih =>
      have hhead := head?_concat_iff b c rest fun h => hfeed.1 h.2.2
      rw [List.cons_append, cut, cut, ih]
      simp only [hhead]
      split
      · rfl
      · split
        · rfl
        · exact consFirst_append_byte b c (cut rest)

theorem cut_concat_lineFeed_of_return {bytes : Bytes}
    (hreturn : bytes.getLast? = some carriageReturn) :
    cut (bytes ++ [lineFeed]) = cut bytes := by
  induction bytes with
  | nil => simp at hreturn
  | cons b rest ih =>
      cases rest with
      | nil =>
          obtain rfl : b = carriageReturn := by simpa using hreturn
          rfl
      | cons d rest =>
          have hlast : (d :: rest).getLast? = some carriageReturn := by
            simpa using hreturn
          have hhead := head?_concat_iff b lineFeed (d :: rest) (by simp)
          rw [List.cons_append, cut, cut, ih hlast]
          simp only [hhead]

theorem cut_concat_of_isTerminator {bytes : Bytes} {c : UInt8} (hc : isTerminator c = true)
    (hapart : ¬(bytes.getLast? = some carriageReturn ∧ c = lineFeed)) :
    cut (bytes ++ [c]) = ((cut bytes).1 ++ [(cut bytes).2], []) := by
  induction bytes with
  | nil => simp [cut, hc]
  | cons b rest ih =>
      have hother : ¬(b = carriageReturn ∧ rest = [] ∧ c = lineFeed) := by
        rintro ⟨hb, hrest, hfeed⟩
        exact hapart ⟨by simp [hb, hrest], hfeed⟩
      have hhead := head?_concat_iff b c rest hother
      have hrest : ¬(rest.getLast? = some carriageReturn ∧ c = lineFeed) := by
        intro h
        exact hapart ⟨by simp [List.getLast?_cons, h.1], h.2⟩
      rw [List.cons_append, cut, cut, ih hrest]
      simp only [hhead]
      split
      · rfl
      · split
        · rfl
        · exact consFirst_append_line b (cut rest)

/-- What one more byte does to the lines of a byte string. -/
theorem cut_concat_cases (bytes : Bytes) (c : UInt8) :
    (bytes.getLast? = some carriageReturn ∧ c = lineFeed ∧ cut (bytes ++ [c]) = cut bytes) ∨
      (¬(bytes.getLast? = some carriageReturn ∧ c = lineFeed) ∧ isTerminator c = true ∧
        cut (bytes ++ [c]) = ((cut bytes).1 ++ [(cut bytes).2], [])) ∨
      (isTerminator c = false ∧ cut (bytes ++ [c]) = ((cut bytes).1, (cut bytes).2 ++ [c])) := by
  by_cases hpair : bytes.getLast? = some carriageReturn ∧ c = lineFeed
  · exact Or.inl ⟨hpair.1, hpair.2, hpair.2 ▸ cut_concat_lineFeed_of_return hpair.1⟩
  · cases hc : isTerminator c with
    | true => exact Or.inr (Or.inl ⟨hpair, rfl, cut_concat_of_isTerminator hc hpair⟩)
    | false => exact Or.inr (Or.inr ⟨rfl, cut_concat_of_not_isTerminator bytes hc⟩)

/-! ## Where the terminators begin -/

/-- Whether a terminator begins at this position: a line feed right after a carriage return belongs
to the terminator that has begun before it. -/
def endsAt (bytes : Bytes) (position : Nat) : Bool :=
  bytes[position]?.any isTerminator &&
    !((bytes.take position).getLast? == some carriageReturn && bytes[position]? == some lineFeed)

/-- The positions at which the terminators of a byte string begin. -/
def ends (bytes : Bytes) : List Nat :=
  (List.range bytes.length).filter bytes.endsAt

/-- What comes later does not change where terminators begin. -/
theorem endsAt_append {a : Bytes} (b : Bytes) {position : Nat} (hlt : position < a.length) :
    endsAt (a ++ b) position = endsAt a position := by
  rw [endsAt, endsAt, List.getElem?_append_left hlt,
    List.take_append_of_le_length (Nat.le_of_lt hlt)]

theorem ends_append (a b : Bytes) :
    ends (a ++ b) = ends a ++ (List.range' a.length b.length).filter (endsAt (a ++ b)) := by
  have hsplit : List.range (a.length + b.length) =
      List.range a.length ++ List.range' a.length b.length := by
    simp [List.range_eq_range', ← List.range'_append_1]
  rw [ends, List.length_append, hsplit, List.filter_append, ends]
  congr 1
  refine List.filter_congr fun position hposition => ?_
  exact endsAt_append b (List.mem_range.mp hposition)

theorem lt_of_mem_ends {bytes : Bytes} {position : Nat} (hmem : position ∈ ends bytes) :
    position < bytes.length :=
  List.mem_range.mp (List.mem_filter.mp hmem).1

theorem endsAt_concat_length (bytes : Bytes) (c : UInt8) :
    endsAt (bytes ++ [c]) bytes.length =
      (isTerminator c && !(bytes.getLast? == some carriageReturn && c == lineFeed)) := by
  simp [endsAt]

/-- A byte at the end ends no line, or it ends the line that was open. -/
theorem ends_concat_cases (bytes : Bytes) (c : UInt8) :
    (ends (bytes ++ [c]) = ends bytes ∧ lines (bytes ++ [c]) = lines bytes) ∨
      (ends (bytes ++ [c]) = ends bytes ++ [bytes.length] ∧
        lines (bytes ++ [c]) = lines bytes ++ [remainder bytes]) := by
  have hlast := endsAt_concat_length bytes c
  rw [ends_append, List.length_singleton, List.range'_one, lines, lines]
  obtain ⟨hreturn, rfl, hcut⟩ | ⟨hapart, hc, hcut⟩ | ⟨hc, hcut⟩ := cut_concat_cases bytes c
  · left
    have hnone : endsAt (bytes ++ [lineFeed]) bytes.length = false := by
      simp [hlast, hreturn]
    rw [hcut]
    simp [hnone]
  · right
    have hends : endsAt (bytes ++ [c]) bytes.length = true := by
      simpa [hlast, hc, -not_and, ← not_and_or] using hapart
    rw [hcut]
    simp [hends, remainder]
  · left
    have hnone : endsAt (bytes ++ [c]) bytes.length = false := by simp [hlast, hc]
    rw [hcut]
    simp [hnone]

/-- Every line has one terminator. -/
theorem length_ends (bytes : Bytes) : (ends bytes).length = (lines bytes).length := by
  induction bytes using List.reverseRecOn with
  | nil => rfl
  | append_singleton bytes c ih =>
      obtain ⟨hends, hlines⟩ | ⟨hends, hlines⟩ := ends_concat_cases bytes c
      · rw [hends, hlines, ih]
      · rw [hends, hlines, List.length_append, List.length_append, ih]
        rfl

/-- The bytes before a terminator are the lines before it, and its own line. -/
theorem getElem?_lines_of_getElem?_ends {bytes : Bytes} {k position : Nat}
    (hends : (ends bytes)[k]? = some position) :
    (lines bytes)[k]? = some (remainder (bytes.take position)) := by
  induction bytes using List.reverseRecOn with
  | nil => cases hends
  | append_singleton bytes c ih =>
      have hearlier (hold : (ends bytes)[k]? = some position) :
          (lines bytes)[k]? = some (remainder ((bytes ++ [c]).take position)) := by
        have hlt := lt_of_mem_ends (List.mem_of_getElem? hold)
        rw [List.take_append_of_le_length (Nat.le_of_lt hlt)]
        exact ih hold
      obtain ⟨hsame, hlines⟩ | ⟨hnew, hlines⟩ := ends_concat_cases bytes c
      · rw [hsame] at hends
        rw [hlines]
        exact hearlier hends
      · rw [hnew] at hends
        rw [hlines]
        rcases Nat.lt_trichotomy k (ends bytes).length with hlt | rfl | hgt
        · rw [List.getElem?_append_left hlt] at hends
          rw [List.getElem?_append_left (length_ends bytes ▸ hlt)]
          exact hearlier hends
        · obtain rfl : bytes.length = position := by simpa using hends
          rw [length_ends, List.take_left' rfl]
          simp
        · rw [List.getElem?_eq_none (by simp; omega)] at hends
          cases hends

theorem getElem?_ends_append {a : Bytes} (b : Bytes) {k position : Nat}
    (hends : (ends a)[k]? = some position) : (ends (a ++ b))[k]? = some position := by
  have hlt := (List.getElem?_eq_some_iff.mp hends).1
  rw [ends_append, List.getElem?_append_left hlt, hends]

/-- The terminator of a line that ends in the last part of a byte string begins in this part. -/
theorem exists_getElem?_ends (before last : Bytes) {k : Nat}
    (hbefore : (lines before).length ≤ k) (hlast : k < (lines (before ++ last)).length) :
    ∃ position, (ends (before ++ last))[k]? = some position ∧ before.length ≤ position := by
  rw [← length_ends] at hbefore hlast
  refine ⟨(ends (before ++ last))[k], List.getElem?_eq_getElem hlast, ?_⟩
  have hlater : (ends (before ++ last))[k] ∈
      (List.range' before.length last.length).filter (endsAt (before ++ last)) := by
    simp only [ends_append, List.getElem_append_right hbefore, List.getElem_mem]
  exact (List.mem_range'_1.mp (List.mem_filter.mp hlater).1).1

end Bytes

end ServerSentEvents
