import ServerSentEvents.Proofs.Lines

/-!
# Lines and their terminators

A byte string is a list of lines with a terminator each and a tail without one.  A line whose
terminator is known may be cut off at the front (`Bytes.cut_line`), and every byte string is made up
in this way (`Bytes.lines_induction`), where a carriage return stands for a terminator of its own
only if no line feed follows it.
-/

namespace ServerSentEvents

/-- The forms in which a line may end. -/
inductive Terminator where
  | lineFeed
  | carriageReturn
  /-- A carriage return and the line feed right after it. -/
  | returnAndFeed
  deriving DecidableEq, Repr

def Terminator.bytes : Terminator → Bytes
  | lineFeed => [Bytes.lineFeed]
  | carriageReturn => [Bytes.carriageReturn]
  | returnAndFeed => [Bytes.carriageReturn, Bytes.lineFeed]

namespace Bytes

/-- A byte string in which nothing ends a line. -/
def Unbroken (bytes : Bytes) : Prop :=
  ∀ b ∈ bytes, isTerminator b = false

instance (bytes : Bytes) : Decidable (Unbroken bytes) :=
  List.decidableBAll (isTerminator · = false) bytes

theorem unbroken_nil : Unbroken [] := by
  intro b hb
  cases hb

theorem unbroken_cons {b : UInt8} {bytes : Bytes} :
    Unbroken (b :: bytes) ↔ isTerminator b = false ∧ Unbroken bytes :=
  List.forall_mem_cons

theorem Unbroken.append {a b : Bytes} (ha : Unbroken a) (hb : Unbroken b) : Unbroken (a ++ b) := by
  intro c hc
  rcases List.mem_append.mp hc with hleft | hright
  · exact ha c hleft
  · exact hb c hright

theorem Unbroken.take {bytes : Bytes} (hbytes : Unbroken bytes) (n : Nat) :
    Unbroken (bytes.take n) := by
  intro b hb
  exact hbytes b (List.mem_of_mem_take hb)

/-! ## Cutting off a line -/

theorem cut_append_of_unbroken {line : Bytes} (hline : Unbroken line) (rest : Bytes) :
    cut (line ++ rest) = line.foldr consFirst (cut rest) := by
  induction line with
  | nil => rfl
  | cons b line ih =>
      obtain ⟨hb, hline⟩ := unbroken_cons.mp hline
      have hother := isTerminator_eq_false_iff.mp hb
      rw [List.cons_append, cut, if_neg (fun h => hother.2 h.1), hb, ih hline]
      rfl

theorem foldr_consFirst_tail (line rest : Bytes) :
    line.foldr consFirst ([], rest) = ([], line ++ rest) := by
  induction line with
  | nil => rfl
  | cons b line ih => rw [List.foldr_cons, ih, consFirst, List.cons_append]

theorem foldr_consFirst_line (line first : Bytes) (others : List Bytes) (rest : Bytes) :
    line.foldr consFirst (first :: others, rest) = ((line ++ first) :: others, rest) := by
  induction line with
  | nil => rfl
  | cons b line ih => rw [List.foldr_cons, ih, consFirst, List.cons_append]

theorem cut_terminator (t : Terminator) {rest : Bytes}
    (hrest : t = .carriageReturn → rest.head? ≠ some lineFeed) :
    cut (t.bytes ++ rest) = ([] :: (cut rest).1, (cut rest).2) := by
  cases t with
  | lineFeed => simp [Terminator.bytes, cut, lineFeed_ne_carriageReturn, isTerminator]
  | carriageReturn => simp [Terminator.bytes, cut, hrest rfl, isTerminator]
  | returnAndFeed => simp [Terminator.bytes, cut, lineFeed_ne_carriageReturn, isTerminator]

/-- A line with its terminator may be cut off at the front. -/
theorem cut_line {line : Bytes} (hline : Unbroken line) (t : Terminator) {rest : Bytes}
    (hrest : t = .carriageReturn → rest.head? ≠ some lineFeed) :
    cut (line ++ (t.bytes ++ rest)) = (line :: (cut rest).1, (cut rest).2) := by
  rw [cut_append_of_unbroken hline, cut_terminator t hrest, foldr_consFirst_line, List.append_nil]

theorem cut_of_unbroken {tail : Bytes} (htail : Unbroken tail) : cut tail = ([], tail) := by
  have hcut := cut_append_of_unbroken htail []
  rwa [List.append_nil, cut, foldr_consFirst_tail, List.append_nil] at hcut

/-! ## All lines -/

theorem unbroken_takeWhile (bytes : Bytes) :
    Unbroken (bytes.takeWhile (!isTerminator ·)) := by
  intro b hb
  have hall := List.all_takeWhile (p := (!isTerminator ·)) (l := bytes)
  simpa using List.all_eq_true.mp hall b hb

/-- A byte string has no terminator, or it is a line with one and what follows it. -/
theorem exists_line (stream : Bytes) :
    Unbroken stream ∨
      ∃ line t rest, Unbroken line ∧ (t = .carriageReturn → rest.head? ≠ some lineFeed) ∧
        stream = line ++ (Terminator.bytes t ++ rest) := by
  have hstream := List.takeWhile_append_dropWhile (p := (!isTerminator ·)) (l := stream)
  have hline := unbroken_takeWhile stream
  cases hdrop : stream.dropWhile (!isTerminator ·) with
  | nil =>
      left
      rw [hdrop, List.append_nil] at hstream
      rwa [hstream] at hline
  | cons b after =>
      right
      have hb : isTerminator b = true := by simpa using eq_false_of_dropWhile hdrop
      rw [hdrop] at hstream
      rcases isTerminator_eq_true_iff.mp hb with rfl | rfl
      · exact ⟨_, .lineFeed, after, hline, by simp, hstream.symm⟩
      · by_cases hfeed : after.head? = some lineFeed
        · obtain ⟨rest, rfl⟩ : ∃ rest, after = lineFeed :: rest := by
            cases after with
            | nil => simp at hfeed
            | cons c rest => exact ⟨rest, by simpa using hfeed⟩
          exact ⟨_, .returnAndFeed, rest, hline, by simp, hstream.symm⟩
        · exact ⟨_, .carriageReturn, after, hline, fun _ => hfeed, hstream.symm⟩

/-- What holds of a tail without a terminator, and of a line with its terminator before whatever it
holds of, holds of every byte string. -/
@[elab_as_elim]
theorem lines_induction {motive : Bytes → Prop}
    (tail : ∀ tail, Unbroken tail → motive tail)
    (line : ∀ line t rest, Unbroken line →
      (t = .carriageReturn → rest.head? ≠ some lineFeed) → motive rest →
        motive (line ++ (Terminator.bytes t ++ rest)))
    (stream : Bytes) : motive stream := by
  rcases exists_line stream with htail | ⟨first, t, rest, hfirst, hrest, hstream⟩
  · exact tail stream htail
  · have hshorter : rest.length < stream.length := by
      have hlength := congrArg List.length hstream
      cases t <;> simp [Terminator.bytes] at hlength <;> omega
    rw [hstream]
    exact line first t rest hfirst hrest (lines_induction tail line rest)
termination_by stream.length

/-- Nothing ends a line inside of a line, nor inside of the bytes after the last line. -/
theorem unbroken_cut (stream : Bytes) :
    (∀ line ∈ lines stream, Unbroken line) ∧ Unbroken (remainder stream) := by
  unfold lines remainder
  induction stream using lines_induction with
  | tail tail htail => simp [cut_of_unbroken htail, htail]
  | line line t rest hline hrest ih => simpa [cut_line hline t hrest, hline] using ih

/-- Lines that all end in the same way are the lines of the byte string that they make up. -/
theorem cut_flatMap (t : Terminator) {lines : List Bytes} (hlines : ∀ line ∈ lines, Unbroken line) :
    cut (lines.flatMap (· ++ t.bytes)) = (lines, []) := by
  induction lines with
  | nil => rfl
  | cons line lines ih =>
      obtain ⟨hline, hothers⟩ := List.forall_mem_cons.mp hlines
      have hrest : t = .carriageReturn →
          (lines.flatMap (· ++ t.bytes)).head? ≠ some lineFeed := by
        rintro rfl
        cases lines with
        | nil => simp
        | cons next lines =>
            cases next with
            | nil => simp [Terminator.bytes, lineFeed_ne_carriageReturn.symm]
            | cons b next =>
                have hb := (unbroken_cons.mp (hothers _ List.mem_cons_self)).1
                simpa using (isTerminator_eq_false_iff.mp hb).1
      rw [List.flatMap_cons, List.append_assoc, cut_line hline t hrest, ih hothers]

end Bytes

end ServerSentEvents
