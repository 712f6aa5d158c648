/-!
# Pieces of a text

A text is cut at every occurrence of a separator, so `n` separators leave `n + 1` pieces, empty
ones included.  The main statement is `join_pieces`: joining the pieces gives the text back.
-/

namespace ServerSentEvents.Text

/-- The pieces of a text between separators. -/
def pieces (separator : Char) : List Char → List (List Char)
  | [] => [[]]
  | c :: cs =>
    if c = separator then [] :: pieces separator cs
    else
      match pieces separator cs with
      | [] => [[c]]
      | first :: others => (c :: first) :: others

/-- Pieces with separators between them. -/
def join (separator : Char) : List (List Char) → List Char
  | [] => []
  | [piece] => piece
  | piece :: others => piece ++ separator :: join separator others

theorem pieces_ne_nil (separator : Char) (cs : List Char) : pieces separator cs ≠ [] := by
  cases cs with
  | nil => simp [pieces]
  | cons c cs =>
    rw [pieces]
    split
    · simp
    · split <;> simp

theorem pieces_of_not_mem {separator : Char} {cs : List Char} (hfree : separator ∉ cs) :
    pieces separator cs = [cs] := by
  induction cs with
  | nil => rfl
  | cons c cs ih =>
    rw [List.mem_cons, not_or] at hfree
    rw [pieces, if_neg (Ne.symm hfree.1), ih hfree.2]

theorem pieces_append (separator : Char) (a b : List Char) :
    pieces separator (a ++ separator :: b) = pieces separator a ++ pieces separator b := by
  induction a with
  | nil => simp [pieces]
  | cons c a ih =>
    rw [List.cons_append, pieces, pieces, ih]
    split
    · rfl
    · cases hpieces : pieces separator a with
      | nil => exact absurd hpieces (pieces_ne_nil separator a)
      | cons first others => rfl

/-- Nothing is lost by cutting a text. -/
theorem join_pieces (separator : Char) (cs : List Char) :
    join separator (pieces separator cs) = cs := by
  induction cs with
  | nil => rfl
  | cons c cs ih =>
    rw [pieces]
    have hsome := pieces_ne_nil separator cs
    split
    · next hsame =>
      rw [join, ih, hsame]
      · rfl
      · exact hsome
    · cases hpieces : pieces separator cs with
      | nil => exact absurd hpieces hsome
      | cons first others =>
        rw [hpieces] at ih
        cases others <;> simp_all [join]

end ServerSentEvents.Text
