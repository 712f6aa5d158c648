import Mathlib.Data.List.DropRight
import Mathlib.Data.List.TakeWhile
import ServerSentEvents.Limits

/-!
# What names a policy

A text is read in three steps: it is trimmed, then its joiners are left out, and then the case of
its letters.  The texts that name a policy are described here without these steps, letter by letter
(`OverflowPolicy.Spells`) and with white space at both ends (`OverflowPolicy.Names`).  White space
behind a joiner is not trimmed, and no letter beyond A to Z has the case of another.
-/

namespace ServerSentEvents

namespace Text

/-! ## Trimming -/

/-- A text is what is left of it by trimming, with white space at both ends. -/
theorem exists_eq_trim (cs : List Char) :
    ∃ before after, cs = before ++ trim cs ++ after ∧ (∀ c ∈ before, isBlank c = true) ∧
      ∀ c ∈ after, isBlank c = true := by
  refine ⟨cs.takeWhile isBlank, (cs.dropWhile isBlank).rtakeWhile isBlank, ?_, ?_, ?_⟩
  · have hright : trim cs ++ (cs.dropWhile isBlank).rtakeWhile isBlank = cs.dropWhile isBlank :=
      List.rdropWhile_append_rtakeWhile
    rw [List.append_assoc, hright, List.takeWhile_append_dropWhile]
  · intro c hc
    exact List.mem_takeWhile_imp hc
  · intro c hc
    exact List.mem_rtakeWhile_imp hc

theorem dropWhile_isBlank_append {before rest : List Char}
    (hbefore : ∀ c ∈ before, isBlank c = true) (hrest : ∀ c ∈ rest.head?, isBlank c = false) :
    (before ++ rest).dropWhile isBlank = rest := by
  rw [List.dropWhile_append_of_pos hbefore]
  cases rest with
  | nil => rfl
  | cons c rest =>
      apply List.dropWhile_cons_of_neg
      simp [hrest c rfl]

/-- Trimming leaves what holds no white space. -/
theorem trim_append {before inner after : List Char} (hbefore : ∀ c ∈ before, isBlank c = true)
    (hinner : ∀ c ∈ inner, isBlank c = false) (hafter : ∀ c ∈ after, isBlank c = true) :
    trim (before ++ inner ++ after) = inner := by
  cases inner with
  | nil =>
      have hblank : ∀ c ∈ before ++ after, isBlank c = true :=
        List.forall_mem_append.mpr ⟨hbefore, hafter⟩
      rw [trim, List.append_nil, List.dropWhile_eq_nil_iff.mpr hblank]
      rfl
  | cons c inner =>
      have hleft : (before ++ (c :: inner ++ after)).dropWhile isBlank = c :: inner ++ after := by
        apply dropWhile_isBlank_append hbefore
        rintro _ ⟨⟩
        exact hinner c List.mem_cons_self
      have hright : (after.reverse ++ (c :: inner).reverse).dropWhile isBlank =
          (c :: inner).reverse := by
        apply dropWhile_isBlank_append
        · intro d hd
          exact hafter d (List.mem_reverse.mp hd)
        · intro d hd
          exact hinner d (List.mem_reverse.mp (List.mem_of_mem_head? hd))
      rw [trim, List.append_assoc, hleft, List.reverse_append, hright, List.reverse_reverse]

end Text

namespace OverflowPolicy

/-! ## Letters in either case -/

/-- A text in which these letters are written, each in one of its two cases, with underscores and
dashes anywhere. -/
inductive Spells : List Char → List Char → Prop where
  | nothing : Spells [] []
  | joiner {letters text : List Char} {c : Char} (hc : c = '_' ∨ c = '-')
      (rest : Spells letters text) : Spells letters (c :: text)
  | letter {letters text : List Char} {l c : Char} (hc : c = l ∨ c = l.toUpper)
      (rest : Spells letters text) : Spells (l :: letters) (c :: text)

theorem isJoiner_eq_true_iff {c : Char} : isJoiner c = true ↔ c = '_' ∨ c = '-' := by
  simp [isJoiner]

theorem toNat_toLower (c : Char) :
    c.toLower.toNat = if 65 ≤ c.toNat ∧ c.toNat ≤ 90 then c.toNat + 32 else c.toNat := by
  have hrange : c.val ≥ 'A'.val ∧ c.val ≤ 'Z'.val ↔ 65 ≤ c.toNat ∧ c.toNat ≤ 90 := by
    simp only [ge_iff_le, UInt32.le_iff_toNat_le]
    rfl
  unfold Char.toLower
  split
  · next hcapital =>
      have hc := hrange.mp hcapital
      have hsum : (c.val + 32).toNat = (c.toNat + 32) % 2 ^ 32 := UInt32.toNat_add c.val 32
      rw [if_pos hc]
      refine hsum.trans (Nat.mod_eq_of_lt ?_)
      omega
  · next hother => rw [if_neg fun hc => hother (hrange.mpr hc)]

theorem toNat_toUpper (c : Char) :
    c.toUpper.toNat = if 97 ≤ c.toNat ∧ c.toNat ≤ 122 then c.toNat - 32 else c.toNat := by
  have hrange : 'a'.val ≤ c.val ∧ c.val ≤ 'z'.val ↔ 97 ≤ c.toNat ∧ c.toNat ≤ 122 := by
    simp only [UInt32.le_iff_toNat_le]
    rfl
  unfold Char.toUpper
  split
  · next hsmall =>
      have hc := hrange.mp hsmall
      -- The difference of the cases is negative, and wraps around.
      have hsum : (c.val + ('A'.val - 'a'.val)).toNat = (c.toNat + (2 ^ 32 - 32)) % 2 ^ 32 :=
        UInt32.toNat_add c.val _
      rw [if_pos hc]
      refine hsum.trans ?_
      omega
  · next hother => rw [if_neg fun hc => hother (hrange.mpr hc)]

theorem isLower_eq_true_iff {l : Char} : l.isLower = true ↔ 97 ≤ l.toNat ∧ l.toNat ≤ 122 := by
  have hlower : l.isLower = (decide ('a'.val ≤ l.val) && decide (l.val ≤ 'z'.val)) := rfl
  rw [hlower, Bool.and_eq_true, decide_eq_true_eq, decide_eq_true_eq, UInt32.le_iff_toNat_le,
    UInt32.le_iff_toNat_le]
  rfl

/-- Only a small letter itself and its capital have it for their small letter. -/
theorem toLower_eq_iff {c l : Char} (hl : l.isLower = true) :
    c.toLower = l ↔ c = l ∨ c = l.toUpper := by
  have hsmall := isLower_eq_true_iff.mp hl
  simp only [← Char.toNat_inj, toNat_toLower, toNat_toUpper]
  split <;> omega

/-- Neither a letter nor its capital joins words or is white space. -/
theorem letter_cases {c l : Char} (hl : l.isLower = true) (hc : c = l ∨ c = l.toUpper) :
    isJoiner c = false ∧ Text.isBlank c = false := by
  have hrange : (65 ≤ c.toNat ∧ c.toNat ≤ 90) ∨ (97 ≤ c.toNat ∧ c.toNat ≤ 122) := by
    have hsmall := isLower_eq_true_iff.mp hl
    rcases hc with rfl | rfl
    · exact .inr hsmall
    · rw [toNat_toUpper, if_pos hsmall]
      omega
  constructor
  · by_contra hjoiner
    rcases isJoiner_eq_true_iff.mp (by simpa using hjoiner) with rfl | rfl
    · exact absurd hrange (by decide)
    · exact absurd hrange (by decide)
  · simp only [Text.isBlank, Bool.or_eq_false_iff, Bool.and_eq_false_imp, decide_eq_true_eq,
      decide_eq_false_iff_not, beq_eq_false_iff_ne]
    omega

theorem spells_iff {letters text : List Char} (hletters : ∀ l ∈ letters, l.isLower = true) :
    Spells letters text ↔ (text.filter (!isJoiner ·)).map Char.toLower = letters := by
  constructor
  · intro hspells
    induction hspells with
    | nothing => rfl
    | joiner hc rest ih =>
        have hjoiner := isJoiner_eq_true_iff.mpr hc
        simpa [hjoiner] using ih hletters
    | letter hc rest ih =>
        obtain ⟨hl, hothers⟩ := List.forall_mem_cons.mp hletters
        obtain ⟨hjoiner, -⟩ := letter_cases hl hc
        simpa [hjoiner, (toLower_eq_iff hl).mpr hc] using ih hothers
  · intro hkey
    induction text generalizing letters with
    | nil =>
        obtain rfl : letters = [] := hkey.symm
        exact .nothing
    | cons c text ih =>
        cases hjoiner : isJoiner c with
        | true =>
            refine .joiner (isJoiner_eq_true_iff.mp hjoiner) (ih hletters ?_)
            simpa [hjoiner] using hkey
        | false =>
            obtain rfl : c.toLower :: (text.filter (!isJoiner ·)).map Char.toLower = letters := by
              simpa [hjoiner] using hkey
            obtain ⟨hl, hothers⟩ := List.forall_mem_cons.mp hletters
            exact .letter ((toLower_eq_iff hl).mp rfl) (ih hothers rfl)

theorem Spells.not_isBlank {letters text : List Char} (h : Spells letters text)
    (hletters : ∀ l ∈ letters, l.isLower = true) : ∀ c ∈ text, Text.isBlank c = false := by
  induction h with
  | nothing => simp
  | joiner hc rest ih =>
      refine List.forall_mem_cons.mpr ⟨?_, ih hletters⟩
      rcases hc with rfl | rfl <;> rfl
  | letter hc rest ih =>
      obtain ⟨hl, hothers⟩ := List.forall_mem_cons.mp hletters
      exact List.forall_mem_cons.mpr ⟨(letter_cases hl hc).2, ih hothers⟩

/-! ## Texts that name a policy -/

/-- The text names the policy: between white space stand the letters of the name, which has
underscores for its only joiners. -/
def Names (policy : OverflowPolicy) (text : String) : Prop :=
  ∃ before inner after, text.toList = before ++ inner ++ after ∧
    (∀ c ∈ before, Text.isBlank c = true) ∧ Spells (policy.name.toList.filter (· != '_')) inner ∧
    ∀ c ∈ after, Text.isBlank c = true

theorem letters_eq (policy : OverflowPolicy) :
    policy.letters = policy.name.toList.filter (· != '_') := by
  cases policy <;> decide +kernel

theorem isLower_of_mem_letters (policy : OverflowPolicy) :
    ∀ l ∈ policy.letters, l.isLower = true := by
  have hall : policy.letters.all Char.isLower = true := by cases policy <;> decide +kernel
  exact List.all_eq_true.mp hall

/-- No other policy has the letters of a policy. -/
theorem find?_letters (policy : OverflowPolicy) :
    all.find? (·.letters == policy.letters) = some policy := by
  cases policy <;> decide +kernel

/-- The three steps leave the letters of a policy of those texts that name it. -/
theorem names_iff {policy : OverflowPolicy} {text : String} :
    policy.Names text ↔
      ((Text.trim text.toList).filter (!isJoiner ·)).map Char.toLower = policy.letters := by
  have hletters := policy.isLower_of_mem_letters
  rw [← spells_iff hletters, Names, ← letters_eq]
  constructor
  · rintro ⟨before, inner, after, htext, hbefore, hspells, hafter⟩
    rw [htext, Text.trim_append hbefore (hspells.not_isBlank hletters) hafter]
    exact hspells
  · intro hspells
    obtain ⟨before, after, htext, hbefore, hafter⟩ := Text.exists_eq_trim text.toList
    exact ⟨before, _, after, htext, hbefore, hspells, hafter⟩

instance (policy : OverflowPolicy) (text : String) : Decidable (policy.Names text) :=
  decidable_of_iff _ names_iff.symm

theorem ofText?_eq_some_iff {policy : OverflowPolicy} {text : String} :
    ofText? text = some policy ↔ policy.Names text := by
  rw [names_iff, ofText?]
  constructor
  · intro hfound
    have hsame := List.find?_some hfound
    exact (beq_iff_eq.mp hsame).symm
  · intro hkey
    rw [hkey]
    exact policy.find?_letters

theorem Names.unique {a b : OverflowPolicy} {text : String} (ha : a.Names text)
    (hb : b.Names text) : a = b := by
  have hread := ofText?_eq_some_iff.mpr ha
  rw [ofText?_eq_some_iff.mpr hb] at hread
  exact (Option.some.inj hread).symm

theorem ofText_eq_ok_iff {policy : OverflowPolicy} {text : String} :
    ofText text = .ok policy ↔ policy.Names text := by
  rw [← ofText?_eq_some_iff, ofText]
  cases ofText? text <;> simp

theorem names_of_ofSpelling? {policy : OverflowPolicy} {text : String}
    (hspelling : ofSpelling? text = some policy) : policy.Names text := by
  have hmem : text ∈ policy.spellings := by simpa using List.find?_some hspelling
  have hnames : ∀ spelling ∈ policy.spellings, policy.Names spelling := by
    cases policy <;> decide +kernel
  exact hnames text hmem

/-- A text is read as a policy exactly if it names the policy, and every other text is refused with
an error that carries it unchanged.  No text names two policies.  The name of a policy names it, and
so does every spelling of it in configuration files. -/
theorem ofText_accepts (text : String) :
    (∀ policy, ofText text = .ok policy ↔ policy.Names text) ∧
      (∀ error, ofText text = .error error ↔
        error = .unknownPolicy text ∧ ∀ policy : OverflowPolicy, ¬policy.Names text) ∧
      (∀ a b : OverflowPolicy, a.Names text → b.Names text → a = b) ∧
      (∀ policy : OverflowPolicy, ofText policy.name = .ok policy) ∧
      ∀ policy, ofSpelling? text = some policy → ofText text = .ok policy := by
  refine ⟨fun policy => ofText_eq_ok_iff, ?_, fun a b => Names.unique, ?_, ?_⟩
  · intro error
    cases hread : ofText? text with
    | some policy =>
        have hnames := ofText?_eq_some_iff.mp hread
        simp only [ofText, hread]
        refine iff_of_false nofun ?_
        rintro ⟨-, hnone⟩
        exact hnone policy hnames
    | none =>
        have hnone : ∀ policy : OverflowPolicy, ¬policy.Names text := by
          intro policy hnames
          rw [ofText?_eq_some_iff.mpr hnames] at hread
          cases hread
        simp only [ofText, hread]
        constructor
        · rintro ⟨⟩
          exact ⟨rfl, hnone⟩
        · rintro ⟨rfl, -⟩
          rfl
  · intro policy
    refine ofText_eq_ok_iff.mpr (names_of_ofSpelling? ?_)
    cases policy <;> decide +kernel
  · intro policy hspelling
    exact ofText_eq_ok_iff.mpr (names_of_ofSpelling? hspelling)

/-- Joiners may stand at both ends and white space around them, but white space inside them is not
trimmed, and the Kelvin sign is no K. -/
theorem ofText_accepts_of_joiners :
    ofText "\u3000-LoG__aNd-sKiP_\n" = .ok .logAndSkip ∧
      ofText "-\u3000log-and-skip" = .error (.unknownPolicy "-\u3000log-and-skip") ∧
      ofText "LogAndS\u212aip" = .error (.unknownPolicy "LogAndS\u212aip") ∧
      ofText "Truncate" = .ok .truncate := by
  obtain ⟨haccepts, -⟩ := ofText_accepts "\u3000-LoG__aNd-sKiP_\n"
  obtain ⟨-, hinside, -⟩ := ofText_accepts "-\u3000log-and-skip"
  obtain ⟨-, hkelvin, -⟩ := ofText_accepts "LogAndS\u212aip"
  obtain ⟨-, -, -, -, hspelling⟩ := ofText_accepts "Truncate"
  have hnone {text : String} (hothers : ∀ policy ∈ all, ¬policy.Names text) :
      ∀ policy : OverflowPolicy, ¬policy.Names text :=
    fun policy => hothers policy policy.mem_all
  exact ⟨(haccepts .logAndSkip).mpr (by decide +kernel),
    (hinside _).mpr ⟨rfl, hnone (by decide +kernel)⟩,
    (hkelvin _).mpr ⟨rfl, hnone (by decide +kernel)⟩,
    hspelling .truncate (by decide +kernel)⟩

end OverflowPolicy

end ServerSentEvents
