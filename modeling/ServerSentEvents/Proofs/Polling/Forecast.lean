import ServerSentEvents.PolledLines

/-!
# What a polled stream still has to say

A forecast is computed from the state of a stream, without polling it: the answers to come, the
notices to come, and what is left in the end.  If every poll gives the first of the answers that
were foretold and leaves the forecast of the others (`Foretold`), then a whole run of polls gives
what was foretold, wherever the pending answers fall.
-/

namespace ServerSentEvents

namespace PollAnswer

variable {α : Type}

/-- Whether an answer only puts the caller off. -/
def isPending : PollAnswer α → Bool
  | pending => true
  | _ => false

/-- The answers that say something. -/
def given (answers : List (PollAnswer α)) : List (PollAnswer α) :=
  answers.filter (!·.isPending)

@[simp] theorem given_nil : given ([] : List (PollAnswer α)) = [] := rfl

@[simp] theorem given_cons_item (a : α) (rest : List (PollAnswer α)) :
    given (item a :: rest) = item a :: given rest := rfl

@[simp] theorem given_cons_failed (error : StreamError) (rest : List (PollAnswer α)) :
    given (failed error :: rest) = failed error :: given rest := rfl

@[simp] theorem given_cons_pending (rest : List (PollAnswer α)) :
    given (pending :: rest) = given rest := rfl

@[simp] theorem given_cons_ended (rest : List (PollAnswer α)) :
    given (ended :: rest) = ended :: given rest := rfl

/-- The item that an answer brings. -/
def item? : PollAnswer α → Option α
  | item a => some a
  | _ => none

/-- The items among answers, in order. -/
def items (answers : List (PollAnswer α)) : List α :=
  answers.filterMap item?

theorem items_given (answers : List (PollAnswer α)) : items (given answers) = items answers := by
  induction answers with
  | nil => rfl
  | cons answer answers ih =>
      cases answer with
      | item a => exact congrArg (a :: ·) ih
      | _ => exact ih

theorem items_append (a b : List (PollAnswer α)) : items (a ++ b) = items a ++ items b :=
  List.filterMap_append

theorem items_map_item (items' : List α) : items (items'.map item) = items' := by
  simp [items, List.filterMap_map, Function.comp_def, item?]

theorem items_replicate_ended (n : Nat) : items (List.replicate n (ended : PollAnswer α)) = [] := by
  simp [items, item?]

end PollAnswer

variable {σ α τ : Type}

/-- Polls a stream so many times. -/
def pollTimes (poll : σ → σ × PollAnswer α × List Notice) (s : σ) :
    Nat → σ × List (PollAnswer α) × List Notice
  | 0 => (s, [], [])
  | n + 1 =>
    ((pollTimes poll (poll s).1 n).1, (poll s).2.1 :: (pollTimes poll (poll s).1 n).2.1,
      (poll s).2.2 ++ (pollTimes poll (poll s).1 n).2.2)

/-- Polls are made part by part. -/
theorem pollTimes_add (poll : σ → σ × PollAnswer α × List Notice) (s : σ) (m n : Nat) :
    pollTimes poll s (m + n) =
      ((pollTimes poll (pollTimes poll s m).1 n).1,
        (pollTimes poll s m).2.1 ++ (pollTimes poll (pollTimes poll s m).1 n).2.1,
        (pollTimes poll s m).2.2 ++ (pollTimes poll (pollTimes poll s m).1 n).2.2) := by
  induction m generalizing s with
  | zero => simp [pollTimes]
  | succ m ih =>
      rw [Nat.succ_add, pollTimes, ih]
      simp [pollTimes]

theorem pollTimes_succ (poll : σ → σ × PollAnswer α × List Notice) (s : σ) (n : Nat) :
    pollTimes poll s (n + 1) =
      ((poll (pollTimes poll s n).1).1,
        (pollTimes poll s n).2.1 ++ [(poll (pollTimes poll s n).1).2.1],
        (pollTimes poll s n).2.2 ++ (poll (pollTimes poll s n).1).2.2) := by
  rw [pollTimes_add]
  simp [pollTimes]

/-- What has been answered stands. -/
theorem answers_pollTimes_isPrefix (poll : σ → σ × PollAnswer α × List Notice) (s : σ) {m n : Nat}
    (hle : m ≤ n) : (pollTimes poll s m).2.1 <+: (pollTimes poll s n).2.1 := by
  obtain ⟨more, rfl⟩ := Nat.exists_eq_add_of_le hle
  rw [pollTimes_add]
  exact List.prefix_append _ _

/-- All that a stream will still answer and make known. -/
structure Forecast (α τ : Type) where
  /-- The answers that say something, up to the last before the stream answers only its end. -/
  answers : List (PollAnswer α)
  notices : List Notice
  /-- At most so many answers are pending. -/
  waits : Nat
  /-- What is left in the end. -/
  final : τ

namespace Forecast

/-- A poll took this answer and these notices from the forecast `f` and left `g`. -/
structure Leads (f : Forecast α τ) (answer : PollAnswer α) (notices : List Notice)
    (g : Forecast α τ) : Prop where
  notices_eq : f.notices = notices ++ g.notices
  final_eq : g.final = f.final
  answers_eq :
    match answer with
    | .pending => g.answers = f.answers ∧ g.waits < f.waits
    | .ended => f.answers = [] ∧ g.answers = []
    | answer => f.answers = answer :: g.answers ∧ g.waits ≤ f.waits

/-- What is told before a poll goes on is told by the poll. -/
theorem Leads.after {f g h : Forecast α τ} {answer : PollAnswer α} {before notices : List Notice}
    (hleads : g.Leads answer notices h) (hanswers : f.answers = g.answers)
    (hnotices : f.notices = before ++ g.notices) (hfinal : f.final = g.final)
    (hwaits : g.waits ≤ f.waits) : f.Leads answer (before ++ notices) h where
  notices_eq := by rw [hnotices, hleads.notices_eq, List.append_assoc]
  final_eq := by rw [hleads.final_eq, hfinal]
  answers_eq := by
    have hg := hleads.answers_eq
    cases answer with
    | pending => exact ⟨by rw [hg.1, hanswers], by omega⟩
    | ended => exact ⟨by rw [hanswers, hg.1], hg.2⟩
    | item a => exact ⟨by rw [hanswers, hg.1], by omega⟩
    | failed error => exact ⟨by rw [hanswers, hg.1], by omega⟩

/-- A poll of a stream, with its forecast before the poll, gave what was foretold; and an ending
is for good. -/
structure Meets (poll : σ → σ × PollAnswer α × List Notice) (forecast : σ → Forecast α τ)
    (view : σ → τ) (inv : σ → Prop) (f : Forecast α τ)
    (polled : σ × PollAnswer α × List Notice) : Prop where
  kept : inv polled.1
  leads : f.Leads polled.2.1 polled.2.2 (forecast polled.1)
  final : polled.2.1.isFinal = true →
    poll polled.1 = (polled.1, .ended, []) ∧ polled.2.2 = f.notices ∧ view polled.1 = f.final

theorem Meets.after {poll : σ → σ × PollAnswer α × List Notice} {forecast : σ → Forecast α τ}
    {view : σ → τ} {inv : σ → Prop} {f g : Forecast α τ}
    {next : σ} {answer : PollAnswer α} {before notices : List Notice}
    (hmeets : Meets poll forecast view inv g (next, answer, notices))
    (hanswers : f.answers = g.answers) (hnotices : f.notices = before ++ g.notices)
    (hfinal : f.final = g.final) (hwaits : g.waits ≤ f.waits) :
    Meets poll forecast view inv f (next, answer, before ++ notices) where
  kept := hmeets.kept
  leads := hmeets.leads.after hanswers hnotices hfinal hwaits
  final := by
    intro hended
    obtain ⟨hover, htold, hview⟩ := hmeets.final hended
    refine ⟨hover, ?_, ?_⟩
    · rw [hnotices]
      exact congrArg (before ++ ·) htold
    · rw [hfinal]
      exact hview

/-- The forecast ends with this answer, and leaves so many pending ones. -/
def EndsWith (f : Forecast α τ) (waits : Nat) : PollAnswer α → Prop
  | .pending => False
  | .ended => f.answers = []
  | .item a => f.answers = [.item a] ∧ waits ≤ f.waits
  | .failed error => f.answers = [.failed error] ∧ waits ≤ f.waits

/-- A stream that has come to its end with this answer meets a forecast of nothing else. -/
theorem meets_of_over {poll : σ → σ × PollAnswer α × List Notice} {forecast : σ → Forecast α τ}
    {view : σ → τ} {inv : σ → Prop} {f : Forecast α τ} {s : σ} {answer : PollAnswer α}
    {notices : List Notice} (hs : inv s) (hover : poll s = (s, .ended, []))
    (hnone : (forecast s).answers = []) (hsilent : (forecast s).notices = [])
    (hview : (forecast s).final = view s) (hnotices : f.notices = notices)
    (hfinal : f.final = view s) (hanswers : f.EndsWith (forecast s).waits answer) :
    Meets poll forecast view inv f (s, answer, notices) where
  kept := hs
  leads := by
    refine ⟨?_, hview.trans hfinal.symm, ?_⟩
    · rw [hsilent, hnotices, List.append_nil]
    · cases answer with
      | pending => exact hanswers.elim
      | ended => exact ⟨hanswers, hnone⟩
      | item a => exact ⟨by rw [hanswers.1, hnone], hanswers.2⟩
      | failed error => exact ⟨by rw [hanswers.1, hnone], hanswers.2⟩
  final := fun _ => ⟨hover, hnotices.symm, hfinal.symm⟩

end Forecast

/-- Every poll of a stream gives what its forecast says. -/
def Foretold (poll : σ → σ × PollAnswer α × List Notice) (forecast : σ → Forecast α τ)
    (view : σ → τ) (inv : σ → Prop) : Prop :=
  ∀ s, inv s → Forecast.Meets poll forecast view inv (forecast s) (poll s)

namespace Foretold

variable {poll : σ → σ × PollAnswer α × List Notice} {forecast : σ → Forecast α τ}
  {view : σ → τ} {inv : σ → Prop}

theorem pollTimes_of_over {s : σ} (hover : poll s = (s, .ended, [])) (n : Nat) :
    pollTimes poll s n = (s, List.replicate n .ended, []) := by
  induction n with
  | zero => rfl
  | succ n ih => simp [pollTimes, hover, ih, List.replicate_succ]

/-- After a final answer the stream answers its end, and nothing about it changes. -/
theorem poll_of_isFinal (h : Foretold poll forecast view inv) {s : σ} (hs : inv s) {n : Nat}
    (hfinal : ∃ answer ∈ (pollTimes poll s n).2.1, answer.isFinal = true) :
    poll (pollTimes poll s n).1 = ((pollTimes poll s n).1, .ended, []) := by
  induction n generalizing s with
  | zero =>
      obtain ⟨answer, hanswer, -⟩ := hfinal
      cases hanswer
  | succ n ih =>
      obtain ⟨answer, hanswer, hlast⟩ := hfinal
      simp only [pollTimes] at hanswer ⊢
      rcases List.mem_cons.mp hanswer with rfl | hlater
      · obtain ⟨hover, -⟩ := (h s hs).final hlast
        rw [pollTimes_of_over hover]
        exact hover
      · exact ih (h s hs).kept ⟨answer, hlater, hlast⟩

theorem forecast_of_over (h : Foretold poll forecast view inv) {s : σ} (hs : inv s)
    (hover : poll s = (s, .ended, [])) :
    (forecast s).answers = [] ∧ (forecast s).notices = [] ∧ (forecast s).final = view s := by
  obtain ⟨-, ⟨-, -, hanswers⟩, hfinal⟩ := h s hs
  rw [hover] at hanswers hfinal
  obtain ⟨-, hnotices, hview⟩ := hfinal rfl
  exact ⟨hanswers.1, hnotices.symm, hview.symm⟩

theorem given_isPrefix (h : Foretold poll forecast view inv) {s : σ} (hs : inv s) (n : Nat) :
    PollAnswer.given (pollTimes poll s n).2.1 <+:
      (forecast s).answers ++ List.replicate n .ended := by
  induction n generalizing s with
  | zero => simp [pollTimes]
  | succ n ih =>
      have hrest := ih (h s hs).kept
      have hleads := (h s hs).leads.answers_eq
      have hlonger (l : List (PollAnswer α)) :
          l ++ List.replicate n .ended <+: l ++ List.replicate (n + 1) .ended := by
        rw [List.replicate_succ', ← List.append_assoc]
        exact List.prefix_append _ _
      simp only [pollTimes]
      cases hanswer : (poll s).2.1 with
      | pending =>
          rw [hanswer] at hleads
          rw [hleads.1] at hrest
          exact hrest.trans (hlonger _)
      | ended =>
          rw [hanswer] at hleads
          rw [hleads.2] at hrest
          rw [hleads.1]
          simpa [List.replicate_succ] using hrest
      | item a =>
          rw [hanswer] at hleads
          rw [hleads.1]
          simpa using hrest.trans (hlonger _)
      | failed error =>
          rw [hanswer] at hleads
          rw [hleads.1]
          simpa using hrest.trans (hlonger _)

/-- Polls enough give every answer that was foretold. -/
theorem answers_isPrefix (h : Foretold poll forecast view inv) {s : σ} (hs : inv s) {n : Nat}
    (hn : (forecast s).answers.length + (forecast s).waits ≤ n) :
    (forecast s).answers <+: PollAnswer.given (pollTimes poll s n).2.1 := by
  induction n generalizing s with
  | zero =>
      have hnone : (forecast s).answers = [] := List.eq_nil_of_length_eq_zero (by omega)
      simp [hnone]
  | succ n ih =>
      have hleads := (h s hs).leads.answers_eq
      simp only [pollTimes]
      cases hanswer : (poll s).2.1 with
      | pending =>
          rw [hanswer] at hleads
          rw [← hleads.1] at hn ⊢
          exact ih (h s hs).kept (by omega)
      | ended =>
          rw [hanswer] at hleads
          simp [hleads.1]
      | item a =>
          rw [hanswer] at hleads
          rw [hleads.1, List.length_cons] at hn
          rw [hleads.1]
          simpa using ih (h s hs).kept (by omega)
      | failed error =>
          rw [hanswer] at hleads
          rw [hleads.1, List.length_cons] at hn
          rw [hleads.1]
          simpa using ih (h s hs).kept (by omega)

theorem notices_isPrefix (h : Foretold poll forecast view inv) {s : σ} (hs : inv s) (n : Nat) :
    (pollTimes poll s n).2.2 <+: (forecast s).notices := by
  induction n generalizing s with
  | zero => simp [pollTimes]
  | succ n ih =>
      rw [(h s hs).leads.notices_eq]
      exact (List.prefix_append_right_inj _).mpr (ih (h s hs).kept)

/-- Polls enough come to a final answer. -/
theorem exists_isFinal (h : Foretold poll forecast view inv) {s : σ} (hs : inv s) {n : Nat}
    (hn : (forecast s).answers.length + (forecast s).waits < n) :
    ∃ answer ∈ (pollTimes poll s n).2.1, answer.isFinal = true := by
  induction n generalizing s with
  | zero => omega
  | succ n ih =>
      simp only [pollTimes]
      by_cases hfinal : (poll s).2.1.isFinal = true
      · exact ⟨_, List.mem_cons_self, hfinal⟩
      · have hless : (forecast (poll s).1).answers.length + (forecast (poll s).1).waits < n := by
          have hanswers := (h s hs).leads.answers_eq
          cases hanswer : (poll s).2.1 with
          | pending =>
              rw [hanswer] at hanswers
              rw [hanswers.1]
              omega
          | item a =>
              rw [hanswer] at hanswers
              rw [hanswers.1, List.length_cons] at hn
              omega
          | ended => simp [hanswer, PollAnswer.isFinal] at hfinal
          | failed error => simp [hanswer, PollAnswer.isFinal] at hfinal
        obtain ⟨answer, hanswer, hlast⟩ := ih (h s hs).kept hless
        exact ⟨answer, List.mem_cons_of_mem _ hanswer, hlast⟩

/-- Once a final answer has been given, everything foretold has come about. -/
theorem settled_of_isFinal (h : Foretold poll forecast view inv) {s : σ} (hs : inv s) {n : Nat}
    (hfinal : ∃ answer ∈ (pollTimes poll s n).2.1, answer.isFinal = true) :
    (pollTimes poll s n).2.2 = (forecast s).notices ∧
      view (pollTimes poll s n).1 = (forecast s).final := by
  induction n generalizing s with
  | zero =>
      obtain ⟨answer, hanswer, -⟩ := hfinal
      cases hanswer
  | succ n ih =>
      obtain ⟨answer, hanswer, hlast⟩ := hfinal
      simp only [pollTimes] at hanswer ⊢
      rcases List.mem_cons.mp hanswer with rfl | hlater
      · obtain ⟨hover, hnotices, hview⟩ := (h s hs).final hlast
        rw [pollTimes_of_over hover, hnotices, hview, List.append_nil]
        exact ⟨rfl, rfl⟩
      · have hleads := (h s hs).leads
        obtain ⟨hnotices, hview⟩ := ih (h s hs).kept ⟨answer, hlater, hlast⟩
        rw [hnotices, hview, hleads.notices_eq, hleads.final_eq]
        exact ⟨rfl, rfl⟩

theorem settled (h : Foretold poll forecast view inv) {s : σ} (hs : inv s) {n : Nat}
    (hn : (forecast s).answers.length + (forecast s).waits < n) :
    (pollTimes poll s n).2.2 = (forecast s).notices ∧
      view (pollTimes poll s n).1 = (forecast s).final :=
  h.settled_of_isFinal hs (h.exists_isFinal hs hn)

/-- A stream that is not to fail comes to its end. -/
theorem ended_mem (h : Foretold poll forecast view inv) {s : σ} (hs : inv s)
    (hgoing : ∀ error, .failed error ∉ (forecast s).answers) {n : Nat}
    (hn : (forecast s).answers.length + (forecast s).waits < n) :
    .ended ∈ (pollTimes poll s n).2.1 := by
  obtain ⟨answer, hanswer, hfinal⟩ := h.exists_isFinal hs hn
  cases answer with
  | item a => cases hfinal
  | pending => cases hfinal
  | ended => exact hanswer
  | failed error =>
      have hgiven : .failed error ∈ PollAnswer.given (pollTimes poll s n).2.1 :=
        List.mem_filter.mpr ⟨hanswer, rfl⟩
      rcases List.mem_append.mp ((h.given_isPrefix hs n).subset hgiven) with hforetold | hended
      · exact absurd hforetold (hgoing error)
      · cases List.eq_of_mem_replicate hended

end Foretold

end ServerSentEvents
