/-!
# Running a transducer

A transducer reads symbols one at a time, and each step moves its state and emits a list of
outputs.  `Transducer.run` reads a list of symbols.  The main statement is `Transducer.run_append`:
reading a joined list is reading its parts in turn, so the places where an input is cut never show.
-/

namespace ServerSentEvents.Transducer

variable {σ α β : Type _}

/-- Reads one symbol and puts what it emits before `acc.2`, which holds the latest output first. -/
def advance (step : σ → α → σ × List β) (acc : σ × List β) (x : α) : σ × List β :=
  match acc with
  | (now, out) =>
    match step now x with
    | (next, new) => (next, new.reverse ++ out)

/-- Reads `xs` from the state `s`: the last state, and everything emitted, in order. -/
def run (step : σ → α → σ × List β) (s : σ) (xs : List α) : σ × List β :=
  match xs.foldl (advance step) (s, []) with
  | (last, out) => (last, out.reverse)

theorem foldl_advance (step : σ → α → σ × List β) (s : σ) (out : List β) (xs : List α) :
    xs.foldl (advance step) (s, out) =
      ((xs.foldl (advance step) (s, [])).1, (xs.foldl (advance step) (s, [])).2 ++ out) := by
  induction xs generalizing s out with
  | nil => rfl
  | cons x xs ih =>
    rw [List.foldl_cons, List.foldl_cons, advance, advance, ih, ih _ (_ ++ [])]
    simp

@[simp] theorem run_nil (step : σ → α → σ × List β) (s : σ) : run step s [] = (s, []) := rfl

/-- The first symbol is read by one step, the others from the state that step leaves. -/
theorem run_cons (step : σ → α → σ × List β) (s : σ) (x : α) (xs : List α) :
    run step s (x :: xs) =
      ((run step (step s x).1 xs).1, (step s x).2 ++ (run step (step s x).1 xs).2) := by
  rw [run, List.foldl_cons, advance, foldl_advance]
  simp [run]

/-- A joined input is read part by part. -/
theorem run_append (step : σ → α → σ × List β) (s : σ) (xs ys : List α) :
    run step s (xs ++ ys) =
      ((run step (run step s xs).1 ys).1,
        (run step s xs).2 ++ (run step (run step s xs).1 ys).2) := by
  induction xs generalizing s with
  | nil => rfl
  | cons x xs ih => simp [run_cons, ih]

/-- If one step commutes with a change of the states and of the outputs, so does a whole run. -/
theorem run_map {step : σ → α → σ × List β} {f : σ → σ} {g : β → β}
    (hstep : ∀ s x, step (f s) x = (f (step s x).1, (step s x).2.map g)) (s : σ) (xs : List α) :
    run step (f s) xs = (f (run step s xs).1, (run step s xs).2.map g) := by
  induction xs generalizing s with
  | nil => rfl
  | cons x xs ih => simp [run_cons, hstep, ih]

end ServerSentEvents.Transducer
