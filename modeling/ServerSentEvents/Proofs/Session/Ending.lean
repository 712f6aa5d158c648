import Mathlib.Order.RelClasses
import ServerSentEvents.Proofs.Session.Schedule

/-!
# Every order comes to an end

Neither task can keep the other from its end: the decoding task never waits for the writer, and the
writer waits only until the decoding task is over.  Since every step leaves less to be done
(`Tasks.Step.toDo_lt`), tasks that go on in any order come to their end.
-/

namespace ServerSentEvents

namespace Session

/-! ## What is left to be done -/

/-- How far the decoding task is from its end: it polls as long as the stream may answer more. -/
def Decoding.stage : Decoding → Nat
  | polling => 2
  | telling _ answer => if answer.isFinal then 1 else 2
  | stopped _ => 0

/-- How many steps it takes until the decoding task polls again or is over. -/
def Decoding.inHand : Decoding → Nat
  | telling untold _ => untold.length + 1
  | _ => 0

/-- How many steps the writer has still to take, if nothing more is sent. -/
def Writer.toDo (w : Writer) (c : Channel) : Nat :=
  2 * c.waiting.length +
    match w.writing with
    | .starting => 3
    | .storing _ => 2
    | .receiving => 1
    | .stopped => 0

theorem Writer.Step.toDo_lt {deserted : Bool} {w next : Writer} {c rest : Channel}
    (hstep : Step deserted (w, c) (next, rest)) : next.toDo rest < w.toDo c := by
  cases hstep with
  | prepare hstarting => simp [toDo, hstarting]
  | receive hreceiving _ hwaiting =>
      simp only [toDo, hreceiving, hwaiting, List.length_cons]
      omega
  | store hstoring => simp [toDo, hstoring]
  | fail hreceiving _ => simp [toDo, hreceiving, Channel.close]
  | finish _ hreceiving _ _ => simp [toDo, hreceiving]

namespace Tasks

/-- What is left to be done by both tasks. -/
def toDo (p : Tasks) : Nat × (Nat × Nat × Nat) × Nat × Nat :=
  (p.decoding.stage, p.stream.lines.outlook, p.decoding.inHand,
    match p.writer?, p.sink with
    | some w, .channel c => w.toDo c
    | _, _ => 0)

/-- What is left is compared by the first difference. -/
abbrev ToDoLt : Nat × (Nat × Nat × Nat) × Nat × Nat → Nat × (Nat × Nat × Nat) × Nat × Nat → Prop :=
  Prod.Lex (· < ·) (Prod.Lex PolledLines.OutlookLt (Prod.Lex (· < ·) (· < ·)))

theorem wellFounded_toDoLt : WellFounded ToDoLt :=
  have hnat : WellFounded fun a b : Nat => a < b := Nat.lt_wfRel.wf
  hnat.prod_lex ((hnat.prod_lex (hnat.prod_lex hnat)).prod_lex (hnat.prod_lex hnat))

variable {format : PrintFormat}

theorem toDo_stop_lt {p : Tasks} (failure? : Option SessionError)
    (hgoing : 0 < p.decoding.stage) : ToDoLt (p.stop failure?).toDo p.toDo :=
  .left _ _ hgoing

theorem toDo_act_lt {p : Tasks} {answer : PollAnswer Event}
    (htold : p.decoding = .telling [] answer) : ToDoLt (p.act format answer).toDo p.toDo := by
  have hstage : 0 < p.decoding.stage := by
    rw [htold, Decoding.stage]
    split <;> decide
  have hpolls (output : Device) (hfinal : answer.isFinal = false) :
      ToDoLt (toDo { p with output, decoding := .polling }) p.toDo := by
    simp only [toDo, htold, Decoding.stage, hfinal]
    exact .right _ (.right _ (.left _ _ Nat.zero_lt_one))
  rw [act]
  split
  · exact toDo_stop_lt _ hstage
  · next output hreact => exact hpolls output (isFinal_of_react hreact)

/-- Whatever either task does, less is left to be done. -/
theorem Step.toDo_lt {p next : Tasks} (hstep : Step format p next) : ToDoLt next.toDo p.toDo := by
  cases hstep with
  | poll hpolling =>
      cases hfinal : p.stream.poll.2.1.isFinal with
      | true =>
          simp only [toDo, hpolling, Decoding.stage, hfinal]
          exact .left _ _ Nat.one_lt_two
      | false =>
          simp only [toDo, hpolling, Decoding.stage, hfinal]
          exact .right _ (.left _ _ (p.stream.poll_lt hfinal))
  | tell htelling =>
      simp only [toDo, htelling, Decoding.stage, Decoding.inHand]
      exact .right _ (.right _ (.left _ _ (by simp)))
  | act htold => exact toDo_act_lt htold
  | write hwriter hsink hstep =>
      simp only [toDo, hwriter, hsink]
      exact .right _ (.right _ (.right _ hstep.toDo_lt))

/-- No order goes on forever. -/
theorem wellFounded_step (format : PrintFormat) :
    WellFounded fun next p : Tasks => Step format p next :=
  Subrelation.wf Step.toDo_lt (InvImage.wf toDo wellFounded_toDoLt)

/-! ## No order gets stuck -/

/-- A writer has a channel to receive from. -/
def Linked (p : Tasks) : Prop :=
  p.writer?.isSome = true → ∃ c, p.sink = .channel c

theorem linked_start (disk : Disk) (tree : FileTree) (settings : Settings) (splitter : Splitter)
    (source : List SourceItem) (log : Array LogRecord) :
    (start disk tree settings splitter source log).Linked := by
  intro hwriter
  refine ⟨DeadLetter.queue, if_pos ?_⟩
  simpa [start] using hwriter

theorem Linked.step {p next : Tasks} (h : p.Linked) (hstep : Step format p next) :
    next.Linked := by
  cases hstep with
  | poll => exact h
  | tell =>
      intro hwriter
      obtain ⟨c, hsink⟩ := h hwriter
      obtain ⟨after, hafter, -⟩ := Sink.accept_channel c _
      exact ⟨after, hsink ▸ hafter⟩
  | act =>
      have hkept := p.act_cases format
      rw [Linked, (hkept _).1, (hkept _).2.1]
      exact h
  | write => exact fun _ => ⟨_, rfl⟩

theorem Linked.run {p last : Tasks} (h : p.Linked) (hrun : Run format p last) : last.Linked := by
  induction hrun with
  | refl => exact h
  | tail _ hstep ih => exact ih.step hstep

/-- Tasks that are not over have something to do. -/
theorem Linked.over_or_step {p : Tasks} (h : p.Linked) (format : PrintFormat) :
    p.Over ∨ ∃ next, Step format p next := by
  cases hdecoding : p.decoding with
  | polling => exact Or.inr ⟨_, .poll hdecoding⟩
  | telling untold answer =>
      cases untold with
      | nil => exact Or.inr ⟨_, .act hdecoding⟩
      | cons notice untold => exact Or.inr ⟨_, .tell hdecoding⟩
  | stopped failure? =>
      have hover : p.decoding.isOver = true := by rw [hdecoding]; rfl
      cases hwriter : p.writer? with
      | none => exact Or.inl ⟨hover, by simp [hwriter]⟩
      | some w =>
          obtain ⟨c, hsink⟩ := h (by simp [hwriter])
          have hwrite {next : Writer} {rest : Channel}
              (hstep : Writer.Step p.decoding.isOver (w, c) (next, rest)) :
              ∃ next, Step format p next :=
            ⟨_, .write hwriter hsink hstep⟩
          cases hwriting : w.writing with
          | starting => exact Or.inr (hwrite (.prepare hwriting))
          | storing d => exact Or.inr (hwrite (.store hwriting))
          | stopped => exact Or.inl ⟨hover, by simp [hwriter, hwriting]⟩
          | receiving =>
              by_cases hgoing : w.progress.error? = none
              · cases hwaiting : c.waiting with
                | nil => exact Or.inr (hwrite (.finish hover hwriting hgoing hwaiting))
                | cons d waiting => exact Or.inr (hwrite (.receive hwriting hgoing hwaiting))
              · exact Or.inr (hwrite (.fail hwriting hgoing))

theorem Linked.exists_run_over {p : Tasks} (h : p.Linked) (format : PrintFormat) :
    ∃ last, Run format p last ∧ last.Over := by
  induction p using (wellFounded_step format).induction with
  | h p ih =>
      rcases h.over_or_step format with hover | ⟨next, hstep⟩
      · exact ⟨p, .refl, hover⟩
      · obtain ⟨last, hrun, hover⟩ := ih next hstep (h.step hstep)
        exact ⟨last, .head hstep hrun, hover⟩

/-- In whatever order the tasks of a session have gone on, they come to their end from there. -/
theorem exists_run_over_of_run (disk : Disk) (tree : FileTree) (settings : Settings)
    (splitter : Splitter) (source : List SourceItem) (log : Array LogRecord) {p : Tasks}
    (hrun : Run format (start disk tree settings splitter source log) p) :
    ∃ last, Run format p last ∧ last.Over :=
  ((linked_start disk tree settings splitter source log).run hrun).exists_run_over format

end Tasks

end Session

end ServerSentEvents
