import ServerSentEvents.Proofs.Splitter.Failure

/-!
# What a splitter holds of a line

Whatever is asked of a splitter comes down to four acts on the open line (`Splitter.Act`), and doing
what is asked is doing its acts in turn (`Splitter.respondAll_eq_run_act`).  Beside the splitter
goes a record of what has been read since the last line boundary and of what the policy has been
asked about since (`Splitter.Sight`).  The invariant `Splitter.Holds` says that the open line is
what the limits leave of the bytes in this record, and every act that is allowed keeps it
(`Splitter.Holds.act`).  So it holds before and after every act of every run, and `Splitter.Tidy` is
what it says of the bytes that a splitter holds.
-/

namespace ServerSentEvents

namespace LineLimits

/-! ## Stretches of a line -/

variable {limits : LineLimits}

theorem openLine_eq_rejected_iff {line : Bytes} :
    limits.openLine line = .rejected ↔
      limits.overflow = .failStream ∧ limits.admits line = false := by
  cases hfits : limits.admits line with
  | true => simp [openLine, hfits]
  | false => cases hpolicy : limits.overflow <;> simp [openLine, hfits, hpolicy]

/-- An open line that has not failed the stream is held whole, or has outgrown the limit and is read
in one of three ways. -/
theorem openLine_cases {line : Bytes} (hgoing : limits.openLine line ≠ .rejected) :
    (line.length ≤ limits.maxSize ∧ limits.openLine line = .fitting line.toArray) ∨
      limits.maxSize < line.length ∧
        (limits.openLine line = .oversized .skip line.length ∨
          limits.openLine line = .oversized (.truncate (line.take limits.maxSize)) line.length ∨
          limits.openLine line = .oversized (.capture line.toArray) line.length) := by
  cases hfits : limits.admits line with
  | true => exact Or.inl ⟨by simpa [admits] using hfits, by simp [openLine, hfits]⟩
  | false =>
      refine Or.inr ⟨by simpa [admits] using hfits, ?_⟩
      cases hpolicy : limits.overflow with
      | failStream => exact absurd (openLine_eq_rejected_iff.mpr ⟨hpolicy, hfits⟩) hgoing
      | _ => simp [openLine, hfits, hpolicy]

/-- What the policy is asked about on a line: once the line is beyond the limit, all that the limit
allows of it. -/
def asked (limits : LineLimits) (line : Bytes) : List Bytes :=
  if line.length ≤ limits.maxSize then [] else [line.take limits.maxSize]

@[simp] theorem asked_nil (limits : LineLimits) : limits.asked [] = [] := by
  simp [asked]

/-- A line that is handed out is within the limit, and one that is cut off fills it. -/
def Bounds (limits : LineLimits) (line : Line) : Prop :=
  line.bytes.length ≤ limits.maxSize ∧
    (line.truncated = true → line.bytes.length = limits.maxSize)

theorem bounds_of_line? {number : Nat} {line : Bytes} {made : Line}
    (hmade : limits.line? number line = some made) : limits.Bounds made := by
  unfold line? at hmade
  split at hmade
  · next hfits =>
      cases hmade
      exact ⟨by simpa [admits] using hfits, by simp⟩
  · next hbeyond =>
      split at hmade
      · cases hmade
        have hlength : limits.maxSize < line.length := by simpa [admits] using hbeyond
        have hcut : (line.take limits.maxSize).length = limits.maxSize :=
          List.length_take_of_le hlength.le
        exact ⟨hcut.le, fun _ => hcut⟩
      · cases hmade

end LineLimits

namespace Splitter

/-- A stretch makes of the open line what its bytes make of it. -/
theorem current_append {s : Splitter} {line : Bytes}
    (hcurrent : s.current = s.limits.openLine line) (stretch : Bytes) :
    (s.append stretch).1.current = s.limits.openLine (line ++ stretch) := by
  induction stretch using List.reverseRecOn with
  | nil => simpa using hcurrent
  | append_singleton stretch b ih =>
      have hlimits := (append_quiet s stretch).1
      rw [append_append, ← List.append_assoc]
      cases hfailed : (s.append stretch).1.hasFailed with
      | false =>
          rw [← hlimits] at ih ⊢
          exact append_byte ih hfailed b
      | true =>
          -- The line has failed the stream before its last byte, and stays too long.
          have hrejected := hasFailed_eq_true_iff.mp hfailed
          rw [append_of_hasFailed hfailed, hrejected]
          rw [hrejected] at ih
          obtain ⟨hpolicy, hbeyond⟩ := LineLimits.openLine_eq_rejected_iff.mp ih.symm
          exact (LineLimits.openLine_eq_rejected_iff.mpr
            ⟨hpolicy, LineLimits.admits_concat_of_not_admits hbeyond b⟩).symm

/-! ## The policy is asked -/

/-- The bytes that the policy is asked about when a stretch is read, if it is asked. -/
def asks? (s : Splitter) (stretch : Bytes) : Option Bytes :=
  match s.current with
  | .fitting bytes =>
    let room := s.limit - bytes.size
    if stretch.length ≤ room then none else some (bytes.toList ++ stretch.take room)
  | .oversized .. => none
  | .rejected => none

/-- What becomes of a stretch where the policy is not asked. -/
def absorb (s : Splitter) (stretch : Bytes) : Splitter :=
  match s.current with
  | .fitting bytes => { s with current := .fitting (bytes ++ stretch.toArray) }
  | .oversized handling length =>
    { s with current := .oversized (handling.absorb stretch) (length + stretch.length) }
  | .rejected => s

/-- The policy is asked where `asks?` says so and nowhere else. -/
theorem append_eq (s : Splitter) (stretch : Bytes) :
    s.append stretch =
      match s.asks? stretch with
      | some head => s.outgrow head (stretch.drop (s.limit - s.held))
      | none => (s.absorb stretch, []) := by
  cases hcurrent : s.current with
  | fitting bytes =>
      by_cases hfits : stretch.length ≤ s.limit - bytes.size
      · simp [append, asks?, absorb, hcurrent, hfits]
      · simp [append, asks?, held, hcurrent, hfits]
  | oversized handling length => simp [append, asks?, absorb, hcurrent]
  | rejected => simp [append, asks?, absorb, hcurrent]

/-- Whether and about what the policy is asked depends on the bytes of the line alone. -/
theorem asked_append {s : Splitter} {line : Bytes}
    (hcurrent : s.current = s.limits.openLine line) (stretch : Bytes) :
    s.limits.asked (line ++ stretch) = s.limits.asked line ++ (s.asks? stretch).toList := by
  cases hfits : s.limits.admits line with
  | true =>
      have hlength : line.length ≤ s.limits.maxSize := by simpa [LineLimits.admits] using hfits
      have hfitting : s.current = .fitting line.toArray := by
        simp [hcurrent, LineLimits.openLine, hfits]
      by_cases hroom : stretch.length ≤ s.limits.maxSize - line.length
      · have hboth : line.length + stretch.length ≤ s.limits.maxSize := by omega
        simp [LineLimits.asked, asks?, hfitting, limit, hlength, hroom, hboth]
      · have hboth : ¬line.length + stretch.length ≤ s.limits.maxSize := by omega
        simp [LineLimits.asked, asks?, hfitting, limit, hlength, hroom, hboth,
          List.take_append, List.take_of_length_le hlength]
  | false =>
      have hlength : s.limits.maxSize < line.length := by simpa [LineLimits.admits] using hfits
      have hstill : ¬line.length + stretch.length ≤ s.limits.maxSize := by omega
      have hnone : s.asks? stretch = none := by
        cases hpolicy : s.limits.overflow <;>
          simp [asks?, hcurrent, LineLimits.openLine, hfits, hpolicy]
      have htake : (line ++ stretch).take s.limits.maxSize = line.take s.limits.maxSize :=
        List.take_append_of_le_length hlength.le
      simp [LineLimits.asked, hnone, hstill, htake, Nat.not_le.mpr hlength]

/-! ## Acts -/

/-- What a splitter does, one thing at a time. -/
inductive Act where
  /-- A stretch without a terminator is read. -/
  | append (stretch : Bytes)
  /-- The open line ends, and `after` tells whether a line feed may follow its carriage return. -/
  | endLine (after : Bool)
  | forget
  /-- No line feed is waited for any more. -/
  | settle
  deriving DecidableEq, Repr

def act (s : Splitter) : Act → Splitter × List Signal
  | .append stretch => s.append stretch
  | .endLine after => ({ s.endLine.1 with afterReturn := after }, s.endLine.2)
  | .forget => (s.forget, [])
  | .settle => ({ s with afterReturn := false }, [])

/-- What the terminator of a line leaves of a chunk is shorter than the chunk. -/
theorem length_passTerminator_lt {chunk : Bytes} {b : UInt8} {rest : Bytes}
    (hrest : chunk.dropWhile (!Bytes.isTerminator ·) = b :: rest) :
    (passTerminator b rest).1.length < chunk.length := by
  have hfewer := (List.dropWhile_suffix (!Bytes.isTerminator ·) (l := chunk)).length_le
  have hpassed := passTerminator_length_le b rest
  rw [hrest, List.length_cons] at hfewer
  omega

/-- The acts of scanning a chunk. -/
def scanActs (s : Splitter) (chunk : Bytes) : List Act :=
  match _h : chunk.dropWhile (!Bytes.isTerminator ·) with
  | [] => [.append chunk]
  | b :: rest =>
    let stretch := chunk.takeWhile (!Bytes.isTerminator ·)
    let ending := Act.endLine (passTerminator b rest).2
    if (s.append stretch).1.hasFailed then [.append stretch]
    else
      .append stretch :: ending ::
        ((s.append stretch).1.act ending).1.scanActs (passTerminator b rest).1
termination_by chunk.length
decreasing_by exact length_passTerminator_lt _h

/-- The acts of a request. -/
def acts (s : Splitter) : Request → List Act
  | .read chunk =>
    if s.hasFailed then []
    else if chunk = [] then []
    else .settle :: (s.resume chunk).1.scanActs (s.resume chunk).2
  | .close =>
    match s.current with
    | .fitting bytes => if bytes.isEmpty then [.settle] else [.endLine false]
    | .oversized .. => [.endLine false]
    | .rejected => [.settle]
  | .forget => [.forget]

def actsAll (s : Splitter) : List Request → List Act
  | [] => []
  | request :: requests => s.acts request ++ (s.respond request).1.actsAll requests

/-- Scanning a chunk is doing its acts. -/
theorem scan_eq_run_act (s : Splitter) (chunk : Bytes) (out : List Signal) :
    s.scan chunk out =
      ((Transducer.run act s (s.scanActs chunk)).1,
        (Transducer.run act s (s.scanActs chunk)).2.reverse ++ out) := by
  fun_induction scan s chunk out with
  | case1 s chunk out hnone next new happend =>
      rw [scanActs]
      split
      · simp [Transducer.run_cons, act, happend]
      · next hrest => simp [hnone] at hrest
  | case2 s chunk out b rest hrest next new happend hfailed =>
      rw [scanActs]
      split
      · next hnone => simp [hnone] at hrest
      · simp [Transducer.run_cons, act, happend, hfailed]
  | case3 s chunk out b rest hrest next new happend hgoing last line hended ih =>
      rw [scanActs]
      split
      · next hnone => simp [hnone] at hrest
      · next c tail htail =>
          obtain ⟨rfl, rfl⟩ : c = b ∧ tail = rest := by simpa [htail] using hrest
          rw [ih]
          simp [Transducer.run_cons, act, happend, hgoing, hended]

/-- Doing what is asked is doing its acts in turn. -/
theorem respond_eq_run_act (s : Splitter) (request : Request) :
    s.respond request = Transducer.run act s (s.acts request) := by
  cases request with
  | read chunk =>
      cases hfailed : s.hasFailed with
      | true => simp [respond, acts, hfailed, read_of_hasFailed hfailed]
      | false =>
          cases chunk with
          | nil => simp [respond, acts]
          | cons b rest =>
              have hresume : { s with afterReturn := false } = (s.resume (b :: rest)).1 := rfl
              simp only [respond, read, acts, hfailed, Bool.false_eq_true, if_false,
                scan_eq_run_act, List.cons_ne_nil, Transducer.run_cons, act, hresume]
              simp
  | close =>
      cases hcurrent : s.current with
      | fitting bytes =>
          by_cases hempty : bytes.isEmpty
          · simp [respond, close, acts, hcurrent, hempty, Transducer.run_cons, act]
          · have hgoing : s.hasFailed = false := by simp [hasFailed, hcurrent]
            simp [respond, close, acts, hcurrent, hempty, Transducer.run_cons, act,
              endLine_settled hgoing]
      | oversized handling length =>
          have hgoing : s.hasFailed = false := by simp [hasFailed, hcurrent]
          simp [respond, close, acts, hcurrent, Transducer.run_cons, act, endLine_settled hgoing]
      | rejected => simp [respond, close, acts, hcurrent, Transducer.run_cons, act]
  | forget => simp [respond, acts, Transducer.run_cons, act]

theorem respondAll_eq_run_act (s : Splitter) (requests : List Request) :
    s.respondAll requests = Transducer.run act s (s.actsAll requests) := by
  induction requests generalizing s with
  | nil => rfl
  | cons request requests ih =>
      rw [respondAll_cons, actsAll, Transducer.run_append, ← respond_eq_run_act, ih]

/-! ## Acts that are allowed -/

/-- When an act may be done: after a failure nothing is read and no line ends, and a stretch has no
terminator in it, not even the line feed of the carriage return before it. -/
def Allows (s : Splitter) : Act → Prop
  | .append stretch =>
    s.hasFailed = false ∧ (s.afterReturn = false ∨ stretch = []) ∧ Bytes.Unbroken stretch
  | .endLine _ => s.hasFailed = false
  | .forget | .settle => True

/-- Each of the acts is allowed where the acts before it lead. -/
def AllowsAll (s : Splitter) : List Act → Prop
  | [] => True
  | a :: rest => s.Allows a ∧ (s.act a).1.AllowsAll rest

theorem allowsAll_append (s : Splitter) (a b : List Act) :
    s.AllowsAll (a ++ b) ↔ s.AllowsAll a ∧ (Transducer.run act s a).1.AllowsAll b := by
  induction a generalizing s with
  | nil => simp [AllowsAll]
  | cons one a ih => simp [AllowsAll, Transducer.run_cons, ih, and_assoc]

theorem allowsAll_scanActs (s : Splitter) (chunk : Bytes) (hgoing : s.hasFailed = false)
    (hstart : s.afterReturn = false ∨ chunk = []) : s.AllowsAll (s.scanActs chunk) := by
  have hpart (h : chunk ≠ []) : s.Allows (.append (chunk.takeWhile (!Bytes.isTerminator ·))) :=
    ⟨hgoing, Or.inl (hstart.resolve_right h), Bytes.unbroken_takeWhile chunk⟩
  fun_induction scanActs s chunk with
  | case1 s chunk hnone =>
      have hfree : Bytes.Unbroken chunk := by
        simpa [Bytes.Unbroken] using List.dropWhile_eq_nil_iff.mp hnone
      exact ⟨⟨hgoing, hstart, hfree⟩, trivial⟩
  | case2 s chunk b rest hrest stretch hfailed =>
      refine ⟨hpart ?_, trivial⟩
      rintro rfl
      simp at hrest
  | case3 s chunk b rest hrest stretch ending hstill ih =>
      -- The rest of the chunk begins with no line feed that is still to be passed over.
      have hnext : (s.append stretch).1.hasFailed = false := by simpa using hstill
      refine ⟨hpart ?_, hnext, ih ?_ (passTerminator_spec b rest) ?_⟩
      · rintro rfl
        simp at hrest
      · exact (endLine_start hnext).1
      · intro h
        refine ⟨(endLine_start hnext).1, Or.inl ?_, Bytes.unbroken_takeWhile _⟩
        exact (passTerminator_spec b rest).resolve_right h

theorem allowsAll_acts (s : Splitter) (request : Request) : s.AllowsAll (s.acts request) := by
  cases request with
  | read chunk =>
      simp only [acts]
      split
      · trivial
      · next hgoing =>
          split
          · trivial
          · next hsome =>
              refine ⟨trivial, ?_⟩
              obtain ⟨b, rest, rfl⟩ := List.exists_cons_of_ne_nil hsome
              exact allowsAll_scanActs _ _ (by simpa [act, hasFailed] using hgoing) (Or.inl rfl)
  | close =>
      simp only [acts]
      split
      · next hcurrent =>
          split
          · exact ⟨trivial, trivial⟩
          · exact ⟨by simp [Allows, hasFailed, hcurrent], trivial⟩
      · next hcurrent => exact ⟨by simp [Allows, hasFailed, hcurrent], trivial⟩
      · exact ⟨trivial, trivial⟩
  | forget => exact ⟨trivial, trivial⟩

theorem allowsAll_actsAll (s : Splitter) (requests : List Request) :
    s.AllowsAll (s.actsAll requests) := by
  induction requests generalizing s with
  | nil => trivial
  | cons request requests ih =>
      rw [actsAll, allowsAll_append, ← respond_eq_run_act]
      exact ⟨s.allowsAll_acts request, ih _⟩

/-! ## The record beside the splitter -/

/-- What has happened since the last line boundary: a terminator, the end of the stream, or the
forgetting of the open line. -/
structure Sight where
  /-- The bytes of the open line. -/
  seen : Bytes := []
  /-- What the policy has been asked about. -/
  asked : List Bytes := []
  deriving DecidableEq, Repr

def Sight.next (sight : Sight) (s : Splitter) : Act → Sight
  | .append stretch => ⟨sight.seen ++ stretch, sight.asked ++ (s.asks? stretch).toList⟩
  | .endLine _ | .forget => {}
  | .settle => sight

/-- Does an act and records it. -/
def watch (watched : Splitter × Sight) (a : Act) : (Splitter × Sight) × List Signal :=
  (((watched.1.act a).1, watched.2.next watched.1 a), (watched.1.act a).2)

/-- The record does not change what is done. -/
theorem run_watch (s : Splitter) (sight : Sight) (all : List Act) :
    (Transducer.run watch (s, sight) all).1.1 = (Transducer.run act s all).1 ∧
      (Transducer.run watch (s, sight) all).2 = (Transducer.run act s all).2 := by
  induction all generalizing s sight with
  | nil => exact ⟨rfl, rfl⟩
  | cons a all ih =>
      obtain ⟨hstate, hout⟩ := ih (s.act a).1 (sight.next s a)
      rw [Transducer.run_cons, Transducer.run_cons]
      exact ⟨hstate, congrArg ((s.act a).2 ++ ·) hout⟩

/-! ## The invariant -/

/-- A splitter with these limits holds what the limits leave of the bytes in the record, and the
policy has been asked about as much of them as the limits say. -/
structure Holds (limits : LineLimits) (s : Splitter) (sight : Sight) : Prop where
  limits_eq : s.limits = limits
  unbroken : Bytes.Unbroken sight.seen
  asked_eq : sight.asked = limits.asked sight.seen
  current_eq : s.hasFailed = false → s.current = limits.openLine sight.seen
  /-- Right after a carriage return a line has just begun. -/
  fresh : s.afterReturn = true → s.current = .fitting #[]

namespace Holds

variable {limits : LineLimits} {s : Splitter} {sight : Sight}

theorem start (limits : LineLimits) (hpos : 0 < limits.maxSize) :
    Holds limits (Splitter.start limits hpos) {} where
  limits_eq := rfl
  unbroken := Bytes.unbroken_nil
  asked_eq := (LineLimits.asked_nil limits).symm
  current_eq := fun _ => (openLine_nil limits).symm
  fresh := by simp [Splitter.start]

theorem append (h : Holds limits s sight) {stretch : Bytes} (hallows : s.Allows (.append stretch)) :
    Holds limits (s.append stretch).1 (sight.next s (.append stretch)) := by
  obtain ⟨hgoing, hstart, hfree⟩ := hallows
  have hcurrent : s.current = s.limits.openLine sight.seen := h.limits_eq ▸ h.current_eq hgoing
  exact {
    limits_eq := (append_quiet s stretch).1.trans h.limits_eq
    unbroken := h.unbroken.append hfree
    asked_eq := by
      rw [Sight.next, h.asked_eq, ← h.limits_eq]
      exact (asked_append hcurrent stretch).symm
    current_eq := fun _ => by
      rw [Sight.next, ← h.limits_eq]
      exact current_append hcurrent stretch
    fresh := by
      intro hafter
      rcases hstart with hnone | rfl
      · rw [append_afterReturn hnone stretch] at hafter
        cases hafter
      · rw [append_nil] at hafter ⊢
        exact h.fresh hafter }

theorem endLine (h : Holds limits s sight) (hgoing : s.hasFailed = false) (after : Bool) :
    Holds limits { s.endLine.1 with afterReturn := after } {} := by
  obtain ⟨hlimits, hcurrent, -⟩ := endLine_next hgoing
  exact {
    limits_eq := hlimits.trans h.limits_eq
    unbroken := Bytes.unbroken_nil
    asked_eq := (LineLimits.asked_nil limits).symm
    current_eq := fun _ => hcurrent.trans (openLine_nil limits).symm
    fresh := fun _ => hcurrent }

theorem forget (h : Holds limits s sight) : Holds limits s.forget {} := by
  have hlimits : s.forget.limits = s.limits := by
    unfold Splitter.forget
    split <;> rfl
  have hafter : s.forget.afterReturn = false := by
    unfold Splitter.forget
    split <;> rfl
  exact {
    limits_eq := hlimits.trans h.limits_eq
    unbroken := Bytes.unbroken_nil
    asked_eq := (LineLimits.asked_nil limits).symm
    current_eq := by
      intro hgoing
      rw [openLine_nil]
      unfold Splitter.forget at hgoing ⊢
      split at hgoing
      · next hrejected => simp [hasFailed, hrejected] at hgoing
      · rfl
    fresh := by simp [hafter] }

/-- Every act that is allowed keeps the invariant. -/
theorem act (h : Holds limits s sight) {a : Act} (hallows : s.Allows a) :
    Holds limits (s.act a).1 (sight.next s a) := by
  cases a with
  | append stretch => exact h.append hallows
  | endLine after => exact h.endLine hallows after
  | forget => exact h.forget
  | settle =>
      exact {
        limits_eq := h.limits_eq
        unbroken := h.unbroken
        asked_eq := h.asked_eq
        current_eq := h.current_eq
        fresh := by simp [Splitter.act] }

theorem run (h : Holds limits s sight) {all : List Act} (hallows : s.AllowsAll all) :
    Holds limits (Transducer.run watch (s, sight) all).1.1
      (Transducer.run watch (s, sight) all).1.2 := by
  induction all generalizing s sight with
  | nil => exact h
  | cons a all ih =>
      rw [Transducer.run_cons]
      exact ih (h.act hallows.1) hallows.2

end Holds

/-! ## What is held and what is handed out -/

/-- The bytes held of a line that is not being collected. -/
def buffer (s : Splitter) : Bytes :=
  match s.current with
  | .fitting bytes => bytes.toList
  | .oversized (.truncate head) _ => head
  | .oversized .. => []
  | .rejected => []

theorem length_buffer (s : Splitter) : s.buffer.length = s.held := by
  cases hcurrent : s.current with
  | fitting bytes => simp [buffer, held, hcurrent]
  | oversized handling length => cases handling <;> simp [buffer, held, hcurrent]
  | rejected => simp [buffer, held, hcurrent]

/-- The bytes collected of an oversized line for its diagnostic. -/
def collected (s : Splitter) : Bytes :=
  match s.current with
  | .oversized (.capture bytes) _ => bytes.toList
  | _ => []

/-- What a splitter holds when `seen` has been read since the last line boundary. -/
structure Tidy (s : Splitter) (seen : Bytes) : Prop where
  held_le : s.held ≤ s.limit
  buffer_unbroken : Bytes.Unbroken s.buffer
  collected_unbroken : Bytes.Unbroken s.collected
  fresh : s.afterReturn = true → s.buffer = [] ∧ s.isOversized = false
  fitting : s.hasFailed = false → s.isOversized = false → s.buffer = seen
  oversized : ∀ {handling length}, s.current = .oversized handling length →
    s.limit < length ∧ length = seen.length
  skipped : ∀ {length}, s.current = .oversized .skip length → s.buffer = []
  truncated : ∀ {head length}, s.current = .oversized (.truncate head) length →
    s.buffer = seen.take s.limit ∧ s.buffer.length = s.limit
  captured : ∀ {bytes length}, s.current = .oversized (.capture bytes) length →
    s.buffer = [] ∧ s.collected = seen ∧ s.collected.length = length
  failed : s.hasFailed = true →
    s.buffer = [] ∧ s.isOversized = false ∧ s.afterReturn = false

theorem tidy_of_hasFailed {s : Splitter} (hfailed : s.hasFailed = true)
    (hfresh : s.afterReturn = true → s.current = .fitting #[]) (seen : Bytes) : s.Tidy seen := by
  have hcurrent := hasFailed_eq_true_iff.mp hfailed
  have hafter : s.afterReturn = false := by simpa [hcurrent] using hfresh
  have hbuffer : s.buffer = [] := by simp [buffer, hcurrent]
  have hcollected : s.collected = [] := by simp [collected, hcurrent]
  have hoversized : s.isOversized = false := by simp [isOversized, hcurrent]
  exact {
    held_le := by simp [← length_buffer, hbuffer]
    buffer_unbroken := hbuffer ▸ Bytes.unbroken_nil
    collected_unbroken := hcollected ▸ Bytes.unbroken_nil
    fresh := fun _ => ⟨hbuffer, hoversized⟩
    fitting := by simp [hfailed]
    oversized := by simp [hcurrent]
    skipped := by simp [hcurrent]
    truncated := by simp [hcurrent]
    captured := by simp [hcurrent]
    failed := fun _ => ⟨hbuffer, hoversized, hafter⟩ }

theorem tidy_of_current {s : Splitter} {seen : Bytes} (hgoing : s.hasFailed = false)
    (hcurrent : s.current = s.limits.openLine seen) (hfree : Bytes.Unbroken seen)
    (hfresh : s.afterReturn = true → s.current = .fitting #[]) : s.Tidy seen := by
  have hopen : s.limits.openLine seen ≠ .rejected := by
    rwa [← hcurrent, ne_eq, ← hasFailed_eq_true_iff, Bool.not_eq_true]
  have hstart (hafter : s.afterReturn = true) : s.buffer = [] ∧ s.isOversized = false := by
    simp [buffer, isOversized, hfresh hafter]
  rcases LineLimits.openLine_cases hopen with
    ⟨hlength, hline⟩ | ⟨hlength, hline | hline | hline⟩ <;> rw [← hcurrent] at hline
  · have hbuffer : s.buffer = seen := by simp [buffer, hline]
    exact {
      held_le := by rwa [← length_buffer, hbuffer]
      buffer_unbroken := hbuffer ▸ hfree
      collected_unbroken := by simp [collected, hline, Bytes.unbroken_nil]
      fresh := hstart
      fitting := fun _ _ => hbuffer
      oversized := by simp [hline]
      skipped := by simp [hline]
      truncated := by simp [hline]
      captured := by simp [hline]
      failed := by simp [hgoing] }
  · have hbuffer : s.buffer = [] := by simp [buffer, hline]
    exact {
      held_le := by simp [← length_buffer, hbuffer]
      buffer_unbroken := hbuffer ▸ Bytes.unbroken_nil
      collected_unbroken := by simp [collected, hline, Bytes.unbroken_nil]
      fresh := hstart
      fitting := by simp [isOversized, hline]
      oversized := by simpa [hline, limit] using hlength
      skipped := fun _ => hbuffer
      truncated := by simp [hline]
      captured := by simp [hline]
      failed := by simp [hgoing] }
  · have hbuffer : s.buffer = seen.take s.limit := by simp [buffer, hline, limit]
    have hfull : s.buffer.length = s.limit := by
      rw [hbuffer]
      exact List.length_take_of_le hlength.le
    exact {
      held_le := by rw [← length_buffer, hfull]
      buffer_unbroken := hbuffer ▸ hfree.take s.limit
      collected_unbroken := by simp [collected, hline, Bytes.unbroken_nil]
      fresh := hstart
      fitting := by simp [isOversized, hline]
      oversized := by simpa [hline, limit] using hlength
      skipped := by simp [hline]
      truncated := fun _ => ⟨hbuffer, hfull⟩
      captured := by simp [hline]
      failed := by simp [hgoing] }
  · have hbuffer : s.buffer = [] := by simp [buffer, hline]
    have hcollected : s.collected = seen := by simp [collected, hline]
    exact {
      held_le := by simp [← length_buffer, hbuffer]
      buffer_unbroken := hbuffer ▸ Bytes.unbroken_nil
      collected_unbroken := hcollected ▸ hfree
      fresh := hstart
      fitting := by simp [isOversized, hline]
      oversized := by simpa [hline, limit] using hlength
      skipped := by simp [hline]
      truncated := by simp [hline]
      captured := by simp [hline, hbuffer, hcollected]
      failed := by simp [hgoing] }

theorem Holds.tidy {limits : LineLimits} {s : Splitter} {sight : Sight}
    (h : Holds limits s sight) : s.Tidy sight.seen := by
  cases hfailed : s.hasFailed with
  | true => exact tidy_of_hasFailed hfailed h.fresh sight.seen
  | false => exact tidy_of_current hfailed (h.limits_eq ▸ h.current_eq hfailed) h.unbroken h.fresh

/-- Every line that is handed out is within its bounds. -/
theorem Holds.bounds_act {limits : LineLimits} {s : Splitter} {sight : Sight}
    (h : Holds limits s sight) {a : Act} (hallows : s.Allows a) :
    ∀ line ∈ Signal.lines (s.act a).2, limits.Bounds line := by
  cases a with
  | append stretch =>
      obtain ⟨-, -, hnone, -⟩ := append_quiet s stretch
      simp [Splitter.act, hnone]
  | endLine after =>
      intro line hline
      have hcurrent : s.current = s.limits.openLine sight.seen :=
        h.limits_eq ▸ h.current_eq hallows
      have hmade : line ∈ (s.limits.line? (s.ended + 1) sight.seen).toList := by
        rw [← (signals_endLine hcurrent hallows).1]
        exact hline
      rw [← h.limits_eq]
      exact LineLimits.bounds_of_line? (Option.mem_toList.mp hmade)
  | forget => simp [Splitter.act]
  | settle => simp [Splitter.act]

theorem Holds.bounds_run {limits : LineLimits} {s : Splitter} {sight : Sight}
    (h : Holds limits s sight) {all : List Act} (hallows : s.AllowsAll all) :
    ∀ line ∈ Signal.lines (Transducer.run Splitter.act s all).2, limits.Bounds line := by
  induction all generalizing s sight with
  | nil => simp
  | cons a all ih =>
      rw [Transducer.run_cons, Signal.lines_append, List.forall_mem_append]
      exact ⟨h.bounds_act hallows.1, ih (h.act hallows.1) hallows.2⟩

/-- After any requests a splitter that goes on holds what the limits leave of the bytes since the
last line boundary, as the course of the requests tells them. -/
theorem tidy_respondAll (limits : LineLimits) (hpos : 0 < limits.maxSize)
    (requests : List Request) :
    ((start limits hpos).respondAll requests).1.Tidy (Course.of requests).openBytes := by
  have hholds := (Holds.start limits hpos).run (allowsAll_actsAll _ requests)
  have hfresh := hholds.fresh
  rw [(run_watch _ _ _).1, ← respondAll_eq_run_act] at hfresh
  cases hfailed : ((start limits hpos).respondAll requests).1.hasFailed with
  | true => exact tidy_of_hasFailed hfailed hfresh _
  | false =>
      have hfollows := follows_of_going hpos hfailed
      refine tidy_of_current hfailed ?_ (Bytes.unbroken_cut _).2 hfresh
      rw [hfollows.limits_eq]
      exact hfollows.current_eq

/-- Whatever is asked of a splitter, it holds no more of an open line than the limits allow, nothing
of a line that is over, and no terminator, and the lines that it hands out are within their bounds.
The same holds before and after every act that makes up what is asked, and between two line
boundaries the policy is asked at most once: when the line outgrows the limit, about all that the
limit allows of it. -/
theorem respondAll_tidy (limits : LineLimits) (hpos : 0 < limits.maxSize)
    (requests : List Request) :
    let first := start limits hpos
    let ran := first.respondAll requests
    ran.1.Tidy (Course.of requests).openBytes ∧
    (∀ line ∈ Signal.lines ran.2, limits.Bounds line) ∧
    Transducer.run act first (first.actsAll requests) = ran ∧
    (∀ done, done <+: first.actsAll requests →
      let sight := (Transducer.run watch (first, {}) done).1.2
      (Transducer.run act first done).1.Tidy sight.seen ∧
        sight.asked =
          if sight.seen.length ≤ limits.maxSize then [] else [sight.seen.take limits.maxSize]) ∧
    ∀ (s : Splitter) (stretch : Bytes),
      s.append stretch =
        match s.asks? stretch with
        | some head => s.outgrow head (stretch.drop (s.limit - s.held))
        | none => (s.absorb stretch, []) := by
  intro first ran
  have hstart : Holds limits first {} := Holds.start limits hpos
  have hallows := allowsAll_actsAll first requests
  refine ⟨tidy_respondAll limits hpos requests, ?_, (respondAll_eq_run_act first requests).symm,
    ?_, append_eq⟩
  · have hbounds := hstart.bounds_run hallows
    rwa [← respondAll_eq_run_act] at hbounds
  · rintro done ⟨later, hlater⟩ sight
    rw [← hlater, allowsAll_append] at hallows
    have hholds := hstart.run hallows.1
    refine ⟨?_, hholds.asked_eq⟩
    have htidy := hholds.tidy
    rwa [(run_watch first {} done).1] at htidy

/-- The policy is asked about the first three bytes of an oversized line, which is then forgotten
in its middle. -/
theorem respondAll_tidy_of_forget :
    let first := start ⟨3, .truncate⟩ (by decide)
    let requests : List Request := [.read [0x61, 0x62, 0x63, 0x64], .forget, .read [0x65]]
    let done : List Act := [.settle, .append [0x61, 0x62, 0x63, 0x64]]
    (first.respondAll requests).1.Tidy [0x65] ∧
      (Transducer.run act first done).1.Tidy [0x61, 0x62, 0x63, 0x64] ∧
      (Transducer.run watch (first, {}) done).1.2.asked = [[0x61, 0x62, 0x63]] := by
  intro first requests done
  obtain ⟨hlast, -, -, hdone, -⟩ := respondAll_tidy ⟨3, .truncate⟩ (by decide) requests
  have hacts : first.acts (.read [0x61, 0x62, 0x63, 0x64]) = done := by
    have hscan (s : Splitter) : s.scanActs [0x61, 0x62, 0x63, 0x64] =
        [.append [0x61, 0x62, 0x63, 0x64]] := by
      rw [scanActs]
      rfl
    exact congrArg (Act.settle :: ·) (hscan _)
  have hprefix : done <+: first.actsAll requests := by
    rw [actsAll, hacts]
    exact List.prefix_append _ _
  obtain ⟨htidy, hasked⟩ := hdone done hprefix
  exact ⟨hlast, htidy, hasked⟩

end Splitter

end ServerSentEvents
