import ServerSentEvents.Arguments

/-!
# What arguments give

A list of arguments is made up of inputs, of options with the values that belong to them, and, after
two dashes, of inputs alone (`Arguments.Gives`).  The reading settles an argument only when the next
one begins; this decides which error is reported, but not what has been given once nothing is wrong
(`Arguments.parse_eq_ok_iff`).  So what is accepted can be told from what is given, and from what
is given it can be told which stream is read, and whether an id to go on from is of any use
(`Arguments.parse_source`).
-/

namespace ServerSentEvents

namespace Arguments

theorem bind_eq_ok_iff {ε α β : Type} {x : Except ε α} {f : α → Except ε β} {b : β} :
    (x >>= f) = .ok b ↔ ∃ a, x = .ok a ∧ f a = .ok b := by
  cases x with
  | error error => exact ⟨nofun, nofun⟩
  | ok a => exact ⟨fun h => ⟨a, rfl, h⟩, fun ⟨_, ha, h⟩ => Except.ok.inj ha ▸ h⟩

theorem pure_eq_ok_iff {ε α : Type} {a b : α} : (pure a : Except ε α) = .ok b ↔ b = a :=
  Except.ok.injEq a b ▸ eq_comm

theorem exists_map_eq_ok_iff {ε α β : Type} {x : Except ε α} {f : α → β} :
    (∃ b, (do return f (← x)) = Except.ok b) ↔ ∃ a, x = .ok a := by
  cases x with
  | error error => exact ⟨nofun, nofun⟩
  | ok a => exact ⟨fun _ => ⟨a, rfl⟩, fun _ => ⟨f a, rfl⟩⟩

/-! ## Giving one argument -/

section

variable {a b : Arguments} {name other : ArgumentName} {value : String}

/-- A value that can be read as that of an argument. -/
def Readable : ArgumentName → String → Prop
  | .url, _ | .lastEventId, _ => True
  | .input, value | .config, value | .deadLetterDir, value => ∃ path, readPath value = .ok path
  | .maxLineSize, value => ∃ size, readSize value = .ok size
  | .overflow, value => ∃ policy, readPolicy value = .ok policy
  | .format, value | .logFormat, value => ∃ format, readFormat value = .ok format

/-- The text of an argument whose value is kept as it comes. -/
def text? (a : Arguments) : ArgumentName → Option String
  | .input => a.input
  | .url => a.url
  | .lastEventId => a.lastEventId
  | .config => a.config
  | .deadLetterDir => a.deadLetterDir
  | .maxLineSize | .overflow | .format | .logFormat => none

/-- Arguments whose value is kept as it comes. -/
def IsText (name : ArgumentName) : Prop :=
  name ∈ [ArgumentName.input, .url, .lastEventId, .config, .deadLetterDir]

instance : DecidablePred IsText :=
  fun name => inferInstanceAs (Decidable (name ∈ _))

theorem has_eq_isSome_text? (htext : IsText name) : a.has name = (a.text? name).isSome := by
  cases name <;> first | rfl | simp [IsText] at htext

theorem readPath_eq_ok_iff {path : String} :
    readPath value = .ok path ↔ value.isEmpty = false ∧ path = value := by
  unfold readPath
  cases value.isEmpty <;> simp [eq_comm]

/-- Whether an argument can be set is a matter of its value alone. -/
theorem exists_set_eq_ok_iff : (∃ b, a.set name value = .ok b) ↔ Readable name value := by
  cases name with
  | url | lastEventId => exact ⟨fun _ => trivial, fun _ => ⟨_, rfl⟩⟩
  | _ => exact exists_map_eq_ok_iff

/-- Every argument is kept in a place of its own. -/
theorem has_set (hset : a.set name value = .ok b) :
    b.has other = true ↔ a.has other = true ∨ other = name := by
  cases name with
  | url | lastEventId =>
      cases hset
      cases other <;> simp [has]
  | _ =>
      obtain ⟨_, -, hb⟩ := bind_eq_ok_iff.mp hset
      cases hb
      cases other <;> simp [has]

theorem has_set_eq_false_iff (hset : a.set name value = .ok b) :
    b.has other = false ↔ a.has other = false ∧ other ≠ name := by
  simp only [← Bool.not_eq_true, has_set hset, not_or, ne_eq]

theorem text?_set (hset : a.set name value = .ok b) (htext : IsText other) :
    b.text? other = if other = name then some value else a.text? other := by
  cases name with
  | url | lastEventId =>
      cases hset
      cases other <;> simp [text?]
  | input | config | deadLetterDir =>
      obtain ⟨path, hread, hb⟩ := bind_eq_ok_iff.mp hset
      obtain ⟨-, rfl⟩ := readPath_eq_ok_iff.mp hread
      cases hb
      cases other <;> simp [text?]
  | maxLineSize | overflow | format | logFormat =>
      obtain ⟨_, -, hb⟩ := bind_eq_ok_iff.mp hset
      cases hb
      cases other <;> first | rfl | simp [IsText] at htext

theorem give_eq_ok_iff :
    a.give name (some value) = .ok b ↔ a.has name = false ∧ a.set name value = .ok b := by
  rw [give]
  cases a.has name <;> simp

end

/-! ## Giving several -/

/-- An argument and its value. -/
abbrev Item := ArgumentName × String

/-- Gives arguments their values, one after the other. -/
def giveAll (a : Arguments) (items : List Item) : Except ArgumentError Arguments :=
  items.foldlM (fun a item => a.give item.1 (some item.2)) a

section

variable {a b : Arguments} {items others : List Item} {name : ArgumentName} {value : String}

@[simp] theorem giveAll_nil (a : Arguments) : a.giveAll [] = .ok a :=
  rfl

theorem giveAll_singleton (a : Arguments) (item : Item) :
    a.giveAll [item] = a.give item.1 (some item.2) := by
  rw [giveAll, List.foldlM_cons]
  exact bind_pure _

theorem giveAll_cons_eq_ok_iff :
    a.giveAll ((name, value) :: items) = .ok b ↔
      a.has name = false ∧ ∃ c, a.set name value = .ok c ∧ c.giveAll items = .ok b := by
  rw [giveAll, List.foldlM_cons, bind_eq_ok_iff]
  simp only [give_eq_ok_iff, and_assoc, exists_and_left]
  rfl

theorem giveAll_append_eq_ok_iff :
    a.giveAll (items ++ others) = .ok b ↔
      ∃ c, a.giveAll items = .ok c ∧ c.giveAll others = .ok b := by
  rw [giveAll, List.foldlM_append, bind_eq_ok_iff]
  rfl

theorem giveAll_cons_iff {item : Item} :
    a.giveAll (item :: items) = .ok b ↔
      ∃ c, a.giveAll [item] = .ok c ∧ c.giveAll items = .ok b := by
  rw [← List.singleton_append, giveAll_append_eq_ok_iff]

/-- Arguments can be given together if none is given twice and every value can be read. -/
theorem exists_giveAll_eq_ok_iff :
    (∃ b, a.giveAll items = .ok b) ↔
      (items.map Prod.fst).Nodup ∧ (∀ name ∈ items.map Prod.fst, a.has name = false) ∧
        ∀ item ∈ items, Readable item.1 item.2 := by
  induction items generalizing a with
  | nil => simp
  | cons item items ih =>
      obtain ⟨name, value⟩ := item
      simp only [giveAll_cons_eq_ok_iff, exists_and_left, List.map_cons, List.nodup_cons,
        List.forall_mem_cons]
      constructor
      · rintro ⟨hnew, b, c, hset, hrest⟩
        obtain ⟨hnodup, hothers, hreadable⟩ := ih.mp ⟨b, hrest⟩
        have hsplit (other : ArgumentName) (hother : other ∈ items.map Prod.fst) :
            a.has other = false ∧ other ≠ name :=
          (has_set_eq_false_iff hset).mp (hothers other hother)
        exact ⟨⟨fun hname => (hsplit name hname).2 rfl, hnodup⟩,
          ⟨hnew, fun other hother => (hsplit other hother).1⟩,
          exists_set_eq_ok_iff.mp ⟨c, hset⟩, hreadable⟩
      · rintro ⟨⟨hname, hnodup⟩, ⟨hnew, hothers⟩, hvalue, hreadable⟩
        obtain ⟨c, hset⟩ := (exists_set_eq_ok_iff (a := a)).mpr hvalue
        have hfree (other : ArgumentName) (hother : other ∈ items.map Prod.fst) :
            c.has other = false :=
          (has_set_eq_false_iff hset).mpr ⟨hothers other hother, fun h => hname (h ▸ hother)⟩
        obtain ⟨b, hrest⟩ := ih.mpr ⟨hnodup, hfree, hreadable⟩
        exact ⟨hnew, b, c, hset, hrest⟩

theorem has_giveAll (hgive : a.giveAll items = .ok b) :
    b.has name = true ↔ a.has name = true ∨ name ∈ items.map Prod.fst := by
  induction items generalizing a with
  | nil =>
      obtain rfl : a = b := Except.ok.inj hgive
      simp
  | cons item items ih =>
      obtain ⟨-, c, hset, hrest⟩ := giveAll_cons_eq_ok_iff.mp hgive
      rw [ih hrest, has_set hset, or_assoc, List.map_cons, List.mem_cons]

theorem text?_giveAll (hgive : a.giveAll items = .ok b) (htext : IsText name) :
    b.text? name = some value ↔ a.text? name = some value ∨ (name, value) ∈ items := by
  induction items generalizing a with
  | nil =>
      obtain rfl : a = b := Except.ok.inj hgive
      simp
  | cons item items ih =>
      obtain ⟨other, given⟩ := item
      obtain ⟨hnew, c, hset, hrest⟩ := giveAll_cons_eq_ok_iff.mp hgive
      rw [ih hrest, text?_set hset htext, List.mem_cons, Prod.mk.injEq]
      by_cases hname : name = other
      · subst hname
        have hnone : a.text? name = none := by
          rw [has_eq_isSome_text? htext, Option.isSome_eq_false_iff] at hnew
          exact Option.isNone_iff_eq_none.mp hnew
        simp [hnone, eq_comm]
      · simp [hname]

end

/-! ## What a list gives -/

theorem shape_eq_separator_iff {argument : String} :
    shape argument = .separator ↔ argument = "--" := by
  constructor
  · intro hshape
    unfold shape at hshape
    split at hshape
    · next h => exact String.toList_inj.mp h
    · dsimp only at hshape
      split at hshape <;> cases hshape
    · cases hshape
    · cases hshape
  · rintro rfl
    rfl

/-- The option that an argument names, and the value that is attached to it. -/
def option? (argument : String) : Option (ArgumentName × Option String) :=
  match shape argument with
  | .long name value => (ofLongName? name).map (·, value)
  | .short 'c' attached =>
    some (.config,
      match attached with
      | [] => none
      | '=' :: value => some (String.ofList value)
      | value => some (String.ofList value))
  | _ => none

/-- Lists of arguments that are made up as they should be, and what they give. -/
inductive Gives : List String → List Item → Prop
  | nothing : Gives [] []
  | inputs (arguments : List String) : Gives ("--" :: arguments) (arguments.map (.input, ·))
  | input {argument : String} {rest : List String} {items : List Item}
      (hplain : shape argument = .plain) (hrest : Gives rest items) :
      Gives (argument :: rest) ((.input, argument) :: items)
  | attached {argument value : String} {name : ArgumentName} {rest : List String}
      {items : List Item} (hoption : option? argument = some (name, some value))
      (hrest : Gives rest items) : Gives (argument :: rest) ((name, value) :: items)
  | apart {argument value : String} {name : ArgumentName} {rest : List String}
      {items : List Item} (hoption : option? argument = some (name, none))
      (hplain : shape value = .plain) (hrest : Gives rest items) :
      Gives (argument :: value :: rest) ((name, value) :: items)

namespace Reading

/-! ### One argument -/

/-- The option whose value has not come. -/
def waiting? (r : Reading) : Option ArgumentName :=
  match r.open? with
  | some (name, none) => some name
  | _ => none

/-- What has come and is not settled. -/
def pending (r : Reading) : List Item :=
  match r.open? with
  | some (name, some value) => [(name, value)]
  | _ => []

/-- No value is missing, and what has come can be settled so. -/
def SettlesAt (r : Reading) (a : Arguments) : Prop :=
  r.waiting? = none ∧ r.given.giveAll r.pending = .ok a

/-- What one argument does to the reading. -/
inductive Takes (r : Reading) (argument : String) : Reading → Prop
  | separator (hbefore : r.afterSeparator = false) (hargument : argument = "--") :
      Takes r argument { r with afterSeparator := true }
  | value {name : ArgumentName} (hbefore : r.afterSeparator = false)
      (hplain : shape argument = .plain) (hwaiting : r.waiting? = some name) :
      Takes r argument { r with open? := some (name, some argument) }
  | input {a : Arguments} (hplain : r.afterSeparator = true ∨ shape argument = .plain)
      (hfirst : r.hasInput = false) (hsettles : r.SettlesAt a) :
      Takes r argument
        { r with given := a, open? := some (.input, some argument), hasInput := true }
  | option {a : Arguments} {name : ArgumentName} (hbefore : r.afterSeparator = false)
      (hoption : option? argument = some (name, none)) (hsettles : r.SettlesAt a) :
      Takes r argument { r with given := a, open? := some (name, none) }
  | attached {a b : Arguments} {name : ArgumentName} {value : String}
      (hbefore : r.afterSeparator = false) (hoption : option? argument = some (name, some value))
      (hsettles : r.SettlesAt a) (hgive : a.giveAll [(name, value)] = .ok b) :
      Takes r argument { r with given := b, open? := none }

section

variable {r s : Reading} {name : ArgumentName} {argument : String}

theorem settle_eq_ok_iff :
    r.settle = .ok s ↔ ∃ a, r.SettlesAt a ∧ s = { r with given := a, open? := none } := by
  obtain ⟨given, waits, after, hasInput⟩ := r
  rcases waits with _ | ⟨name, _ | value⟩
  · simp [settle, SettlesAt, waiting?, pending, eq_comm]
  · simp only [settle, SettlesAt, waiting?, give, bind_eq_ok_iff, reduceCtorEq, false_and,
      exists_false]
  · simp only [settle, SettlesAt, waiting?, pending, giveAll_singleton, bind_eq_ok_iff, true_and]
    constructor
    · rintro ⟨a, hgive, hs⟩
      exact ⟨a, hgive, (Except.ok.inj hs).symm⟩
    · rintro ⟨a, hgive, rfl⟩
      exact ⟨a, hgive, rfl⟩

theorem settle_bind_eq_ok_iff {β : Type} {f : Reading → Except ArgumentError β} {b : β} :
    (r.settle >>= f) = .ok b ↔
      ∃ a, r.SettlesAt a ∧ f { r with given := a, open? := none } = .ok b := by
  simp only [bind_eq_ok_iff, settle_eq_ok_iff]
  constructor
  · rintro ⟨_, ⟨a, hsettles, rfl⟩, hb⟩
    exact ⟨a, hsettles, hb⟩
  · rintro ⟨a, hsettles, hb⟩
    exact ⟨_, ⟨a, hsettles, rfl⟩, hb⟩

theorem takeInput_eq_ok_iff :
    r.takeInput argument = .ok s ↔ r.hasInput = false ∧ ∃ a, r.SettlesAt a ∧
      s = { r with given := a, open? := some (.input, some argument), hasInput := true } := by
  rw [takeInput]
  cases r.hasInput with
  | true => simp
  | false =>
      simp only [Bool.false_eq_true, if_false, true_and, settle_bind_eq_ok_iff, pure_eq_ok_iff]

theorem takeOption_none_eq_ok_iff :
    r.takeOption name none = .ok s ↔
      ∃ a, r.SettlesAt a ∧ s = { r with given := a, open? := some (name, none) } := by
  simp only [takeOption, settle_bind_eq_ok_iff, pure_eq_ok_iff]

theorem takeOption_some_eq_ok_iff {value : String} :
    r.takeOption name (some value) = .ok s ↔
      ∃ a, r.SettlesAt a ∧ ∃ b, a.giveAll [(name, value)] = .ok b ∧
        s = { r with given := b, open? := none } := by
  simp only [takeOption, settle_bind_eq_ok_iff]
  simp only [bind_eq_ok_iff, giveAll_singleton, pure_eq_ok_iff]

theorem takeFlag_ne_ok (ending : ArgumentError) : r.takeFlag ending ≠ .ok s := by
  intro h
  obtain ⟨_, -, h⟩ := settle_bind_eq_ok_iff.mp h
  cases h

theorem waiting?_eq_some_iff : r.waiting? = some name ↔ r.open? = some (name, none) := by
  rw [waiting?]
  split
  · next h => simp [h]
  · next h => exact ⟨nofun, fun hopen => absurd hopen (h name)⟩

theorem take_eq_takeLong {name : String} {value : Option String}
    (hbefore : r.afterSeparator = false) (hshape : shape argument = .long name value) :
    r.take argument = r.takeLong name value := by
  rw [take, if_neg (Bool.eq_false_iff.mp hbefore), hshape]

theorem take_eq_takeShort {letter : Char} {attached : List Char}
    (hbefore : r.afterSeparator = false) (hshape : shape argument = .short letter attached) :
    r.take argument = r.takeShort letter attached := by
  rw [take, if_neg (Bool.eq_false_iff.mp hbefore), hshape]

theorem take_of_option? {value : Option String} (hbefore : r.afterSeparator = false)
    (hoption : option? argument = some (name, value)) :
    r.take argument = r.takeOption name value := by
  rw [option?] at hoption
  split at hoption
  · next hshape =>
      obtain ⟨found, hfound, hnames⟩ := Option.map_eq_some_iff.mp hoption
      cases hnames
      rw [take_eq_takeLong hbefore hshape, takeLong, hfound]
  · next hshape =>
      cases hoption
      exact take_eq_takeShort hbefore hshape
  · cases hoption

theorem take_of_waiting? (hbefore : r.afterSeparator = false) (hplain : shape argument = .plain)
    (hwaiting : r.waiting? = some name) :
    r.take argument = .ok { r with open? := some (name, some argument) } := by
  rw [take, if_neg (Bool.eq_false_iff.mp hbefore), hplain, waiting?_eq_some_iff.mp hwaiting]

theorem take_eq_takeInput (hplain : r.afterSeparator = true ∨ shape argument = .plain)
    (hwaiting : r.afterSeparator = true ∨ r.waiting? = none) :
    r.take argument = r.takeInput argument := by
  rw [take]
  split
  · rfl
  · next hbefore =>
      rw [hplain.resolve_left hbefore]
      dsimp only
      split
      · next hopen =>
          have hnone := hwaiting.resolve_left hbefore
          rw [waiting?_eq_some_iff.mpr hopen] at hnone
          cases hnone
      · rfl

/-- What looks like an option and is none is not accepted. -/
theorem take_ne_ok_of_option? (hbefore : r.afterSeparator = false)
    (hseparator : shape argument ≠ .separator) (hplain : shape argument ≠ .plain)
    (hoption : option? argument = none) : r.take argument ≠ .ok s := by
  rw [option?] at hoption
  cases hshape : shape argument with
  | separator => exact absurd hshape hseparator
  | plain => exact absurd hshape hplain
  | long name value =>
      rw [hshape] at hoption
      rw [take_eq_takeLong hbefore hshape, takeLong, Option.map_eq_none_iff.mp hoption]
      dsimp only
      split
      · split
        · exact nofun
        · exact takeFlag_ne_ok _
      · exact nofun
  | short letter attached =>
      rw [hshape] at hoption
      rw [take_eq_takeShort hbefore hshape, takeShort.eq_def]
      split
      · cases hoption
      · exact takeFlag_ne_ok _
      · exact takeFlag_ne_ok _
      · exact nofun

theorem Takes.of_take_eq_ok (htake : r.take argument = .ok s) : Takes r argument s := by
  have hinput (hplain : r.afterSeparator = true ∨ shape argument = .plain)
      (hwaiting : r.afterSeparator = true ∨ r.waiting? = none) : Takes r argument s := by
    rw [take_eq_takeInput hplain hwaiting] at htake
    obtain ⟨hfirst, a, hsettles, rfl⟩ := takeInput_eq_ok_iff.mp htake
    exact .input hplain hfirst hsettles
  cases hafter : r.afterSeparator with
  | true => exact hinput (Or.inl hafter) (Or.inl hafter)
  | false =>
      cases hoption : option? argument with
      | some found =>
          obtain ⟨name, _ | value⟩ := found
          · rw [take_of_option? hafter hoption] at htake
            obtain ⟨a, hsettles, rfl⟩ := takeOption_none_eq_ok_iff.mp htake
            exact .option hafter hoption hsettles
          · rw [take_of_option? hafter hoption] at htake
            obtain ⟨a, hsettles, b, hgive, rfl⟩ := takeOption_some_eq_ok_iff.mp htake
            exact .attached hafter hoption hsettles hgive
      | none =>
          -- An option is one whatever is open; only what is plain depends on what waits for it.
          by_cases hseparator : shape argument = .separator
          · rw [take, if_neg (Bool.eq_false_iff.mp hafter), hseparator] at htake
            cases htake
            exact .separator hafter (shape_eq_separator_iff.mp hseparator)
          by_cases hplain : shape argument = .plain
          · cases hwaiting : r.waiting? with
            | none => exact hinput (Or.inr hplain) (Or.inr hwaiting)
            | some name =>
                rw [take_of_waiting? hafter hplain hwaiting] at htake
                cases htake
                exact .value hafter hplain hwaiting
          · exact absurd htake (take_ne_ok_of_option? hafter hseparator hplain hoption)

theorem Takes.take_eq_ok (htakes : Takes r argument s) : r.take argument = .ok s := by
  cases htakes with
  | separator hbefore hargument =>
      subst hargument
      rw [take, if_neg (Bool.eq_false_iff.mp hbefore)]
      rfl
  | value hbefore hplain hwaiting => exact take_of_waiting? hbefore hplain hwaiting
  | input hplain hfirst hsettles =>
      rw [take_eq_takeInput hplain (Or.inr hsettles.1)]
      exact takeInput_eq_ok_iff.mpr ⟨hfirst, _, hsettles, rfl⟩
  | option hbefore hoption hsettles =>
      rw [take_of_option? hbefore hoption]
      exact takeOption_none_eq_ok_iff.mpr ⟨_, hsettles, rfl⟩
  | attached hbefore hoption hsettles hgive =>
      rw [take_of_option? hbefore hoption]
      exact takeOption_some_eq_ok_iff.mpr ⟨_, hsettles, _, hgive, rfl⟩

theorem take_eq_ok_iff : r.take argument = .ok s ↔ Takes r argument s :=
  ⟨Takes.of_take_eq_ok, Takes.take_eq_ok⟩

end

/-! ### All that are left -/

/-- Takes in all arguments that are left, and settles the last one. -/
def finish (r : Reading) (arguments : List String) : Except ArgumentError Arguments := do
  let last ← arguments.foldlM take r
  return (← last.settle).given

/-- Arguments that are left, and what they give in the state in which they are met. -/
inductive Awaits (r : Reading) : List String → List Item → Prop
  | inputs (hafter : r.afterSeparator = true) (hwaiting : r.waiting? = none)
      (arguments : List String) : Awaits r arguments (arguments.map (.input, ·))
  | anything {arguments : List String} {items : List Item} (hbefore : r.afterSeparator = false)
      (hwaiting : r.waiting? = none) (hgives : Gives arguments items) : Awaits r arguments items
  | value {name : ArgumentName} {value : String} {rest : List String} {items : List Item}
      (hbefore : r.afterSeparator = false) (hwaiting : r.waiting? = some name)
      (hplain : shape value = .plain) (hgives : Gives rest items) :
      Awaits r (value :: rest) ((name, value) :: items)

/-- That there has been an input is on record with the input. -/
def NotesInput (r : Reading) : Prop :=
  r.hasInput = true → r.given.has .input = true ∨ .input ∈ r.pending.map Prod.fst

section

variable {r s : Reading} {a : Arguments} {argument : String} {arguments : List String}
  {items : List Item}

theorem finish_nil_eq_ok_iff : r.finish [] = .ok a ↔ r.SettlesAt a := by
  rw [finish, List.foldlM_nil, pure_bind, settle_bind_eq_ok_iff]
  simp only [pure_eq_ok_iff, exists_eq_right']

theorem finish_cons_eq_ok_iff :
    r.finish (argument :: arguments) = .ok a ↔
      ∃ s, Takes r argument s ∧ s.finish arguments = .ok a := by
  rw [finish, List.foldlM_cons, bind_assoc, bind_eq_ok_iff]
  simp only [take_eq_ok_iff]
  rfl

/-- What is waiting to be settled is given before what is still to come. -/
theorem SettlesAt.giveAll_append_eq_ok_iff {b : Arguments} (hsettles : r.SettlesAt b) :
    r.given.giveAll (r.pending ++ items) = .ok a ↔ b.giveAll items = .ok a := by
  rw [Arguments.giveAll_append_eq_ok_iff]
  constructor
  · rintro ⟨c, hc, hitems⟩
    obtain rfl : b = c := Except.ok.inj (hsettles.2.symm.trans hc)
    exact hitems
  · exact fun hitems => ⟨b, hsettles.2, hitems⟩

theorem pending_of_waiting? {name : ArgumentName} (hwaiting : r.waiting? = some name) :
    r.pending = [] := by
  rw [pending, waiting?_eq_some_iff.mp hwaiting]

theorem SettlesAt.has_of_notesInput {b : Arguments} (hsettles : r.SettlesAt b)
    (hnotes : r.NotesInput) (hinput : r.hasInput = true) : b.has .input = true :=
  (has_giveAll hsettles.2).mpr (hnotes hinput)

theorem Takes.notesInput (htakes : Takes r argument s) (hnotes : r.NotesInput) : s.NotesInput := by
  cases htakes with
  | separator => exact hnotes
  | value hbefore hplain hwaiting =>
      intro hinput
      have hnoted := hnotes hinput
      rw [pending_of_waiting? hwaiting] at hnoted
      exact Or.inl (hnoted.resolve_right List.not_mem_nil)
  | input => exact fun _ => Or.inr List.mem_cons_self
  | option hbefore hoption hsettles =>
      exact fun hinput => Or.inl (hsettles.has_of_notesInput hnotes hinput)
  | attached hbefore hoption hsettles hgive =>
      intro hinput
      exact Or.inl ((has_giveAll hgive).mpr (Or.inl (hsettles.has_of_notesInput hnotes hinput)))

/-- What an argument has done is given with what comes after it. -/
theorem Takes.exists_awaits (htakes : Takes r argument s) (hawaits : s.Awaits arguments items)
    (hgive : s.given.giveAll (s.pending ++ items) = .ok a) :
    ∃ items, r.Awaits (argument :: arguments) items ∧
      r.given.giveAll (r.pending ++ items) = .ok a := by
  cases htakes with
  | separator hbefore hargument =>
      subst hargument
      cases hawaits with
      | inputs _ hwaiting => exact ⟨_, .anything hbefore hwaiting (.inputs arguments), hgive⟩
      | anything hafter => cases hafter
      | value hafter => cases hafter
  | @value name hbefore hplain hwaiting =>
      rw [pending_of_waiting? hwaiting]
      cases hawaits with
      | inputs hafter => cases hbefore.symm.trans hafter
      | anything _ _ hgives => exact ⟨_, .value hbefore hwaiting hplain hgives, hgive⟩
      | value _ hnone => cases hnone
  | input hplain hfirst hsettles =>
      refine ⟨(.input, argument) :: items, ?_, hsettles.giveAll_append_eq_ok_iff.mpr hgive⟩
      cases hawaits with
      | inputs hafter => exact .inputs (r := r) hafter hsettles.1 (argument :: arguments)
      | anything hbefore _ hgives =>
          have hplain := hplain.resolve_left (Bool.eq_false_iff.mp hbefore)
          exact .anything hbefore hsettles.1 (.input hplain hgives)
      | value _ hnone => cases hnone
  | option hbefore hoption hsettles =>
      refine ⟨items, ?_, hsettles.giveAll_append_eq_ok_iff.mpr hgive⟩
      cases hawaits with
      | inputs _ hnone => cases hnone
      | anything _ hnone => cases hnone
      | value _ hsome hplain hgives =>
          cases hsome
          exact .anything hbefore hsettles.1 (.apart hoption hplain hgives)
  | @attached b c name value hbefore hoption hsettles hset =>
      refine ⟨(name, value) :: items, ?_, hsettles.giveAll_append_eq_ok_iff.mpr
        (giveAll_cons_iff.mpr ⟨c, hset, hgive⟩)⟩
      cases hawaits with
      | inputs hafter => cases hbefore.symm.trans hafter
      | anything _ _ hgives => exact .anything hbefore hsettles.1 (.attached hoption hgives)
      | value _ hnone => cases hnone

/-- What has been read to the end was given. -/
theorem exists_awaits_of_finish (hfinish : r.finish arguments = .ok a) :
    ∃ items, r.Awaits arguments items ∧ r.given.giveAll (r.pending ++ items) = .ok a := by
  -- Over all states, for a reading passes through those that wait for a value.
  induction arguments generalizing r with
  | nil =>
      have hsettles := finish_nil_eq_ok_iff.mp hfinish
      refine ⟨[], ?_, hsettles.giveAll_append_eq_ok_iff.mpr rfl⟩
      cases hafter : r.afterSeparator with
      | true => exact .inputs hafter hsettles.1 []
      | false => exact .anything hafter hsettles.1 .nothing
  | cons argument rest ih =>
      obtain ⟨s, htakes, hrest⟩ := finish_cons_eq_ok_iff.mp hfinish
      obtain ⟨items, hawaits, hgive⟩ := ih hrest
      exact htakes.exists_awaits hawaits hgive

/-- A first input can be taken in where there has been none. -/
theorem takes_input_of_giveAll (hnotes : r.NotesInput) (hwaiting : r.waiting? = none)
    (hplain : r.afterSeparator = true ∨ shape argument = .plain)
    (hgive : r.given.giveAll (r.pending ++ (.input, argument) :: items) = .ok a) :
    ∃ s, Takes r argument s ∧ s.afterSeparator = r.afterSeparator ∧ s.waiting? = none ∧
      s.given.giveAll (s.pending ++ items) = .ok a := by
  obtain ⟨b, hb, hgive⟩ := giveAll_append_eq_ok_iff.mp hgive
  have hsettles : r.SettlesAt b := ⟨hwaiting, hb⟩
  have hfirst : r.hasInput = false := by
    refine Bool.eq_false_iff.mpr fun hinput => ?_
    have hnew := (giveAll_cons_eq_ok_iff.mp hgive).1
    rw [hsettles.has_of_notesInput hnotes hinput] at hnew
    cases hnew
  exact ⟨_, .input hplain hfirst hsettles, rfl, rfl, hgive⟩

/-- What is given can be taken in, one argument after the other. -/
theorem Awaits.exists_takes (hawaits : r.Awaits (argument :: arguments) items)
    (hnotes : r.NotesInput) (hgive : r.given.giveAll (r.pending ++ items) = .ok a) :
    ∃ s items, Takes r argument s ∧ s.Awaits arguments items ∧
      s.given.giveAll (s.pending ++ items) = .ok a := by
  cases hawaits with
  | inputs hafter hwaiting =>
      obtain ⟨s, htakes, hsame, hnone, hgive⟩ :=
        takes_input_of_giveAll hnotes hwaiting (Or.inl hafter) hgive
      exact ⟨s, _, htakes, .inputs (hsame.trans hafter) hnone arguments, hgive⟩
  | value hbefore hwaiting hplain hgives =>
      rw [pending_of_waiting? hwaiting] at hgive
      exact ⟨_, _, .value hbefore hplain hwaiting, .anything hbefore rfl hgives, hgive⟩
  | anything hbefore hwaiting hgives =>
      cases hgives with
      | inputs =>
          refine ⟨_, _, .separator hbefore rfl, .inputs rfl ?_ arguments, hgive⟩
          exact hwaiting
      | input hplain hrest =>
          obtain ⟨s, htakes, hsame, hnone, hgive⟩ :=
            takes_input_of_giveAll hnotes hwaiting (Or.inr hplain) hgive
          exact ⟨s, _, htakes, .anything (hsame.trans hbefore) hnone hrest, hgive⟩
      | attached hoption hrest =>
          obtain ⟨b, hb, hgive⟩ := giveAll_append_eq_ok_iff.mp hgive
          obtain ⟨c, hc, hgive⟩ := giveAll_cons_iff.mp hgive
          refine ⟨_, _, .attached hbefore hoption ⟨hwaiting, hb⟩ hc, ?_, hgive⟩
          exact .anything hbefore rfl hrest
      | apart hoption hplain hrest =>
          obtain ⟨b, hb, hgive⟩ := giveAll_append_eq_ok_iff.mp hgive
          refine ⟨_, _, .option hbefore hoption ⟨hwaiting, hb⟩, ?_, hgive⟩
          exact .value hbefore rfl hplain hrest

theorem Awaits.waiting?_of_nil (hawaits : r.Awaits [] items) : r.waiting? = none ∧ items = [] := by
  cases hawaits with
  | inputs _ hwaiting => exact ⟨hwaiting, rfl⟩
  | anything _ hwaiting hgives =>
      cases hgives
      exact ⟨hwaiting, rfl⟩

/-- What is given is read to the end. -/
theorem Awaits.finish_eq_ok (hawaits : r.Awaits arguments items) (hnotes : r.NotesInput)
    (hgive : r.given.giveAll (r.pending ++ items) = .ok a) : r.finish arguments = .ok a := by
  induction arguments generalizing r items with
  | nil =>
      obtain ⟨hwaiting, rfl⟩ := hawaits.waiting?_of_nil
      rw [List.append_nil] at hgive
      exact finish_nil_eq_ok_iff.mpr ⟨hwaiting, hgive⟩
  | cons argument rest ih =>
      obtain ⟨s, items, htakes, hawaits, hgive⟩ := hawaits.exists_takes hnotes hgive
      exact finish_cons_eq_ok_iff.mpr ⟨s, htakes, ih hawaits (htakes.notesInput hnotes) hgive⟩

end

end Reading

/-! ## What is accepted -/

variable {arguments : List String} {a : Arguments}

theorem check_eq_ok_iff {b : Arguments} :
    a.check = .ok b ↔ ¬ (a.has .input = true ∧ a.has .url = true) ∧
      (a.has .lastEventId = true → a.has .url = true ∨ a.has .input = true) ∧ a = b := by
  simp only [check, has]
  cases a.input <;> cases a.url <;> cases a.lastEventId <;> simp

/-- Arguments that may be given together: each once, with a value that can be read, not both an
input and a URL, and an id to go on from only beside one of them. -/
structure Acceptable (items : List Item) : Prop where
  once : (items.map Prod.fst).Nodup
  readable : ∀ item ∈ items, Readable item.1 item.2
  oneSource : ¬ (.input ∈ items.map Prod.fst ∧ .url ∈ items.map Prod.fst)
  beside : .lastEventId ∈ items.map Prod.fst →
    .url ∈ items.map Prod.fst ∨ .input ∈ items.map Prod.fst

/-- What is given to begin with is all that there is. -/
theorem has_giveAll_empty {items : List Item} (hgive : ({} : Arguments).giveAll items = .ok a)
    (name : ArgumentName) : a.has name = true ↔ name ∈ items.map Prod.fst := by
  rw [has_giveAll hgive]
  cases name <;> simp [has]

theorem text?_giveAll_empty {items : List Item} (hgive : ({} : Arguments).giveAll items = .ok a)
    {name : ArgumentName} (htext : IsText name) {value : String} :
    a.text? name = some value ↔ (name, value) ∈ items := by
  rw [text?_giveAll hgive htext]
  cases name <;> simp [text?]

theorem text?_eq_none {items : List Item} (hgive : ({} : Arguments).giveAll items = .ok a)
    {name : ArgumentName} (htext : IsText name) (habsent : name ∉ items.map Prod.fst) :
    a.text? name = none := by
  rw [← has_giveAll_empty hgive, has_eq_isSome_text? htext, Bool.not_eq_true] at habsent
  exact Option.isNone_iff_eq_none.mp (Option.isSome_eq_false_iff.mp habsent)

theorem finish_eq_ok_iff :
    ({} : Reading).finish arguments = .ok a ↔
      ∃ items, Gives arguments items ∧ ({} : Arguments).giveAll items = .ok a := by
  constructor
  · intro hfinish
    obtain ⟨items, hawaits, hgive⟩ := Reading.exists_awaits_of_finish hfinish
    cases hawaits with
    | inputs hafter => cases hafter
    | anything _ _ hgives => exact ⟨items, hgives, hgive⟩
    | value _ hwaiting => cases hwaiting
  · rintro ⟨items, hgives, hgive⟩
    have hawaits : ({} : Reading).Awaits arguments items := .anything rfl rfl hgives
    exact hawaits.finish_eq_ok nofun hgive

/-- The reading, as far as it succeeds, does no more than to give what a list gives. -/
theorem parse_eq_ok_iff :
    parse arguments = .ok a ↔ ∃ items, Gives arguments items ∧ Acceptable items ∧
      ({} : Arguments).giveAll items = .ok a := by
  have hparse : parse arguments = (({} : Reading).finish arguments) >>= check := by
    simp only [parse, Reading.finish, bind_assoc, pure_bind]
  rw [hparse, bind_eq_ok_iff]
  constructor
  · rintro ⟨b, hfinish, hcheck⟩
    obtain ⟨items, hgives, hgive⟩ := finish_eq_ok_iff.mp hfinish
    obtain ⟨honeSource, hbeside, rfl⟩ := check_eq_ok_iff.mp hcheck
    obtain ⟨honce, -, hreadable⟩ := exists_giveAll_eq_ok_iff.mp ⟨b, hgive⟩
    simp only [has_giveAll_empty hgive] at honeSource hbeside
    exact ⟨items, hgives, ⟨honce, hreadable, honeSource, hbeside⟩, hgive⟩
  · rintro ⟨items, hgives, haccepts, hgive⟩
    refine ⟨a, finish_eq_ok_iff.mpr ⟨items, hgives, hgive⟩, check_eq_ok_iff.mpr ⟨?_, ?_, rfl⟩⟩
    · simpa only [has_giveAll_empty hgive] using haccepts.oneSource
    · simpa only [has_giveAll_empty hgive] using haccepts.beside

/-- Which lists are accepted can be told from what they give. -/
theorem exists_parse_eq_ok_iff :
    (∃ a, parse arguments = .ok a) ↔ ∃ items, Gives arguments items ∧ Acceptable items := by
  constructor
  · rintro ⟨a, hparse⟩
    obtain ⟨items, hgives, haccepts, -⟩ := parse_eq_ok_iff.mp hparse
    exact ⟨items, hgives, haccepts⟩
  · rintro ⟨items, hgives, haccepts⟩
    have hnone (name : ArgumentName) : ({} : Arguments).has name = false := by
      cases name <;> rfl
    obtain ⟨a, hgive⟩ : ∃ a, ({} : Arguments).giveAll items = .ok a :=
      exists_giveAll_eq_ok_iff.mpr ⟨haccepts.once, fun name _ => hnone name, haccepts.readable⟩
    exact ⟨a, parse_eq_ok_iff.mpr ⟨items, hgives, haccepts, hgive⟩⟩

/-! ## What is read -/

/-- Arguments that carry what has been given, and the stream that they choose. -/
structure Carries (a : Arguments) (items : List Item) : Prop where
  has_iff : ∀ name, a.has name = true ↔ name ∈ items.map Prod.fst
  lastEventId_iff : ∀ id, a.lastEventId = some id ↔ (.lastEventId, id) ∈ items
  source_of_url : ∀ url, (.url, url) ∈ items → a.source = .url url
  source_of_input : ∀ path, (.input, path) ∈ items →
    a.source = if path = "-" then .stdin else .file path
  source_of_neither : .url ∉ items.map Prod.fst → .input ∉ items.map Prod.fst → a.source = .stdin

theorem source_of_url_eq_none (hurl : a.url = none) :
    a.source = match a.input with
      | none => .stdin
      | some path => if path = "-" then .stdin else .file path := by
  rw [source, hurl]
  cases a.input <;> rfl

theorem exists_source_eq_url_iff : (∃ url, a.source = .url url) ↔ a.has .url = true := by
  rw [has]
  cases hurl : a.url with
  | some url => exact ⟨fun _ => rfl, fun _ => ⟨url, by rw [source, hurl]⟩⟩
  | none =>
      refine ⟨?_, nofun⟩
      rintro ⟨url, hsource⟩
      rw [source_of_url_eq_none hurl] at hsource
      split at hsource
      · cases hsource
      · split at hsource <;> cases hsource

theorem carries_of_giveAll {items : List Item} (haccepts : Acceptable items)
    (hgive : ({} : Arguments).giveAll items = .ok a) : a.Carries items := by
  have hurl (url : String) : a.text? .url = some url ↔ (.url, url) ∈ items :=
    text?_giveAll_empty hgive (by decide)
  have hinput (path : String) : a.text? .input = some path ↔ (.input, path) ∈ items :=
    text?_giveAll_empty hgive (by decide)
  have hnoUrl (habsent : .url ∉ items.map Prod.fst) : a.url = none :=
    text?_eq_none hgive (by decide : IsText .url) habsent
  have hnoInput (habsent : .input ∉ items.map Prod.fst) : a.input = none :=
    text?_eq_none hgive (by decide : IsText .input) habsent
  refine ⟨has_giveAll_empty hgive, ?_, ?_, ?_, ?_⟩
  · exact fun id => text?_giveAll_empty hgive (by decide : IsText .lastEventId)
  · intro url hmem
    have hsome : a.url = some url := (hurl url).mpr hmem
    rw [source, hsome]
  · intro path hmem
    have hsome : a.input = some path := (hinput path).mpr hmem
    have habsent : .url ∉ items.map Prod.fst :=
      fun hurl => haccepts.oneSource ⟨List.mem_map_of_mem hmem, hurl⟩
    rw [source_of_url_eq_none (hnoUrl habsent), hsome]
  · intro hurl hinput
    rw [source_of_url_eq_none (hnoUrl hurl), hnoInput hinput]

/-- An accepted list of arguments carries what it gives, each argument once and with its value.  It
does not give both an input and a URL; and an id to go on from goes to the URL that is read, except
where an input is given in the place of a URL, to which no id is sent. -/
theorem parse_source (haccepted : parse arguments = .ok a) :
    (∃ items, Gives arguments items ∧ Acceptable items ∧ a.Carries items) ∧
      ¬ (a.has .input = true ∧ a.has .url = true) ∧
      (a.has .lastEventId = true → ((∃ url, a.source = .url url) ↔ a.has .input = false)) := by
  obtain ⟨items, hgives, haccepts, hgive⟩ := parse_eq_ok_iff.mp haccepted
  have hcarries := carries_of_giveAll haccepts hgive
  have honeSource : ¬ (a.has .input = true ∧ a.has .url = true) := by
    simpa only [hcarries.has_iff] using haccepts.oneSource
  have hbeside : a.has .lastEventId = true → a.has .url = true ∨ a.has .input = true := by
    simpa only [hcarries.has_iff] using haccepts.beside
  refine ⟨⟨items, hgives, haccepts, hcarries⟩, honeSource, fun hid => ?_⟩
  rw [exists_source_eq_url_iff, Bool.eq_false_iff]
  exact ⟨fun hurl hinput => honeSource ⟨hinput, hurl⟩, (hbeside hid).resolve_right⟩

/-- A URL with an id to go on from. -/
theorem parse_source_of_url :
    parse ["--url=u", "--last-event-id", "41"] =
        .ok { url := some "u", lastEventId := some "41" } ∧
      ∃ url, ({ url := some "u", lastEventId := some "41" } : Arguments).source = .url url :=
  have haccepted : parse ["--url=u", "--last-event-id", "41"] =
      .ok { url := some "u", lastEventId := some "41" } := rfl
  ⟨haccepted, ((parse_source haccepted).2.2 rfl).mpr rfl⟩

/-- An id may be carried to no purpose: where an input is given, which excludes a URL, nobody asks
for the URL that the id needs. -/
theorem not_url_of_parse_id :
    ¬ ∀ (arguments : List String) (a : Arguments), parse arguments = .ok a →
      a.lastEventId.isSome = true → ∃ url, a.source = .url url := by
  intro h
  obtain ⟨url, hurl⟩ := h ["f", "--last-event-id", "1"]
    { input := some "f", lastEventId := some "1" } rfl rfl
  cases hurl

end Arguments

end ServerSentEvents
