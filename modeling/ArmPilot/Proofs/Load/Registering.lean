import ArmPilot.Load.Registry
import ArmPilot.Proofs.Failing
import ArmPilot.Proofs.Json.Written

/-!
# Registering kinds

Kinds are registered one after the other, those of commands and those of events apart.  A tag that is blank, or that
stands for something in its category, is refused before anything is changed; any other tag is added with what makes its
things (`Registration.enter_cases`).  So under each tag a registry holds what it held before, or else what the first
registration of the tag gave it (`Registry.maker?_after`), and it lists and builds exactly what it holds
(`Registry.keeps_first`).
-/

namespace ArmPilot

namespace Json

theorem find?_append {α : Type} (key : String) (ms ms' : List (String × α)) :
    find? key (ms ++ ms') = (find? key ms).or (find? key ms') := by
  induction ms with
  | nil => rfl
  | cons m ms ih =>
    rw [List.cons_append, find?, find?, ih]
    split <;> rfl

/-- The keys of members are those under which something is found. -/
theorem mem_keys_iff {α : Type} {key : String} {ms : List (String × α)} :
    key ∈ ms.map Prod.fst ↔ (find? key ms).isSome := by
  induction ms with
  | nil => simp [find?]
  | cons m ms ih =>
    rw [List.map_cons, List.mem_cons, ih, find?]
    by_cases hm : m.1 = key
    · simp [hm]
    · simp [hm, Ne.symm hm]

end Json

/-! ## Both categories alike -/

namespace Registry

/-- The tags of kinds in their order, as keys. -/
theorem sortedTags_eq {α : Type} (kinds : List (String × α)) :
    sortedTags kinds =
      ((kinds.map fun k => (k.1, ())).foldl (fun acc m => Json.insert m.1 m.2 acc) []).map Prod.fst := by
  rw [List.foldl_map]
  rfl

theorem pairwise_sortedTags {α : Type} (kinds : List (String × α)) : (sortedTags kinds).Pairwise (· < ·) := by
  rw [sortedTags_eq]
  exact List.pairwise_map.2 (Json.pairwise_foldl_insert _ .nil)

theorem mem_sortedTags_iff {α : Type} {tag : String} {kinds : List (String × α)} :
    tag ∈ sortedTags kinds ↔ (Json.find? tag kinds).isSome := by
  rw [sortedTags_eq, Json.mem_keys_iff, Json.find?_foldl_insert, ← Json.mem_keys_iff]
  simp [Json.find?]

/-- What makes the things of a category. -/
abbrev Maker (σ : Type) : Category → Type
  | .command => Command.Factory σ
  | .event => Event.Factory σ

variable {σ : Type}

/-- The kinds of a category. -/
def kinds (r : Registry σ) : (c : Category) → List (String × Maker σ c)
  | .command => r.commands
  | .event => r.events

/-- The tags of a category, in their order. -/
def tags (r : Registry σ) : Category → List String
  | .command => r.commandTags
  | .event => r.eventTags

/-- What makes the things of a tag. -/
def maker? (r : Registry σ) (c : Category) (tag : String) : Option (Maker σ c) := Json.find? tag (r.kinds c)

/-- The registry with one more kind. -/
def add (r : Registry σ) : (c : Category) → String → Maker σ c → Registry σ
  | .command, tag, f => { r with commands := r.commands ++ [(tag, f)] }
  | .event, tag, f => { r with events := r.events ++ [(tag, f)] }

@[simp] theorem kinds_add_self (r : Registry σ) (c : Category) (tag : String) (f : Maker σ c) :
    (r.add c tag f).kinds c = r.kinds c ++ [(tag, f)] := by
  cases c <;> rfl

theorem kinds_add_of_ne {c c' : Category} (h : c ≠ c') (r : Registry σ) (tag : String) (f : Maker σ c) :
    (r.add c tag f).kinds c' = r.kinds c' := by
  match c, c' with
  | .command, .event => rfl
  | .event, .command => rfl
  | .command, .command | .event, .event => exact absurd rfl h

/-- The tags of a category are those that stand for something in it. -/
theorem mem_tags_iff {r : Registry σ} {c : Category} {tag : String} : tag ∈ r.tags c ↔ (r.maker? c tag).isSome := by
  cases c with
  | command => exact mem_sortedTags_iff
  | event => exact mem_sortedTags_iff

end Registry

/-! ## Registrations -/

/-- What is done with a registry in place. -/
abbrev Registry.Control (σ : Type) := ExceptT RegistryError (StateM (Registry σ))

/-- A registration: a tag of a category, and what makes its things. -/
structure Registration (σ : Type) where
  category : Category
  tag : String
  maker : Registry.Maker σ category

namespace Registration

variable {σ : Type}

/-- The registry behind a registration, unless it is refused. -/
def register (r : Registry σ) : Registration σ → Except RegistryError (Registry σ)
  | ⟨.command, tag, f⟩ => r.registerCommand tag f
  | ⟨.event, tag, f⟩ => r.registerEvent tag f

/-- A registration in place.  The tag is looked at before the registry is changed. -/
def enter (q : Registration σ) : Registry.Control σ Unit := do
  let r ← get
  MonadExcept.ofExcept (Registry.freeTag q.category q.tag (r.kinds q.category))
  set (r.add q.category q.tag q.maker)

/-- What is answered to a registration. -/
def answer (q : Registration σ) (r : Registry σ) : Except RegistryError Unit := (q.enter.run.run r).1

/-- The registry behind a registration, be it refused or not. -/
def behind (q : Registration σ) (r : Registry σ) : Registry σ := (q.enter.run.run r).2

theorem register_eq (q : Registration σ) (r : Registry σ) :
    q.register r = (Registry.freeTag q.category q.tag (r.kinds q.category)).map fun _ =>
      r.add q.category q.tag q.maker := by
  obtain ⟨c, tag, f⟩ := q
  cases c with
  | command =>
    show Registry.registerCommand r tag f = (Registry.freeTag .command tag r.commands).map _
    unfold Registry.registerCommand
    cases Registry.freeTag .command tag r.commands <;> rfl
  | event =>
    show Registry.registerEvent r tag f = (Registry.freeTag .event tag r.events).map _
    unfold Registry.registerEvent
    cases Registry.freeTag .event tag r.events <;> rfl

/-- A registration in place gives the registry that it gives elsewhere, or leaves the registry as it is. -/
theorem run_enter (q : Registration σ) (r : Registry σ) :
    q.enter.run.run r = match q.register r with
      | .ok r' => (.ok (), r')
      | .error e => (.error e, r) := by
  rw [register_eq, enter, Failing.run_get_bind, Failing.run_bind]
  cases Registry.freeTag q.category q.tag (r.kinds q.category) with
  | ok u => rfl
  | error e => rfl

theorem register_eq_map (q : Registration σ) (r : Registry σ) :
    q.register r = (q.answer r).map fun _ => q.behind r := by
  unfold answer behind
  rw [run_enter]
  cases q.register r with
  | ok r' => rfl
  | error e => rfl

/-- **A registration in place is refused for a blank tag, refused for a tag that is taken, or adds its kind.** -/
theorem enter_cases (q : Registration σ) (r : Registry σ) :
    Text.trim q.tag = "" ∧ q.answer r = .error .emptyTag ∧ q.behind r = r ∨
      Text.trim q.tag ≠ "" ∧ q.tag ∈ r.tags q.category ∧
        q.answer r = .error (.duplicate q.tag q.category) ∧ q.behind r = r ∨
      Text.trim q.tag ≠ "" ∧ q.tag ∉ r.tags q.category ∧
        q.answer r = .ok () ∧ q.behind r = r.add q.category q.tag q.maker := by
  unfold answer behind
  rw [run_enter, register_eq, Registry.freeTag, Registry.mem_tags_iff, Registry.maker?]
  by_cases hblank : Text.trim q.tag = ""
  · rw [if_pos hblank]
    exact .inl ⟨hblank, rfl, rfl⟩
  · rw [if_neg hblank]
    by_cases htaken : (Json.find? q.tag (r.kinds q.category)).isSome
    · rw [if_pos htaken]
      exact .inr (.inl ⟨hblank, htaken, rfl, rfl⟩)
    · rw [if_neg htaken]
      exact .inr (.inr ⟨hblank, htaken, rfl, rfl⟩)

/-- What a registration makes of a tag of a category, if it is about that tag and the tag is not blank. -/
def makes? (q : Registration σ) (c : Category) (tag : String) : Option (Registry.Maker σ c) :=
  if h : q.category = c then if q.tag = tag ∧ Text.trim q.tag ≠ "" then some (h ▸ q.maker) else none else none

theorem makes?_self (q : Registration σ) (tag : String) :
    q.makes? q.category tag = if q.tag = tag ∧ Text.trim q.tag ≠ "" then some q.maker else none := dif_pos rfl

theorem makes?_of_ne {q : Registration σ} {c : Category} (h : q.category ≠ c) (tag : String) : q.makes? c tag = none :=
  dif_neg h

/-- A registration leaves the other category alone. -/
theorem kinds_behind_of_ne {q : Registration σ} {c : Category} (h : q.category ≠ c) (r : Registry σ) :
    (q.behind r).kinds c = r.kinds c := by
  rcases q.enter_cases r with ⟨-, -, hr⟩ | ⟨-, -, -, hr⟩ | ⟨-, -, -, hr⟩
  · rw [hr]
  · rw [hr]
  · rw [hr, Registry.kinds_add_of_ne h]

/-- A registration makes something of its tag unless the tag stands for something before. -/
theorem maker?_behind (q : Registration σ) (r : Registry σ) (c : Category) (tag : String) :
    (q.behind r).maker? c tag = (r.maker? c tag).or (q.makes? c tag) := by
  by_cases h : q.category = c
  · subst h
    rw [makes?_self]
    rcases q.enter_cases r with ⟨hblank, -, hr⟩ | ⟨-, htaken, -, hr⟩ | ⟨hblank, hfree, -, hr⟩
    · rw [hr, if_neg fun h => h.2 hblank, Option.or_none]
    · rw [hr]
      split
      · rename_i htag
        obtain ⟨f, hf⟩ := Option.isSome_iff_exists.1 (Registry.mem_tags_iff.1 (htag.1 ▸ htaken))
        rw [hf]
        rfl
      · rw [Option.or_none]
    · rw [hr, Registry.maker?, Registry.kinds_add_self, Json.find?_append, Registry.maker?]
      simp [Json.find?, hblank]
  · rw [makes?_of_ne h, Option.or_none, Registry.maker?, kinds_behind_of_ne h, Registry.maker?]

/-- What is answered to a registration, and what becomes of its category, depends on the category alone. -/
theorem answer_congr {q : Registration σ} {r r' : Registry σ} (h : r.kinds q.category = r'.kinds q.category) :
    q.answer r = q.answer r' ∧ (q.behind r).kinds q.category = (q.behind r').kinds q.category := by
  unfold answer behind
  rw [run_enter, run_enter, register_eq, register_eq, h]
  cases Registry.freeTag q.category q.tag (r'.kinds q.category) with
  | ok u => simp [Except.map, h]
  | error e => exact ⟨rfl, h⟩

end Registration

/-! ## Histories -/

namespace Registry

variable {σ : Type} {r r' : Registry σ} {c : Category}

/-- The registry behind registrations. -/
def after (r : Registry σ) (qs : List (Registration σ)) : Registry σ := qs.foldl (fun r q => q.behind r) r

theorem after_cons (r : Registry σ) (q : Registration σ) (qs : List (Registration σ)) :
    r.after (q :: qs) = (q.behind r).after qs := by
  rw [after, List.foldl_cons, after]

theorem after_append (r : Registry σ) (qs more : List (Registration σ)) :
    r.after (qs ++ more) = (r.after qs).after more := List.foldl_append

/-- **The first registration of a tag counts**, unless the tag stood for something before. -/
theorem maker?_after (r : Registry σ) (qs : List (Registration σ)) (c : Category) (tag : String) :
    (r.after qs).maker? c tag = (r.maker? c tag).or (qs.findSome? (·.makes? c tag)) := by
  induction qs generalizing r with
  | nil => exact Option.or_none.symm
  | cons q qs ih =>
    rw [after_cons, ih, Registration.maker?_behind, Option.or_assoc, List.findSome?_cons]
    cases q.makes? c tag <;> rfl

/-- The kinds of a category are what the registrations of that category make of them. -/
theorem kinds_after_filter (h : r.kinds c = r'.kinds c) (qs : List (Registration σ)) :
    (r.after qs).kinds c = (r'.after (qs.filter (·.category = c))).kinds c := by
  induction qs generalizing r r' with
  | nil => exact h
  | cons q qs ih =>
    rw [after_cons]
    by_cases hq : q.category = c
    · rw [List.filter_cons_of_pos (by simpa using hq), after_cons]
      subst hq
      exact ih (Registration.answer_congr h).2
    · rw [List.filter_cons_of_neg (by simpa using hq)]
      exact ih ((Registration.kinds_behind_of_ne hq r).trans h)

/-- A tag stands for the same from then on. -/
theorem maker?_after_append {f : Maker σ c} {qs : List (Registration σ)} {tag : String}
    (h : (r.after qs).maker? c tag = some f) (more : List (Registration σ)) :
    (r.after (qs ++ more)).maker? c tag = some f := by
  rw [after_append, maker?_after, h]
  rfl

/-! ## What a registry does -/

/-- How a registry takes a registration: its tag is blank, or taken in its category, or free. -/
structure Takes (r : Registry σ) (q : Registration σ) : Prop where
  /-- In place is done what is done elsewhere. -/
  register : q.register r = (q.answer r).map fun _ => q.behind r
  blank : q.answer r = .error .emptyTag ↔ Text.trim q.tag = ""
  taken : q.answer r = .error (.duplicate q.tag q.category) ↔ Text.trim q.tag ≠ "" ∧ q.tag ∈ r.tags q.category
  free : q.answer r = .ok () ↔ Text.trim q.tag ≠ "" ∧ q.tag ∉ r.tags q.category
  /-- A registration that is refused changes nothing. -/
  refused : q.answer r ≠ .ok () → q.behind r = r

theorem takes (r : Registry σ) (q : Registration σ) : r.Takes q := by
  have hregister := q.register_eq_map r
  rcases q.enter_cases r with ⟨hblank, hanswer, hr⟩ | ⟨hblank, htaken, hanswer, hr⟩ | ⟨hblank, hfree, hanswer, hr⟩
  · refine ⟨hregister, ?_, ?_, ?_, fun _ => hr⟩ <;> simp [hanswer, hblank]
  · refine ⟨hregister, ?_, ?_, ?_, fun _ => hr⟩ <;> simp [hanswer, hblank, htaken]
  · refine ⟨hregister, ?_, ?_, ?_, fun h => absurd hanswer h⟩ <;> simp [hanswer, hblank, hfree]

/-- How a registry lists the kinds of a category: each tag that stands for something, in their order and once. -/
structure Lists (r : Registry σ) (c : Category) : Prop where
  sorted : (r.tags c).Pairwise (· < ·)
  mem_iff : ∀ tag, tag ∈ r.tags c ↔ (r.maker? c tag).isSome

theorem lists (r : Registry σ) (c : Category) : r.Lists c where
  sorted := by
    cases c with
    | command => exact pairwise_sortedTags r.commands
    | event => exact pairwise_sortedTags r.events
  mem_iff _ := mem_tags_iff

/-- Whether something is built of what a maker gives: it fails as the maker does, or has what the maker has made, with
the same problems. -/
structure Carries {α β : Type} (made : Except LoadError (Built α)) (built : Except LoadError (Built β))
    (P : α → β → Prop) : Prop where
  fails : ∀ e, made = .error e → built = .error e
  builds : ∀ b, made = .ok b → ∃ b', built = .ok b' ∧ P b.value b'.value ∧ b'.problems = b.problems

theorem carries_map {α β : Type} (made : Except LoadError (Built α)) {f : α → β} {P : α → β → Prop}
    (h : ∀ a, P a (f a)) : Carries made (made.map fun b => b.map f) P where
  fails := by
    rintro e rfl
    rfl
  builds := by
    rintro b rfl
    exact ⟨b.map f, rfl, h b.value, rfl⟩

/-- How a registry builds: of a tag that it does not list nothing, of any other what the maker of the tag makes, as a
thing of that kind with the parameters as they are given. -/
structure Builds (r : Registry σ) (tag : String) (ps : Parameters) : Prop where
  unknownCommand : tag ∉ r.commandTags → r.buildCommand tag ps = .error .unknownCommandKind
  command : ∀ f, r.maker? .command tag = some f →
    Carries (f ps) (r.buildCommand tag ps) fun a c => c.kind = tag ∧ c.parameters = ps ∧ c.action = a
  unknownEvent : tag ∉ r.eventTags → r.buildEvent tag ps = .error .unknownEventKind
  event : ∀ f, r.maker? .event tag = some f →
    Carries (f ps) (r.buildEvent tag ps) fun t e => e.kind = tag ∧ e.parameters = ps ∧ e.trigger = t ∧ e.commands = []

theorem builds (r : Registry σ) (tag : String) (ps : Parameters) : r.Builds tag ps where
  unknownCommand h := by
    rw [commandTags, mem_sortedTags_iff, Option.not_isSome_iff_eq_none] at h
    rw [buildCommand, h]
  command f hf := by
    have hfind : Json.find? tag r.commands = some f := hf
    rw [buildCommand, hfind]
    exact carries_map (f ps) fun _ => ⟨rfl, rfl, rfl⟩
  unknownEvent h := by
    rw [eventTags, mem_sortedTags_iff, Option.not_isSome_iff_eq_none] at h
    rw [buildEvent, h]
  event f hf := by
    have hfind : Json.find? tag r.events = some f := hf
    rw [buildEvent, hfind]
    exact carries_map (f ps) fun _ => ⟨rfl, rfl, rfl, rfl⟩

/-- **A registry only grows, and the first registration of a tag counts.**  Whatever it held before, as the empty registry
or that of the program's own kinds, and whatever was registered: the next registration is refused for a blank tag, or
else for a tag that is taken in its category, and then changes nothing.  A tag stands for what it stood for at first, or
else for what its first registration gave it, and for the same after any others.  Each category is what its own
registrations make of it, which are answered as if there were no others.  The tags are listed in their order, each once;
a tag that is not listed is of an unknown kind, and of any other the registry builds what its maker makes. -/
theorem keeps_first (r : Registry σ) (qs : List (Registration σ)) :
    (∀ q, (r.after qs).Takes q) ∧
      (∀ c tag, (r.after qs).maker? c tag = (r.maker? c tag).or (qs.findSome? (·.makes? c tag)) ∧
        ∀ f, (r.after qs).maker? c tag = some f → ∀ more, (r.after (qs ++ more)).maker? c tag = some f) ∧
      (∀ c, (r.after qs).kinds c = (r.after (qs.filter (·.category = c))).kinds c ∧
        ∀ q : Registration σ, q.category = c →
          q.answer (r.after qs) = q.answer (r.after (qs.filter (·.category = c)))) ∧
      (∀ c, (r.after qs).Lists c) ∧ ∀ tag ps, (r.after qs).Builds tag ps := by
  refine ⟨takes _, fun c tag => ⟨maker?_after r qs c tag, fun f hf more => maker?_after_append hf more⟩, fun c => ?_,
    lists _, builds _⟩
  have hkinds : (r.after qs).kinds c = (r.after (qs.filter (·.category = c))).kinds c := kinds_after_filter rfl qs
  refine ⟨hkinds, ?_⟩
  rintro q rfl
  exact (Registration.answer_congr hkinds).1

/-- Registrations for a tag, for the same tag again, for that tag in the other category, and for a blank one. -/
def noteRegistrations : List (Registration Unit) :=
  [⟨.command, "NoteCommand", Command.fixed .plain .proceed⟩, ⟨.command, "NoteCommand", Command.fixed .plain .kill⟩,
    ⟨.event, "NoteCommand", Event.destroy⟩, ⟨.command, " ", Command.fixed .plain .exit⟩]

/-- The program's own kinds with the kinds that these registrations add. -/
def notedRegistry : Registry Unit := (builtin (Outside.nobody Unit)).after noteRegistrations

theorem keeps_first_noteRegistrations :
    notedRegistry.maker? .command "NoteCommand" = some (Command.fixed .plain .proceed) ∧
      "NoteCommand" ∈ notedRegistry.tags .event ∧ "StepEvent" ∉ notedRegistry.tags .command ∧
      (⟨.event, "NoteCommand", Event.step⟩ : Registration Unit).answer notedRegistry =
        .error (.duplicate "NoteCommand" .event) ∧
      (⟨.command, " ", Command.fixed .plain .exit⟩ : Registration Unit).answer notedRegistry = .error .emptyTag ∧
      (⟨.command, "StepEvent", Command.fixed .plain .exit⟩ : Registration Unit).answer notedRegistry = .ok () ∧
      ∃ built, notedRegistry.buildCommand "NoteCommand" [] = .ok built ∧ built.value.kind = "NoteCommand" ∧
        built.problems = [] := by
  obtain ⟨htakes, hmakers, -, hlists, hbuilds⟩ :=
    keeps_first (builtin (Outside.nobody Unit)) noteRegistrations
  have hmaker : notedRegistry.maker? .command "NoteCommand" = some (Command.fixed .plain .proceed) :=
    (hmakers .command "NoteCommand").1.trans rfl
  have hlisted : "NoteCommand" ∈ notedRegistry.tags .event :=
    ((hlists .event).mem_iff _).2 ((congrArg Option.isSome (hmakers .event "NoteCommand").1).trans rfl)
  have hfree : "StepEvent" ∉ notedRegistry.tags .command := by
    refine (not_congr ((hlists .command).mem_iff "StepEvent")).2 ?_
    rw [(hmakers .command "StepEvent").1]
    exact Bool.false_ne_true
  obtain ⟨built, hbuilt, ⟨hkind, -⟩, hproblems⟩ := ((hbuilds "NoteCommand" []).command _ hmaker).builds _ rfl
  exact ⟨hmaker, hlisted, hfree, (htakes _).taken.2 ⟨by decide, hlisted⟩, (htakes _).blank.2 (by decide),
    (htakes _).free.2 ⟨by decide, hfree⟩, built, hbuilt, hkind, hproblems⟩

end Registry
end ArmPilot
