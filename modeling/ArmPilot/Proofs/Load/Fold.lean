import ArmPilot.Load.Program

/-!
# What loading makes of a script

The events of a script are those of its descriptions that can be built, and their commands likewise.  The report has an
entry for every problem that is raised on the way, with the kinds that raised it in the order of loading.
-/

namespace ArmPilot

/-! ## The order of a report -/

namespace LoadError

theorem before_iff {a b : LoadError} :
    a.before b = true ↔ a.key.1 < b.key.1 ∨
      a.key.1 = b.key.1 ∧ (a.key.2.1 < b.key.2.1 ∨ a.key.2.1 = b.key.2.1 ∧ a.key.2.2 < b.key.2.2) := by
  simp [before]

theorem before_irrefl (a : LoadError) : a.before a = false := by
  refine Bool.eq_false_iff.2 fun h => ?_
  rcases before_iff.1 h with h | ⟨-, h | ⟨-, h⟩⟩
  · exact Nat.lt_irrefl _ h
  · exact String.lt_irrefl _ h
  · exact String.lt_irrefl _ h

theorem before_trans {a b c : LoadError} (hab : a.before b = true) (hbc : b.before c = true) :
    a.before c = true := by
  rw [before_iff] at *
  rcases hab with hab | ⟨hgroup, hab⟩
  · rcases hbc with hbc | ⟨hgroup', -⟩
    · exact .inl (Nat.lt_trans hab hbc)
    · exact .inl (hgroup' ▸ hab)
  · rcases hbc with hbc | ⟨hgroup', hbc⟩
    · exact .inl (hgroup ▸ hbc)
    · refine .inr ⟨hgroup.trans hgroup', ?_⟩
      rcases hab with hab | ⟨hname, hab⟩
      · rcases hbc with hbc | ⟨hname', -⟩
        · exact .inl (String.lt_trans hab hbc)
        · exact .inl (hname' ▸ hab)
      · rcases hbc with hbc | ⟨hname', hbc⟩
        · exact .inl (hname ▸ hbc)
        · exact .inr ⟨hname.trans hname', String.lt_trans hab hbc⟩

/-- Of two problems one comes before the other. -/
theorem before_of_ne {a b : LoadError} (hne : a ≠ b) (h : a.before b = false) : b.before a = true := by
  have htexts (n m : String) : n < m ∨ n = m ∨ m < n := by
    by_cases hlt : n < m
    · exact .inl hlt
    · by_cases hgt : m < n
      · exact .inr (.inr hgt)
      · exact .inr (.inl (String.le_antisymm (String.not_lt.1 hgt) (String.not_lt.1 hlt)))
  have h : ¬a.before b = true := Bool.eq_false_iff.1 h
  rw [before_iff] at h ⊢
  rcases Nat.lt_trichotomy a.key.1 b.key.1 with hgroup | hgroup | hgroup
  · exact absurd (.inl hgroup) h
  · refine .inr ⟨hgroup.symm, ?_⟩
    rcases htexts a.key.2.1 b.key.2.1 with hname | hname | hname
    · exact absurd (.inr ⟨hgroup, .inl hname⟩) h
    · refine .inr ⟨hname.symm, ?_⟩
      rcases htexts a.key.2.2 b.key.2.2 with hreason | hreason | hreason
      · exact absurd (.inr ⟨hgroup, .inr ⟨hname, hreason⟩⟩) h
      · exact absurd (key_injective (Prod.ext hgroup (Prod.ext hname hreason))) hne
      · exact hreason
    · exact .inl hname
  · exact .inl hgroup

end LoadError

namespace Report

/-- Whether a report is in order: every problem has one entry, which names a kind. -/
structure Ordered (r : Report) : Prop where
  sorted : r.Pairwise fun p q => p.1.before q.1 = true
  filled : ∀ p ∈ r, p.2 ≠ []

theorem ordered_nil : Ordered [] := ⟨.nil, fun _ h => absurd h List.not_mem_nil⟩

theorem ordered_cons_iff {p : LoadError × List String} {r : Report} :
    Ordered (p :: r) ↔ (∀ q ∈ r, p.1.before q.1 = true) ∧ p.2 ≠ [] ∧ r.Ordered := by
  constructor
  · rintro ⟨hsorted, hfilled⟩
    obtain ⟨hfirst, hsorted⟩ := List.pairwise_cons.1 hsorted
    obtain ⟨hp, hfilled⟩ := List.forall_mem_cons.1 hfilled
    exact ⟨hfirst, hp, hsorted, hfilled⟩
  · rintro ⟨hfirst, hp, hsorted, hfilled⟩
    exact ⟨List.pairwise_cons.2 ⟨hfirst, hsorted⟩, List.forall_mem_cons.2 ⟨hp, hfilled⟩⟩

/-- A record adds no problem but its own. -/
theorem mem_record {e : LoadError} {kind : String} {r : Report} {p : LoadError × List String}
    (h : p ∈ r.record e kind) : p.1 = e ∨ p ∈ r := by
  induction r with
  | nil =>
    obtain rfl := List.mem_singleton.1 h
    exact .inl rfl
  | cons q rest ih =>
    unfold record at h
    split at h
    · rename_i heq
      rcases List.mem_cons.1 h with rfl | h
      · exact .inl heq.symm
      · exact .inr (List.mem_cons_of_mem _ h)
    · split at h
      · rcases List.mem_cons.1 h with rfl | h
        · exact .inl rfl
        · exact .inr h
      · rcases List.mem_cons.1 h with rfl | h
        · exact .inr (List.mem_cons_self ..)
        · exact (ih h).imp id (List.mem_cons_of_mem _)

/-- A record keeps a report in order. -/
theorem Ordered.record {r : Report} (h : r.Ordered) (e : LoadError) (kind : String) : (r.record e kind).Ordered := by
  induction r with
  | nil => exact ordered_cons_iff.2 ⟨fun _ h => absurd h List.not_mem_nil, List.cons_ne_nil _ _, ordered_nil⟩
  | cons q rest ih =>
    obtain ⟨f, kinds⟩ := q
    obtain ⟨hfirst, hkinds, hrest⟩ := ordered_cons_iff.1 h
    unfold Report.record
    split
    · exact ordered_cons_iff.2 ⟨hfirst, List.append_ne_nil_of_right_ne_nil _ (List.cons_ne_nil _ _), hrest⟩
    · rename_i hne
      split
      · rename_i hbefore
        refine ordered_cons_iff.2 ⟨fun q hq => ?_, List.cons_ne_nil _ _, h⟩
        rcases List.mem_cons.1 hq with rfl | hq
        · exact hbefore
        · exact LoadError.before_trans hbefore (hfirst q hq)
      · rename_i hbefore
        refine ordered_cons_iff.2 ⟨fun q hq => ?_, hkinds, ih hrest⟩
        rcases mem_record hq with heq | hq
        · rw [heq]
          exact LoadError.before_of_ne hne (Bool.eq_false_iff.2 hbefore)
        · exact hfirst q hq

theorem kinds_eq_nil {e : LoadError} {r : Report} (h : ∀ p ∈ r, p.1 ≠ e) : r.kinds e = [] := by
  induction r with
  | nil => rfl
  | cons q rest ih =>
    obtain ⟨hq, hrest⟩ := List.forall_mem_cons.1 h
    rw [kinds, if_neg hq.symm, ih hrest]

/-- The entries of a report in order are the problems with the kinds that had them. -/
theorem Ordered.mem_iff {r : Report} (h : r.Ordered) {e : LoadError} {ks : List String} :
    (e, ks) ∈ r ↔ ks ≠ [] ∧ ks = r.kinds e := by
  induction r with
  | nil => simp [kinds]
  | cons q rest ih =>
    obtain ⟨f, kinds⟩ := q
    obtain ⟨hfirst, hkinds, hrest⟩ := ordered_cons_iff.1 h
    rw [List.mem_cons, Report.kinds]
    split
    · rename_i heq
      subst heq
      have hnot : (e, ks) ∉ rest := fun hmem => by
        have hbefore := hfirst _ hmem
        rw [LoadError.before_irrefl] at hbefore
        cases hbefore
      simp only [hnot, or_false, Prod.mk.injEq, true_and]
      exact ⟨fun h => ⟨h ▸ hkinds, h⟩, And.right⟩
    · rename_i hne
      rw [ih hrest]
      simp [hne]

/-- A record adds its kind to those that had its problem. -/
theorem Ordered.kinds_record {r : Report} (h : r.Ordered) (e f : LoadError) (kind : String) :
    (r.record e kind).kinds f = r.kinds f ++ if e = f then [kind] else [] := by
  split
  · rename_i heq
    subst heq
    induction r with
    | nil => simp [Report.record, kinds]
    | cons q rest ih =>
      obtain ⟨f, kinds⟩ := q
      obtain ⟨hfirst, -, hrest⟩ := ordered_cons_iff.1 h
      unfold Report.record
      split
      · rename_i heq
        simp [Report.kinds, heq]
      · rename_i hne
        split
        · rename_i hbefore
          have hnone : Report.kinds e rest = [] := kinds_eq_nil fun p hp heq => by
            have := LoadError.before_trans hbefore (hfirst p hp)
            rw [heq, LoadError.before_irrefl] at this
            cases this
          simp [Report.kinds, hne, hnone]
        · simp [Report.kinds, hne, ih hrest]
  · rename_i hne
    rw [kinds_record_of_ne (Ne.symm hne), List.append_nil]

/-- The kinds that raised a problem, in order. -/
def tagsOf (e : LoadError) (raised : List (LoadError × String)) : List String :=
  (raised.filter (·.1 = e)).map (·.2)

/-- A report of findings is in order, and tells of each problem the kinds that were found to have it. -/
theorem ofFindings_spec (fs : List Finding) :
    (ofFindings fs).Ordered ∧ ∀ e, (ofFindings fs).kinds e = tagsOf e (fs.map fun f => (f.problem, f.kind)) := by
  have hfold (r : Report) (h : r.Ordered) : (fs.foldl (fun r f => r.record f.problem f.kind) r).Ordered ∧
      ∀ e, (fs.foldl (fun r f => r.record f.problem f.kind) r).kinds e =
        r.kinds e ++ tagsOf e (fs.map fun f => (f.problem, f.kind)) := by
    induction fs generalizing r with
    | nil => exact ⟨h, fun e => (List.append_nil _).symm⟩
    | cons f fs ih =>
      obtain ⟨hordered, hkinds⟩ := ih (r.record f.problem f.kind) (h.record f.problem f.kind)
      refine ⟨hordered, fun e => ?_⟩
      rw [List.foldl_cons, hkinds, h.kinds_record, List.append_assoc]
      congr 1
      by_cases he : f.problem = e
      · simp [tagsOf, he]
      · simp [tagsOf, he]
  exact hfold [] ordered_nil

end Report

/-! ## The fold -/

variable {σ : Type}

namespace Registry

/-- Whether no kind of commands says of itself that it is unknown. -/
def Candid (reg : Registry σ) : Prop :=
  ∀ kind f, (kind, f) ∈ reg.commands → ∀ ps, f ps ≠ .error .unknownCommandKind

/-- The command of a description: none if its kind is unknown, and a placeholder if it cannot be built. -/
def command? (reg : Registry σ) (d : CommandDescriptor) : Option (Command σ) :=
  match Json.find? d.kind reg.commands with
  | none => none
  | some f =>
    match f d.parameters with
    | .ok b => some ⟨d.kind, d.parameters, b.value⟩
    | .error _ => some ⟨d.kind, d.parameters, .signal .plain .skip⟩

/-- The event of a description, if it can be built. -/
def event? (reg : Registry σ) (d : EventDescriptor) : Option (Event σ) :=
  match Json.find? d.kind reg.events with
  | none => none
  | some f =>
    match f d.parameters with
    | .ok b => some ⟨d.kind, d.parameters, b.value, d.commands.filterMap reg.command?⟩
    | .error _ => none

/-- The problems that are met when something is built, whether or not they prevent it. -/
def problemsOf {α : Type} : Except LoadError (Built α) → List LoadError
  | .ok b => b.problems
  | .error e => [e]

/-- The problems of a description of a command, with its kind. -/
def raisedByCommand (reg : Registry σ) (d : CommandDescriptor) : List (LoadError × String) :=
  (problemsOf (reg.buildCommand d.kind d.parameters)).map fun e => (e, d.kind)

/-- The problems of a description of an event, then those of its commands if it can be built, each with its kind. -/
def raisedByEvent (reg : Registry σ) (d : EventDescriptor) : List (LoadError × String) :=
  (problemsOf (reg.buildEvent d.kind d.parameters)).map (fun e => (e, d.kind)) ++
    if (reg.event? d).isSome then d.commands.flatMap reg.raisedByCommand else []

/-- The problems of a script with the kinds that raise them, in the order of loading. -/
def raised (reg : Registry σ) (s : Script) : List (LoadError × String) := s.events.flatMap reg.raisedByEvent

end Registry

namespace Loading

variable {reg : Registry σ}

theorem result_command (h : reg.Candid) (d : CommandDescriptor) : (command reg d).result = reg.command? d := by
  unfold command Registry.buildCommand Registry.command?
  cases hf : Json.find? d.kind reg.commands with
  | none => rfl
  | some f =>
    have hcandid := h _ _ (Json.mem_of_find? hf) d.parameters
    dsimp only
    cases hb : f d.parameters with
    | ok b => rfl
    | error e =>
      rw [hb] at hcandid
      cases e with
      | unknownCommandKind => exact absurd rfl hcandid
      | unknownEventKind | missingParameter | invalidParameter | invalidExpression => rfl

theorem findings_command (d : CommandDescriptor) :
    (command reg d).findings.map (fun f => (f.problem, f.kind)) = reg.raisedByCommand d := by
  unfold command Registry.raisedByCommand
  cases reg.buildCommand d.kind d.parameters with
  | ok b => exact List.map_map
  | error e => cases e <;> rfl

theorem result_event (h : reg.Candid) (d : EventDescriptor) : (event reg d).result = reg.event? d := by
  unfold event Registry.buildEvent Registry.event?
  cases Json.find? d.kind reg.events with
  | none => rfl
  | some f =>
    dsimp only
    cases f d.parameters with
    | error e => rfl
    | ok b =>
      have hcommands : (d.commands.map (command reg)).filterMap (·.result) = d.commands.filterMap reg.command? := by
        rw [List.filterMap_map]
        exact congrArg (List.filterMap · d.commands) (funext (result_command h))
      dsimp only [Except.map, Built.map]
      rw [hcommands]

theorem findings_event (h : reg.Candid) (d : EventDescriptor) :
    (event reg d).findings.map (fun f => (f.problem, f.kind)) = reg.raisedByEvent d := by
  have hresult := result_event h d
  unfold Registry.raisedByEvent
  rw [← hresult]
  unfold event
  cases reg.buildEvent d.kind d.parameters with
  | error e => rfl
  | ok b =>
    have hcommands : ((d.commands.map (command reg)).flatMap (·.findings)).map (fun f => (f.problem, f.kind)) =
        d.commands.flatMap reg.raisedByCommand := by
      rw [List.flatMap_map, List.map_flatMap]
      exact congrArg (List.flatMap · d.commands) (funext findings_command)
    dsimp only
    rw [List.map_append, hcommands]
    exact congrArg (· ++ _) List.map_map

end Loading

theorem events_eq {reg : Registry σ} (h : reg.Candid) (s : Script) :
    (load reg s).events = s.events.filterMap reg.event? := by
  rw [events_load]
  exact congrArg (List.filterMap · s.events) (funext (Loading.result_event h))

/-- The report of a script is in order, and tells of each problem the kinds that raise it. -/
theorem report_spec {reg : Registry σ} (h : reg.Candid) (s : Script) :
    (load reg s).report.Ordered ∧ ∀ e, (load reg s).report.kinds e = Report.tagsOf e (reg.raised s) := by
  have hraised : ((s.events.map (Loading.event reg)).flatMap (·.findings)).map (fun f => (f.problem, f.kind)) =
      reg.raised s := by
    rw [List.flatMap_map, List.map_flatMap]
    exact congrArg (List.flatMap · s.events) (funext (Loading.findings_event h))
  rw [← hraised]
  exact Report.ofFindings_spec _

/-- **Loading is a fold over the descriptions of a script.**  It gives the events that can be built, in order, each with
its commands or placeholders for them, and one entry of the report for every problem that is raised, with the kinds that
raise it in order.  So scripts one after the other are loaded like each of them. -/
theorem load_eq_fold {reg : Registry σ} (h : reg.Candid) :
    (∀ s : Script,
      (load reg s).events = s.events.filterMap reg.event? ∧
      ((load reg s).report.map Prod.fst).Nodup ∧
      (load reg s).report.Pairwise (fun p q => p.1.before q.1 = true) ∧
      ∀ e ks, (e, ks) ∈ (load reg s).report ↔ ks ≠ [] ∧ ks = Report.tagsOf e (reg.raised s)) ∧
    ∀ s t : Script,
      (load reg ⟨s.events ++ t.events⟩).events = (load reg s).events ++ (load reg t).events ∧
      ∀ e, (load reg ⟨s.events ++ t.events⟩).report.kinds e =
        (load reg s).report.kinds e ++ (load reg t).report.kinds e := by
  refine ⟨fun s => ?_, fun s t => ⟨events_load_append reg s t, fun e => ?_⟩⟩
  · obtain ⟨hordered, hkinds⟩ := report_spec h s
    refine ⟨events_eq h s, ?_, hordered.sorted, fun e ks => ?_⟩
    · refine List.pairwise_map.2 (hordered.sorted.imp fun hbefore heq => ?_)
      rw [heq, LoadError.before_irrefl] at hbefore
      cases hbefore
    · rw [hordered.mem_iff, hkinds]
  · have hraised : reg.raised ⟨s.events ++ t.events⟩ = reg.raised s ++ reg.raised t := List.flatMap_append
    rw [(report_spec h _).2, (report_spec h s).2, (report_spec h t).2, hraised]
    unfold Report.tagsOf
    rw [List.filter_append, List.map_append]

/-! ## The program's own kinds -/

/-- Whether something does not fail as if a kind of commands were unknown. -/
def Knowing {α : Type} (r : Except LoadError α) : Prop := r ≠ .error .unknownCommandKind

theorem Knowing.bind {α β : Type} {r : Except LoadError α} {f : α → Except LoadError β} (hr : Knowing r)
    (hf : ∀ a, Knowing (f a)) : Knowing (r >>= f) := by
  cases r with
  | ok a => exact hf a
  | error e => exact fun h => hr (congrArg Except.error (Except.error.inj h))

namespace Parameters

variable (ps : Parameters) (name : String)

theorem knowing_text : Knowing (ps.text name) := by
  unfold text
  split <;> exact nofun

theorem knowing_number : Knowing (ps.number name) := by
  unfold number
  split
  case h_3 => split <;> exact nofun
  all_goals exact nofun

theorem knowing_flag (absent : Bool) : Knowing (ps.flag name absent) := by
  unfold flag
  split
  case h_3 => split <;> exact nofun
  all_goals exact nofun

theorem knowing_variableName : Knowing (ps.variableName name) := by
  refine (knowing_text ps name).bind fun s => ?_
  split <;> exact nofun

theorem knowing_checked {α : Type} (check : String → Except Lang.SyntaxError α) : Knowing (checked check ps name) := by
  refine (knowing_text ps name).bind fun s => ?_
  split <;> exact nofun

theorem knowing_expression : Knowing (ps.expression name) := knowing_checked ps name _

end Parameters

open Parameters in
/-- The program's own kinds of commands report what is wrong with their parameters. -/
theorem Registry.candid_builtin (o : Outside σ) : (Registry.builtin o).Candid := by
  intro kind f hf ps
  change (kind, f) ∈ Command.kinds o at hf
  simp only [Command.kinds, List.mem_cons, List.not_mem_nil, or_false, Prod.mk.injEq] at hf
  rcases hf with ⟨-, rfl⟩ | ⟨-, rfl⟩ | ⟨-, rfl⟩ | ⟨-, rfl⟩ | ⟨-, rfl⟩ | ⟨-, rfl⟩ | ⟨-, rfl⟩ | ⟨-, rfl⟩ | ⟨-, rfl⟩ |
    ⟨-, rfl⟩ | ⟨-, rfl⟩ | ⟨-, rfl⟩ | ⟨-, rfl⟩ | ⟨-, rfl⟩ | ⟨-, rfl⟩
  -- startBlock, endBlock, elseMark
  · exact nofun
  · exact nofun
  · exact nofun
  -- setVariable
  · exact (knowing_variableName ps _).bind fun _ => (knowing_expression ps _).bind fun _ => nofun
  -- testVariable
  · refine (knowing_variableName ps _).bind fun _ => (knowing_text ps _).bind fun sign => ?_
    cases Command.Comparison.parse? sign with
    | none => exact nofun
    | some c => exact (knowing_expression ps _).bind fun _ => nofun
  -- expressionTest
  · exact (knowing_expression ps _).bind fun _ => nofun
  -- runScript
  · exact (knowing_checked ps _ _).bind fun _ => nofun
  -- sleep
  · refine (knowing_number ps _).bind fun seconds => ?_
    cases Command.duration? seconds with
    | none => exact nofun
    | some d => exact nofun
  -- print
  · exact (knowing_expression ps _).bind fun _ => nofun
  -- repeatTimes
  · refine (knowing_number ps _).bind fun times => ?_
    dsimp only
    split <;> exact nofun
  -- moveXyz
  · exact (knowing_expression ps _).bind fun _ => (knowing_expression ps _).bind fun _ =>
      (knowing_expression ps _).bind fun _ => (knowing_flag ps _ _).bind fun _ => nofun
  -- speed
  · exact (knowing_expression ps _).bind fun _ => nofun
  -- gripper
  · exact (knowing_flag ps _ _).bind fun _ => nofun
  -- exit, kill
  · exact nofun
  · exact nofun

/-- A script with an event of an unknown kind, and with one whose commands are of an unknown kind or lack a parameter. -/
def flawedScript : Script :=
  ⟨[⟨"NoEvent", [], [⟨"NoCommand", []⟩]⟩,
    ⟨"StepEvent", [], [⟨"NoCommand", []⟩, ⟨"SpeedCommand", []⟩, ⟨"ExitEventCommand", []⟩, ⟨"NoCommand", []⟩]⟩]⟩

/-- The hypothesis of `load_eq_fold` is satisfiable: the program's own kinds are candid. -/
theorem load_eq_fold_flawedScript :
    (Registry.builtin (Outside.nobody Unit)).Candid ∧
      (load (Registry.builtin (Outside.nobody Unit)) flawedScript).events.length = 1 ∧
      (LoadError.unknownCommandKind, ["NoCommand", "NoCommand"]) ∈
        (load (Registry.builtin (Outside.nobody Unit)) flawedScript).report := by
  have hcandid := Registry.candid_builtin (Outside.nobody Unit)
  obtain ⟨hload, -⟩ := load_eq_fold hcandid
  obtain ⟨hevents, -, -, hreport⟩ := hload flawedScript
  refine ⟨hcandid, ?_, (hreport _ _).2 ⟨List.cons_ne_nil _ _, ?_⟩⟩
  · rw [hevents]
    rfl
  · rfl

end ArmPilot
