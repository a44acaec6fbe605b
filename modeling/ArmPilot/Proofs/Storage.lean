import Mathlib
import ArmPilot.Storage
import ArmPilot.Proofs.Json.Reread

/-!
# Stored scripts read again

A script that is written, compactly or as it is saved, is read as the script with the same events and commands, whose
parameters are what they are when they are read again.  It is the same script exactly if each of the doubles in it is
read as itself.
-/

namespace ArmPilot

open Json (outcome outcome_bind outcome_map)

/-- What a written command is read as. -/
def CommandDescriptor.reread (c : CommandDescriptor) : Except Json.Problem CommandDescriptor :=
  (Json.rereadMembers c.parameters).map (CommandDescriptor.mk c.kind)

/-- What a written event is read as. -/
def EventDescriptor.reread (e : EventDescriptor) : Except Json.Problem EventDescriptor := do
  let parameters ← Json.rereadMembers e.parameters
  let commands ← e.commands.mapM CommandDescriptor.reread
  return ⟨e.kind, parameters, commands⟩

/-- What a written script is read as. -/
def Script.reread (s : Script) : Except Json.Problem Script := (s.events.mapM EventDescriptor.reread).map Script.mk

/-- The doubles in the parameters of an event and of its commands. -/
def EventDescriptor.reals (e : EventDescriptor) : List Float :=
  Json.realsOfMembers e.parameters ++ e.commands.flatMap fun c => Json.realsOfMembers c.parameters

/-- The doubles of a script. -/
def Script.reals (s : Script) : List Float := s.events.flatMap EventDescriptor.reals

/-- Whether a document can hold an event whose braces are opened at a depth. -/
def EventDescriptor.Storable (depth : Nat) (e : EventDescriptor) : Prop :=
  (Json.obj e.parameters).Storable depth ∧ ∀ c ∈ e.commands, (Json.obj c.parameters).Storable (depth - 2)

/-- Whether a document can hold a script: the parameters of events stand in the second bracket, those of commands in the
fourth. -/
def Script.Storable (s : Script) : Prop := ∀ e ∈ s.events, e.Storable (Json.depthLimit - 2)

/-! ## The walks over a stored script -/

theorem outcome_mapping {depth : Nat} {ms : Parameters} (h : (Json.obj ms).Storable depth) {t : Json.Tree}
    (ht : t.Spells (.obj ms)) : outcome (t.mapping depth) = Json.rereadMembers ms := by
  cases h with
  | obj hsorted hms =>
    cases ht with
    | record start hmembers =>
      rw [Json.Tree.mapping, if_neg (Nat.succ_ne_zero _)]
      exact Json.outcome_membersValues_nil hsorted (fun m hm t ht => Json.outcome_value (hms m hm) ht) hmembers

theorem fields_member {σ : Type} {fs : List (Json.Field σ)} {key : String} {f : Json.Field σ}
    (hf : fs.find? (·.accepts key) = some f) (settled : Json.Spot) (t : Json.Tree) (rest : Json.Members) (st : σ)
    {seen : List String} (hseen : seen.contains f.name = false) :
    (Json.Members.member (.ok key) settled t rest).fields fs st seen =
      f.read t st >>= fun st => rest.fields fs st (f.name :: seen) := by
  rw [Json.Members.fields]
  simp only [bind, Except.bind, hf, hseen]
  rfl

/-- What a structure is whose fields have been taken: a required one may be missing. -/
def closed {σ : Type} (fs : List (Json.Field σ)) (required : Nat) (r : σ × List String × Json.Spot) : Except Json.Fault σ :=
  match (fs.take required).find? fun f => !r.2.1.contains f.name with
  | some f => .error ⟨.missingField f.name, r.2.2⟩
  | none => .ok r.1

/-- A structure is what its fields give if the required ones are among them. -/
theorem structure_record {σ : Type} {fs : Nat → List (Json.Field σ)} {depth required : Nat} {members : Json.Members}
    {start : σ} {x : Except Json.Fault σ} (seen : List String) (stop : Json.Spot)
    (hfields : members.fields (fs depth) start [] = x.map fun st => (st, seen, stop))
    (hseen : ((fs depth).take required).find? (fun f => !seen.contains f.name) = none) (title : String) (here : Json.Spot) :
    (Json.Tree.record here members).structure title required (depth + 1) fs start = x := by
  have hwalk : (Json.Tree.record here members).structure title required (depth + 1) fs start =
      members.fields (fs depth) start [] >>= closed (fs depth) required := rfl
  rw [hwalk, hfields]
  cases x with
  | error f => rfl
  | ok st =>
    show closed (fs depth) required (st, seen, stop) = _
    rw [closed, hseen]

/-- The walk over a stored command. -/
theorem CommandDescriptor.outcome_ofTree {depth : Nat} {c : CommandDescriptor} (h : (Json.obj c.parameters).Storable depth)
    {t : Json.Tree} (ht : t.Spells c.toJson) : outcome (CommandDescriptor.ofTree (depth + 1) t) = c.reread := by
  cases ht with | record start hmembers =>
  cases hmembers with | @member _ settled₁ t₁ _ _ _ hkind hmembers =>
  cases hmembers with | @member _ settled₂ t₂ _ _ _ hparameters hmembers =>
  cases hmembers with | close stop =>
  cases hkind with | text _ stop₁ =>
  have hwalk : CommandDescriptor.ofTree (depth + 1) (.record start (.member (.ok "type") settled₁ (.text (.ok c.kind) stop₁)
      (.member (.ok "parameters") settled₂ t₂ (.close stop)))) =
      (t₂.mapping depth).map (CommandDescriptor.mk c.kind) := by
    refine structure_record ["parameters", "type"] stop ?_ rfl _ _
    rw [fields_member rfl _ _ _ _ rfl]
    show Json.Members.fields (CommandDescriptor.fields depth) _ (CommandDescriptor.mk c.kind []) ["type"] = _
    rw [fields_member rfl _ _ _ _ rfl]
    show (t₂.mapping depth >>= fun ps => Except.ok (CommandDescriptor.mk c.kind ps)) >>= _ = _
    cases t₂.mapping depth <;> rfl
  rw [hwalk, outcome_map, outcome_mapping h hparameters, reread]

/-- The items of a list are read one by one. -/
theorem outcome_each {α : Type} (read : Json.Tree → Except Json.Fault α) {toJson : α → Json}
    {reread : α → Except Json.Problem α} {as : List α}
    (h : ∀ a ∈ as, ∀ t : Json.Tree, t.Spells (toJson a) → outcome (read t) = reread a) {items : Json.Items}
    (hitems : items.Spells (as.map toJson)) : outcome (items.each read) = as.mapM reread := by
  induction as generalizing items with
  | nil =>
    cases hitems
    rfl
  | cons a as ih =>
    cases hitems with | @item start t rest _ _ head tail =>
    rw [Json.Items.each, outcome_bind, h a List.mem_cons_self t head, List.mapM_cons]
    congr 1
    funext first
    rw [outcome_bind, ih (fun b hb => h b (List.mem_cons_of_mem a hb)) tail]
    rfl

/-- The walk over a stored event. -/
theorem EventDescriptor.outcome_ofTree {depth : Nat} {e : EventDescriptor} (h : e.Storable (depth + 2)) {t : Json.Tree}
    (ht : t.Spells e.toJson) : outcome (EventDescriptor.ofTree (depth + 3) t) = e.reread := by
  obtain ⟨hown, hcommands⟩ := h
  cases ht with | record start hmembers =>
  cases hmembers with | @member _ settled₁ t₁ _ _ _ hkind hmembers =>
  cases hmembers with | @member _ settled₂ t₂ _ _ _ hparameters hmembers =>
  cases hmembers with | @member _ settled₃ t₃ _ _ _ hlist hmembers =>
  cases hmembers with | close stop =>
  cases hkind with | text _ stop₁ =>
  cases hlist with | @list here items _ hitems =>
  have hwalk : EventDescriptor.ofTree (depth + 3) (.record start (.member (.ok "type") settled₁ (.text (.ok e.kind) stop₁)
      (.member (.ok "parameters") settled₂ t₂ (.member (.ok "commandList") settled₃ (.list here items) (.close stop))))) =
      t₂.mapping (depth + 2) >>= fun parameters =>
        (items.each (CommandDescriptor.ofTree (depth + 1))).map (EventDescriptor.mk e.kind parameters) := by
    refine structure_record ["commandList", "parameters", "type"] stop ?_ rfl _ _
    rw [fields_member rfl _ _ _ _ rfl]
    show Json.Members.fields (EventDescriptor.fields (depth + 2)) _ (EventDescriptor.mk e.kind [] []) ["type"] = _
    rw [fields_member rfl _ _ _ _ rfl]
    show (t₂.mapping (depth + 2) >>= fun ps => Except.ok (EventDescriptor.mk e.kind ps [])) >>= _ = _
    cases t₂.mapping (depth + 2) with
    | error f => rfl
    | ok ps =>
      show Json.Members.fields (EventDescriptor.fields (depth + 2)) _ (EventDescriptor.mk e.kind ps [])
        ["parameters", "type"] = _
      rw [fields_member rfl _ _ _ _ rfl]
      show (items.each (CommandDescriptor.ofTree (depth + 1)) >>= fun cs => Except.ok (EventDescriptor.mk e.kind ps cs)) >>=
        _ = _
      cases items.each (CommandDescriptor.ofTree (depth + 1)) <;> rfl
  rw [hwalk, outcome_bind, outcome_mapping hown hparameters, reread]
  congr 1
  funext parameters
  rw [outcome_map, outcome_each (CommandDescriptor.ofTree (depth + 1))
    (fun c hc t ht => CommandDescriptor.outcome_ofTree (hcommands c hc) ht) hitems]
  cases e.commands.mapM CommandDescriptor.reread <;> rfl

namespace Script

variable {s : Script}

/-- The walk over a stored script. -/
theorem outcome_ofTree (hs : s.Storable) {t : Json.Tree} (ht : t.Spells s.toJson) : outcome (ofTree t) = s.reread := by
  cases ht with | @list start items _ hitems =>
  have hwalk : ofTree (.list start items) = (items.each (EventDescriptor.ofTree (Json.depthLimit - 1))).map Script.mk := rfl
  rw [hwalk, outcome_map, outcome_each (EventDescriptor.ofTree (Json.depthLimit - 1))
    (fun e he t ht => EventDescriptor.outcome_ofTree (hs e he) ht) hitems, reread]

/-- A script that a document can hold can be written. -/
theorem Storable.writable (hs : s.Storable) : s.toJson.Writable := by
  have hpair {key : String} {v : Json} (hv : v.Writable) {ms : List (String × Json)} (hms : ∀ m ∈ ms, m.2.Writable) :
      ∀ m ∈ (key, v) :: ms, m.2.Writable := List.forall_mem_cons.2 ⟨hv, hms⟩
  have hnone : ∀ m ∈ ([] : List (String × Json)), m.2.Writable := fun _ h => absurd h List.not_mem_nil
  refine .arr fun v hv => ?_
  obtain ⟨e, he, rfl⟩ := List.mem_map.1 hv
  obtain ⟨hown, hcommands⟩ := hs e he
  refine .obj (hpair (.str _) (hpair hown.writable (hpair (.arr fun w hw => ?_) hnone)))
  obtain ⟨c, hc, rfl⟩ := List.mem_map.1 hw
  exact .obj (hpair (.str _) (hpair (hcommands c hc).writable hnone))

theorem outcome_parse (hs : s.Storable) {text : List Char} (h : s.toJson.Reads text) :
    outcome (parse (String.ofList text)) = s.reread := by
  obtain ⟨t, htree, ht⟩ := h.ofText
  rw [parse, Json.readWith, htree, ← outcome_ofTree hs ht]
  dsimp only
  cases ofTree t <;> rfl

end Script

/-! ## Scripts that are read as themselves -/

theorem mapM_eq_self {ε α : Type} {f : α → Except ε α} {as : List α} :
    as.mapM f = .ok as ↔ ∀ a ∈ as, f a = .ok a := by
  induction as with
  | nil => simp [pure, Except.pure]
  | cons a as ih =>
    rw [List.mapM_cons, List.forall_mem_cons, ← ih]
    cases f a with
    | error e => simp [bind, Except.bind]
    | ok b =>
      cases as.mapM f with
      | error e => simp [bind, Except.bind]
      | ok bs => simp [bind, Except.bind, pure, Except.pure]

theorem rereadMembers_eq_self {depth : Nat} {ms : Parameters} (h : (Json.obj ms).Storable depth) :
    Json.rereadMembers ms = .ok ms ↔ ∀ x ∈ Json.realsOfMembers ms, Json.Steady x := by
  cases h with
  | obj _ hms => exact Json.rereadMembers_eq fun m hm => Json.reread_eq (hms m hm).writable

theorem CommandDescriptor.reread_eq_self {depth : Nat} {c : CommandDescriptor} (h : (Json.obj c.parameters).Storable depth) :
    c.reread = .ok c ↔ ∀ x ∈ Json.realsOfMembers c.parameters, Json.Steady x := by
  rw [← rereadMembers_eq_self h, reread]
  exact Json.map_eq_ok (a := c.parameters) fun _ _ h => (CommandDescriptor.mk.inj h).2

theorem EventDescriptor.reread_eq_self {depth : Nat} {e : EventDescriptor} (h : e.Storable depth) :
    e.reread = .ok e ↔ ∀ x ∈ e.reals, Json.Steady x := by
  have hcommands : e.commands.mapM CommandDescriptor.reread = .ok e.commands ↔
      ∀ c ∈ e.commands, ∀ x ∈ Json.realsOfMembers c.parameters, Json.Steady x := by
    rw [mapM_eq_self]
    exact forall₂_congr fun c hc => CommandDescriptor.reread_eq_self (h.2 c hc)
  have hreals : (∀ x ∈ e.reals, Json.Steady x) ↔ (∀ x ∈ Json.realsOfMembers e.parameters, Json.Steady x) ∧
      ∀ c ∈ e.commands, ∀ x ∈ Json.realsOfMembers c.parameters, Json.Steady x := by
    rw [reals, List.forall_mem_append, List.forall_mem_flatMap]
  rw [hreals, ← hcommands, ← rereadMembers_eq_self h.1, reread]
  cases Json.rereadMembers e.parameters with
  | error p => simp [bind, Except.bind]
  | ok ps =>
    cases e.commands.mapM CommandDescriptor.reread with
    | error p => simp [bind, Except.bind]
    | ok cs =>
      show Except.ok (EventDescriptor.mk e.kind ps cs) = .ok (EventDescriptor.mk e.kind e.parameters e.commands) ↔ _
      simp

namespace Script

theorem reread_eq_self {s : Script} (hs : s.Storable) : s.reread = .ok s ↔ ∀ x ∈ s.reals, Json.Steady x := by
  rw [reread, reals, List.forall_mem_flatMap]
  refine (Json.map_eq_ok (a := s.events) fun _ _ h => Script.mk.inj h).trans ?_
  rw [mapM_eq_self]
  exact forall₂_congr fun e he => EventDescriptor.reread_eq_self (hs e he)

/-- **What is written of a script is read the same, wherever it is kept, and is the script if and only if each of its
doubles is read as itself.** -/
theorem round_trip (s : Script) (hs : s.Storable) :
    (∀ t, parse s.render = .ok t ↔ s.reread = .ok t) ∧
      (∀ t, parse s.compact = .ok t ↔ parse s.render = .ok t) ∧
      (∀ (source : Source) (t : Script), (source.save s).load = .ok t ↔ parse s.render = .ok t) ∧
      (parse s.render = .ok s ↔ ∀ x ∈ s.reals, Json.Steady x) := by
  have hparse {text : List Char} (h : s.toJson.Reads text) (t : Script) :
      parse (String.ofList text) = .ok t ↔ s.reread = .ok t := by
    rw [← outcome_parse hs h]
    exact Json.mapError_eq_ok.symm
  have hrender (t : Script) : parse s.render = .ok t ↔ s.reread = .ok t :=
    hparse (Json.reads_pretty hs.writable 0) t
  have hcompact (t : Script) : parse s.compact = .ok t ↔ s.reread = .ok t := hparse (Json.reads_compact hs.writable) t
  refine ⟨hrender, fun t => (hcompact t).trans (hrender t).symm, fun source t => ?_, ?_⟩
  · unfold Source.load Source.save
    dsimp only
    cases parse s.render <;> simp
  · exact (hrender s).trans (reread_eq_self hs)

/-- A script with a double that is read as its neighbour. -/
def unsteadyScript : Script := ⟨[⟨"StepEvent", [("x", .num (.real 3e23))], []⟩]⟩

theorem round_trip_unsteadyScript :
    unsteadyScript.Storable ∧ parse unsteadyScript.render ≠ .ok unsteadyScript ∧
      ∀ (source : Source), (source.save unsteadyScript).load ≠ .ok unsteadyScript := by
  have hstorable : unsteadyScript.Storable := by
    intro e he
    obtain rfl := List.mem_singleton.1 he
    refine ⟨.obj (List.pairwise_singleton _ _) fun m hm => ?_, fun c hc => absurd hc List.not_mem_nil⟩
    rw [List.mem_singleton.1 hm]
    exact .num ⟨by decide +kernel, by decide +kernel⟩
  have hunsteady : ¬Json.Steady 3e23 := by
    intro h
    have hbits : (Json.Numeral.ofFloat 3e23).value.toOption.map (·.toFloat.toBits) ≠ some (3e23 : Float).toBits := by
      decide +kernel
    rw [h] at hbits
    exact hbits rfl
  obtain ⟨-, -, hload, hself⟩ := round_trip unsteadyScript hstorable
  have hrender : parse unsteadyScript.render ≠ .ok unsteadyScript := fun h =>
    hunsteady (hself.1 h 3e23 (List.mem_singleton.2 rfl))
  exact ⟨hstorable, hrender, fun source h => hrender ((hload source _).1 h)⟩

end Script

end ArmPilot
