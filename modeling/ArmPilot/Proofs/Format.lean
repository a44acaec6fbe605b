import ArmPilot.Proofs.Json.Fields

/-!
# The format of scripts

A script is an array of event descriptors.  A descriptor gives a kind, parameters and, for an event, commands
(`EventDescriptor.Describes`).  What is decoded of a text is what its document describes, and it stays the same when
the descriptors are redrawn (`Script.decoded`).
-/

namespace ArmPilot

/-- The kind of a descriptor, which older editors name by another key. -/
def kindSlot : Json.Slot := ⟨"type", ["typeLogic"], none⟩

/-- The parameters of a descriptor. -/
def parametersSlot : Json.Slot := ⟨"parameters", [], some (.obj [])⟩

/-- The commands of an event. -/
def commandsSlot : Json.Slot := ⟨"commandList", [], some (.arr [])⟩

/-- The fields of a command descriptor. -/
def CommandDescriptor.slots : List Json.Slot := [kindSlot, parametersSlot]

/-- The fields of an event descriptor. -/
def EventDescriptor.slots : List Json.Slot := [kindSlot, parametersSlot, commandsSlot]

/-- Whether a document is a command descriptor. -/
def CommandDescriptor.WellFormed (d : Json) : Prop := ∃ kind ms, Json.Gives slots [.str kind, .obj ms] d

/-- Whether a document is an event descriptor. -/
def EventDescriptor.WellFormed (d : Json) : Prop :=
  ∃ kind ms ds, Json.Gives slots [.str kind, .obj ms, .arr ds] d ∧ ∀ d ∈ ds, CommandDescriptor.WellFormed d

/-- Whether a document describes a command. -/
def CommandDescriptor.Describes (d : Json) (c : CommandDescriptor) : Prop :=
  ∃ ms, Json.Gives slots [.str c.kind, .obj ms] d ∧ Json.Keep c.parameters ms

/-- Whether a document describes an event. -/
def EventDescriptor.Describes (d : Json) (e : EventDescriptor) : Prop :=
  ∃ ms ds, Json.Gives slots [.str e.kind, .obj ms, .arr ds] d ∧ Json.Keep e.parameters ms ∧
    List.Forall₂ CommandDescriptor.Describes ds e.commands

/-- Whether a document describes a script. -/
def Script.Describes (d : Json) (s : Script) : Prop :=
  ∃ ds, d = .arr ds ∧ List.Forall₂ EventDescriptor.Describes ds s.events

/-- Whether parameters have the same members but for the order of these. -/
def SameParameters (d d' : Json) : Prop := ∃ ms ms', d = .obj ms ∧ d' = .obj ms' ∧ d.Shuffles d'

/-- Whether a command descriptor is redrawn as another. -/
def CommandDescriptor.Redrawn : Json → Json → Prop := Relation.EqvGen (Json.Redraws slots SameParameters)

/-- Whether the descriptors of two lists of commands are redrawn one by one. -/
def SameCommands (d d' : Json) : Prop :=
  ∃ ds ds', d = .arr ds ∧ d' = .arr ds' ∧ List.Forall₂ CommandDescriptor.Redrawn ds ds'

/-- Whether an event descriptor is redrawn as another. -/
def EventDescriptor.Redrawn : Json → Json → Prop :=
  Relation.EqvGen (Json.Redraws slots fun d d' => SameParameters d d' ∨ SameCommands d d')

/-- Whether the descriptors of two scripts are redrawn one by one. -/
def Script.Redrawn (d d' : Json) : Prop :=
  ∃ ds ds', d = .arr ds ∧ d' = .arr ds' ∧ List.Forall₂ EventDescriptor.Redrawn ds ds'

theorem kindSlot_apart_parametersSlot : kindSlot.Apart parametersSlot := Json.Slot.apart_of_keys (by decide)

theorem kindSlot_apart_commandsSlot : kindSlot.Apart commandsSlot := Json.Slot.apart_of_keys (by decide)

theorem parametersSlot_apart_commandsSlot : parametersSlot.Apart commandsSlot := Json.Slot.apart_of_keys (by decide)

section

variable {σ : Type}

/-- The column of the kind of a descriptor. -/
def kindColumn (get : σ → String) (set : String → σ → σ) : Json.Column σ :=
  .ofPart "type" ["typeLogic"] none Json.Tree.string get set fun d v => d = .str v

/-- The column of the parameters of a descriptor. -/
def parametersColumn (depth : Nat) (get : σ → Parameters) (set : Parameters → σ → σ) : Json.Column σ :=
  .ofPart "parameters" [] (some (.obj [])) (Json.Tree.mapping depth) get set fun d v => ∃ ms, d = .obj ms ∧ Json.Keep v ms

/-- Parameters that are missing are empty. -/
theorem parameters_absent {ps : Parameters} : (∃ ms, Json.obj [] = .obj ms ∧ Json.Keep ps ms) ↔ ps = [] := by
  rw [← Json.settled_eq_obj]
  exact ⟨fun h => (Json.obj.inj h).symm, fun h => congrArg Json.obj h.symm⟩

end

/-- The column of the commands of an event. -/
def commandsColumn (depth : Nat) : Json.Column EventDescriptor :=
  .ofPart "commandList" [] (some (.arr [])) (Json.Tree.sequence depth CommandDescriptor.ofTree) EventDescriptor.commands
    (fun v e => { e with commands := v }) fun d v => ∃ ds, d = .arr ds ∧ List.Forall₂ CommandDescriptor.Describes ds v

/-- Commands that are missing are none. -/
theorem commands_absent {cs : List CommandDescriptor} :
    (∃ ds, Json.arr [] = .arr ds ∧ List.Forall₂ CommandDescriptor.Describes ds cs) ↔ cs = [] := by
  constructor
  · rintro ⟨ds, ⟨⟩, h⟩
    exact List.forall₂_nil_left_iff.1 h
  · rintro rfl
    exact ⟨[], rfl, .nil⟩

namespace CommandDescriptor

/-- The columns of a command descriptor. -/
def columns (depth : Nat) : List (Json.Column CommandDescriptor) :=
  [kindColumn kind fun v c => { c with kind := v },
    parametersColumn depth parameters fun v c => { c with parameters := v }]

theorem describes_columns (depth : Nat) {d : Json} {c : CommandDescriptor} :
    Json.Column.Describes (columns depth) d c ↔ Describes d c := by
  constructor
  · rintro ⟨vs, hgives, htells⟩
    obtain ⟨_, _, rfl, hrest, rfl⟩ := List.forall₂_cons_left_iff.1 htells
    obtain ⟨_, _, ⟨ms, rfl, hkeep⟩, hnil, rfl⟩ := List.forall₂_cons_left_iff.1 hrest
    obtain rfl := List.forall₂_nil_left_iff.1 hnil
    exact ⟨ms, hgives, hkeep⟩
  · rintro ⟨ms, hgives, hkeep⟩
    exact ⟨_, hgives, .cons rfl (.cons ⟨ms, rfl, hkeep⟩ .nil)⟩

theorem cover_columns (depth : Nat) : Json.Column.Cover depth ⟨"", []⟩ (columns depth) where
  reads := by
    refine List.forall_mem_cons.2 ⟨fun t d hd => ?_, List.forall_mem_singleton.2 fun t d hd => ?_⟩
    · exact Json.Column.read_ofPart (fun v => Json.string_iff hd) _ _ _ _ _
    · exact Json.Column.read_ofPart (fun v => Json.mapping_iff hd) _ _ _ _ _
  get_set := List.forall_mem_cons.2 ⟨fun _ _ => rfl, List.forall_mem_singleton.2 fun _ _ => rfl⟩
  apart := List.pairwise_pair.2 ⟨fun _ _ => rfl, fun _ _ => rfl, kindSlot_apart_parametersSlot⟩
  ext := by
    rintro ⟨k, ps⟩ ⟨k', ps'⟩ h
    obtain ⟨hkind, hrest⟩ := List.forall_mem_cons.1 h
    have hparameters := List.forall_mem_singleton.1 hrest
    exact congrArg₂ mk hkind hparameters
  absent := by
    refine List.forall_mem_cons.2 ⟨nofun, List.forall_mem_singleton.2 ?_⟩
    rintro d ⟨⟩ v
    exact parameters_absent

/-- A command is read of the documents that describe it. -/
theorem ofTree_iff {k : Nat} {t : Json.Tree} {d : Json} (hd : t.written k = .ok d) {c : CommandDescriptor} :
    ofTree k t = .ok c ↔ Describes d c := by
  rw [← describes_columns (k - 1)]
  exact Json.structure_iff _ (cover_columns (k - 1)) rfl (List.forall_mem_singleton.2 nofun) rfl hd

end CommandDescriptor

namespace EventDescriptor

/-- The columns of an event descriptor. -/
def columns (depth : Nat) : List (Json.Column EventDescriptor) :=
  [kindColumn kind fun v e => { e with kind := v },
    parametersColumn depth parameters fun v e => { e with parameters := v },
    commandsColumn depth]

theorem describes_columns (depth : Nat) {d : Json} {e : EventDescriptor} :
    Json.Column.Describes (columns depth) d e ↔ Describes d e := by
  constructor
  · rintro ⟨vs, hgives, htells⟩
    obtain ⟨_, _, rfl, hrest, rfl⟩ := List.forall₂_cons_left_iff.1 htells
    obtain ⟨_, _, ⟨ms, rfl, hkeep⟩, hlast, rfl⟩ := List.forall₂_cons_left_iff.1 hrest
    obtain ⟨_, _, ⟨ds, rfl, hcommands⟩, hnil, rfl⟩ := List.forall₂_cons_left_iff.1 hlast
    obtain rfl := List.forall₂_nil_left_iff.1 hnil
    exact ⟨ms, ds, hgives, hkeep, hcommands⟩
  · rintro ⟨ms, ds, hgives, hkeep, hcommands⟩
    exact ⟨_, hgives, .cons rfl (.cons ⟨ms, rfl, hkeep⟩ (.cons ⟨ds, rfl, hcommands⟩ .nil))⟩

theorem cover_columns (depth : Nat) : Json.Column.Cover depth ⟨"", [], []⟩ (columns depth) where
  reads := by
    refine List.forall_mem_cons.2 ⟨fun t d hd => ?_, List.forall_mem_cons.2 ⟨fun t d hd => ?_,
      List.forall_mem_singleton.2 fun t d hd => ?_⟩⟩
    · exact Json.Column.read_ofPart (fun v => Json.string_iff hd) _ _ _ _ _
    · exact Json.Column.read_ofPart (fun v => Json.mapping_iff hd) _ _ _ _ _
    · refine Json.Column.read_ofPart (fun v => Json.sequence_iff hd fun t d hd c => ?_) _ _ _ _ _
      exact CommandDescriptor.ofTree_iff hd
  get_set := List.forall_mem_cons.2 ⟨fun _ _ => rfl, List.forall_mem_cons.2 ⟨fun _ _ => rfl,
    List.forall_mem_singleton.2 fun _ _ => rfl⟩⟩
  apart := by
    refine .cons (List.forall_mem_cons.2 ⟨⟨fun _ _ => rfl, fun _ _ => rfl, kindSlot_apart_parametersSlot⟩, ?_⟩)
      (List.pairwise_pair.2 ⟨fun _ _ => rfl, fun _ _ => rfl, parametersSlot_apart_commandsSlot⟩)
    exact List.forall_mem_singleton.2 ⟨fun _ _ => rfl, fun _ _ => rfl, kindSlot_apart_commandsSlot⟩
  ext := by
    rintro ⟨k, ps, cs⟩ ⟨k', ps', cs'⟩ h
    obtain ⟨hkind, hrest⟩ := List.forall_mem_cons.1 h
    obtain ⟨hparameters, hrest⟩ := List.forall_mem_cons.1 hrest
    have hcommands := List.forall_mem_singleton.1 hrest
    obtain rfl : k = k' := hkind
    obtain rfl : ps = ps' := hparameters
    exact congrArg (mk k ps) hcommands
  absent := by
    refine List.forall_mem_cons.2 ⟨nofun, List.forall_mem_cons.2 ⟨?_, List.forall_mem_singleton.2 ?_⟩⟩
    · rintro d ⟨⟩ v
      exact parameters_absent
    · rintro d ⟨⟩ v
      exact commands_absent

/-- An event is read of the documents that describe it. -/
theorem ofTree_iff {k : Nat} {t : Json.Tree} {d : Json} (hd : t.written k = .ok d) {e : EventDescriptor} :
    ofTree k t = .ok e ↔ Describes d e := by
  rw [← describes_columns (k - 1)]
  exact Json.structure_iff _ (cover_columns (k - 1)) rfl (List.forall_mem_cons.2 ⟨nofun,
    List.forall_mem_singleton.2 nofun⟩) rfl hd

end EventDescriptor

/-! ## Descriptors that are redrawn -/

theorem forall₂_iff_of_forall₂ {α β : Type} {R : α → α → Prop} {S : α → β → Prop} {as as' : List α}
    (h : List.Forall₂ R as as') (hR : ∀ a a', R a a' → ∀ b, S a b ↔ S a' b) (bs : List β) :
    List.Forall₂ S as bs ↔ List.Forall₂ S as' bs := by
  induction h generalizing bs with
  | nil => exact Iff.rfl
  | @cons a a' as as' ha _ ih =>
    cases bs with
    | nil => simp
    | cons b bs => rw [List.forall₂_cons, List.forall₂_cons, hR a a' ha b, ih]

theorem SameParameters.keep_iff {d d' : Json} (h : SameParameters d d') {ps : Parameters} :
    (∃ ms, d = .obj ms ∧ Json.Keep ps ms) ↔ ∃ ms, d' = .obj ms ∧ Json.Keep ps ms := by
  obtain ⟨ms, ms', -, -, hshuffles⟩ := h
  rw [← Json.settled_eq_obj, ← Json.settled_eq_obj, hshuffles.settled_eq]

theorem CommandDescriptor.describes_iff_of_redrawn {d d' : Json} (h : Redrawn d d') (c : CommandDescriptor) :
    Describes d c ↔ Describes d' c := by
  rw [← describes_columns 0, ← describes_columns 0]
  refine (cover_columns 0).describes_redrawn (List.forall_mem_cons.2 ⟨?_, List.forall_mem_singleton.2 ?_⟩) h
  · rintro v v' ⟨ms, ms', rfl, rfl, -⟩ p
    exact iff_of_false nofun nofun
  · intro v v' hsame p
    exact hsame.keep_iff

theorem EventDescriptor.describes_iff_of_redrawn {d d' : Json} (h : Redrawn d d') (e : EventDescriptor) :
    Describes d e ↔ Describes d' e := by
  rw [← describes_columns 0, ← describes_columns 0]
  refine (cover_columns 0).describes_redrawn (List.forall_mem_cons.2 ⟨?_, List.forall_mem_cons.2 ⟨?_,
    List.forall_mem_singleton.2 ?_⟩⟩) h
  · rintro v v' (⟨ms, ms', rfl, rfl, -⟩ | ⟨ds, ds', rfl, rfl, -⟩) p
    · exact iff_of_false nofun nofun
    · exact iff_of_false nofun nofun
  · rintro v v' (hsame | ⟨ds, ds', rfl, rfl, -⟩) p
    · exact hsame.keep_iff
    · exact iff_of_false nofun nofun
  · rintro v v' (⟨ms, ms', rfl, rfl, -⟩ | ⟨ds, ds', rfl, rfl, hcommands⟩) p
    · exact iff_of_false nofun nofun
    · show (∃ es, Json.arr ds = .arr es ∧ _) ↔ ∃ es, Json.arr ds' = .arr es ∧ _
      have hiff : List.Forall₂ CommandDescriptor.Describes ds p ↔ List.Forall₂ CommandDescriptor.Describes ds' p :=
        forall₂_iff_of_forall₂ hcommands (fun _ _ h => CommandDescriptor.describes_iff_of_redrawn h) p
      simpa using hiff

/-! ## Scripts -/

theorem exists_forall₂_iff {α : Type} {D : Json → α → Prop} {ds : List Json} :
    (∃ as, List.Forall₂ D ds as) ↔ ∀ d ∈ ds, ∃ a, D d a := by
  simpa only [and_self] using Json.exists_forall₂ (R := D) (S := D)

theorem CommandDescriptor.exists_describes {d : Json} : (∃ c, Describes d c) ↔ WellFormed d := by
  constructor
  · rintro ⟨c, ms, hgives, -⟩
    exact ⟨c.kind, ms, hgives⟩
  · rintro ⟨kind, ms, hgives⟩
    exact ⟨⟨kind, _⟩, ms, hgives, Json.settled_eq_obj_iff.1 rfl⟩

theorem EventDescriptor.exists_describes {d : Json} : (∃ e, Describes d e) ↔ WellFormed d := by
  have hcommands (ds : List Json) :
      (∃ cs, List.Forall₂ CommandDescriptor.Describes ds cs) ↔ ∀ d ∈ ds, CommandDescriptor.WellFormed d :=
    exists_forall₂_iff.trans (forall₂_congr fun d _ => CommandDescriptor.exists_describes)
  constructor
  · rintro ⟨e, ms, ds, hgives, -, hds⟩
    exact ⟨e.kind, ms, ds, hgives, (hcommands ds).1 ⟨e.commands, hds⟩⟩
  · rintro ⟨kind, ms, ds, hgives, hds⟩
    obtain ⟨cs, hcs⟩ := (hcommands ds).2 hds
    exact ⟨⟨kind, _, cs⟩, ms, ds, hgives, Json.settled_eq_obj_iff.1 rfl, hcs⟩

namespace Script

/-- A script is read of the documents that describe it. -/
theorem ofTree_iff {t : Json.Tree} {d : Json} (hd : t.written Json.depthLimit = .ok d) {s : Script} :
    ofTree t = .ok s ↔ Describes d s := by
  have hevents (es : List EventDescriptor) : t.sequence Json.depthLimit EventDescriptor.ofTree = .ok es ↔
      ∃ ds, d = .arr ds ∧ List.Forall₂ EventDescriptor.Describes ds es :=
    Json.sequence_iff hd fun t d hd e => EventDescriptor.ofTree_iff hd
  rw [ofTree, Json.map_eq_ok_iff, Describes, ← hevents]
  constructor
  · rintro ⟨es, hes, rfl⟩
    exact hes
  · intro hes
    exact ⟨s.events, hes, rfl⟩

theorem parse_iff {text : String} {d : Json} (hd : Json.written text = .ok d) {s : Script} :
    parse text = .ok s ↔ Describes d s := by
  have hread {α : Type} (walk : Json.Tree → Except Json.Fault α) (a : α) : Json.readWith walk text = .ok a ↔
      walk (Json.Tree.ofText text).1 = .ok a ∧ (Json.Tree.ofText text).2 = none := by
    rw [Json.readWith]
    dsimp only
    cases walk (Json.Tree.ofText text).1 <;> cases (Json.Tree.ofText text).2 <;> simp
  obtain ⟨hwritten, hend⟩ := (hread _ d).1 hd
  rw [parse, hread, and_iff_left hend, ofTree_iff hwritten]

theorem describes_iff_of_redrawn {d d' : Json} (h : Redrawn d d') (s : Script) : Describes d s ↔ Describes d' s := by
  obtain ⟨ds, ds', rfl, rfl, hevents⟩ := h
  have hiff : List.Forall₂ EventDescriptor.Describes ds s.events ↔ List.Forall₂ EventDescriptor.Describes ds' s.events :=
    forall₂_iff_of_forall₂ hevents (fun _ _ h => EventDescriptor.describes_iff_of_redrawn h) s.events
  simpa [Describes] using hiff

/-- **What is decoded of a text**, if it is one of a document at all: the script that the document describes, if it is an
array of event descriptors.  The script stays the same when the descriptors are redrawn. -/
theorem decoded {text : String} {v : Json} (h : Json.parse text = .ok v) : ∃ d, Json.written text = .ok d ∧ d.settled = v ∧
    ((∃ s, parse text = .ok s) ↔ ∃ ds, d = .arr ds ∧ ∀ d ∈ ds, EventDescriptor.WellFormed d) ∧
      (∀ s, parse text = .ok s ↔ Describes d s) ∧
      ∀ text' d', Json.written text' = .ok d' → Redrawn d d' → ∀ s, parse text' = .ok s ↔ parse text = .ok s := by
  rw [Json.parse_eq, Json.map_eq_ok_iff] at h
  obtain ⟨d, hd, hv⟩ := h
  refine ⟨d, hd, hv, ?_, fun s => parse_iff hd, fun text' d' hd' hredrawn s => ?_⟩
  · have hevents (ds : List Json) :
        (∃ es, List.Forall₂ EventDescriptor.Describes ds es) ↔ ∀ d ∈ ds, EventDescriptor.WellFormed d :=
      exists_forall₂_iff.trans (forall₂_congr fun d _ => EventDescriptor.exists_describes)
    constructor
    · rintro ⟨s, hs⟩
      obtain ⟨ds, hds, hforall⟩ := (parse_iff hd).1 hs
      exact ⟨ds, hds, (hevents ds).1 ⟨s.events, hforall⟩⟩
    · rintro ⟨ds, hds, hforall⟩
      obtain ⟨es, hes⟩ := (hevents ds).2 hforall
      exact ⟨⟨es⟩, (parse_iff hd).2 ⟨ds, hds, hes⟩⟩
  · rw [parse_iff hd, parse_iff hd', describes_iff_of_redrawn hredrawn]

end Script

/-! ## Descriptors of two shapes -/

/-- An event of an older editor, with a member of its own. -/
def olderScript : Json :=
  .arr [.obj [("note", .null), ("commandList", .arr [.obj [("typeLogic", .str "WaitCommand"),
    ("parameters", .obj [("typeLogic", .bool true), ("type", .num (.int 2))])]]), ("type", .str "StepEvent")]]

/-- The same event with its fields listed. -/
def listedScript : Json :=
  .arr [.arr [.str "StepEvent", .obj [], .arr [.arr [.str "WaitCommand",
    .obj [("type", .num (.int 2)), ("typeLogic", .bool true)]]]]]

theorem exact_olderScript : olderScript.Exact Json.depthLimit := by
  refine .arr (List.forall_mem_singleton.2 (.obj (List.forall_mem_cons.2 ⟨.null, List.forall_mem_cons.2 ⟨?_, ?_⟩⟩)))
  · refine .arr (List.forall_mem_singleton.2 (.obj (List.forall_mem_cons.2 ⟨.str _, List.forall_mem_singleton.2 ?_⟩)))
    exact .obj (List.forall_mem_cons.2 ⟨.bool _, List.forall_mem_singleton.2 (.num ⟨by decide, by decide⟩ rfl)⟩)
  · exact List.forall_mem_singleton.2 (.str _)

theorem exact_listedScript : listedScript.Exact Json.depthLimit := by
  refine .arr (List.forall_mem_singleton.2 (.arr (List.forall_mem_cons.2 ⟨.str _, List.forall_mem_cons.2 ⟨.obj nofun, ?_⟩⟩)))
  refine List.forall_mem_singleton.2 (.arr (List.forall_mem_singleton.2 (.arr (List.forall_mem_cons.2 ⟨.str _, ?_⟩))))
  refine List.forall_mem_singleton.2 (.obj (List.forall_mem_cons.2 ⟨.num ⟨by decide, by decide⟩ rfl, ?_⟩))
  exact List.forall_mem_singleton.2 (.bool _)

theorem redrawn_olderScript : Script.Redrawn olderScript listedScript := by
  have hparameters : SameParameters (.obj [("typeLogic", .bool true), ("type", .num (.int 2))])
      (.obj [("type", .num (.int 2)), ("typeLogic", .bool true)]) :=
    ⟨_, _, rfl, rfl, .order (.swap _ _ _) (by decide)⟩
  have hspelling (v : Json) (ms : List (String × Json)) :
      CommandDescriptor.Redrawn (.obj (("typeLogic", v) :: ms)) (.obj (("type", v) :: ms)) :=
    .rel _ _ (.spelling (s := kindSlot) (List.mem_cons_self ..) rfl rfl v ms)
  have hlisted (ds : List Json) (h : ds.length ≤ 2) :
      CommandDescriptor.Redrawn (.obj (["type", "parameters"].zip ds)) (.arr ds) := .rel _ _ (.listed h)
  have hcommand : CommandDescriptor.Redrawn
      (.obj [("typeLogic", .str "WaitCommand"), ("parameters", .obj [("typeLogic", .bool true), ("type", .num (.int 2))])])
      (.arr [.str "WaitCommand", .obj [("type", .num (.int 2)), ("typeLogic", .bool true)]]) := by
    refine .trans _ _ _ (hspelling _ _) ?_
    refine .trans _ _ _ (.rel _ _ (.order (.swap _ _ _))) ?_
    refine .trans _ _ _ (.rel _ _ (.inside "parameters" hparameters _)) ?_
    refine .trans _ _ _ (.rel _ _ (.order (.swap _ _ _))) ?_
    exact hlisted [_, _] (Nat.le_refl 2)
  have hcommands : SameCommands _ _ := ⟨_, _, rfl, rfl, .cons hcommand .nil⟩
  have hevent (ds : List Json) (h : ds.length ≤ 3) :
      EventDescriptor.Redrawn (.obj (["type", "parameters", "commandList"].zip ds)) (.arr ds) :=
    .rel _ _ (.listed h)
  refine ⟨_, _, rfl, rfl, .cons ?_ .nil⟩
  refine .trans _ _ _ (.rel _ _ (.unknown (by decide) _ _)) ?_
  refine .trans _ _ _ (.rel _ _ (.inside "commandList" (.inr hcommands) _)) ?_
  refine .trans _ _ _ (.rel _ _ (.missing (s := parametersSlot) (by simp [EventDescriptor.slots]) rfl rfl)) ?_
  refine .trans _ _ _ (.rel _ _ (.order (List.reverse_perm _).symm)) ?_
  refine .trans _ _ _ (.rel _ _ (.order (.cons _ (.swap _ _ _)))) ?_
  exact hevent [_, _, _] (Nat.le_refl 3)

/-- The script that both describe. -/
def waitingScript : Script :=
  ⟨[⟨"StepEvent", [], [⟨"WaitCommand", [("type", .num (.int 2)), ("typeLogic", .bool true)]⟩]⟩]⟩

theorem describes_olderScript : Script.Describes olderScript waitingScript := by
  have hcommand : CommandDescriptor.Describes (.obj [("typeLogic", .str "WaitCommand"),
      ("parameters", .obj [("typeLogic", .bool true), ("type", .num (.int 2))])])
      ⟨"WaitCommand", [("type", .num (.int 2)), ("typeLogic", .bool true)]⟩ :=
    ⟨_, .cons (.inl rfl) (.cons (.inl rfl) .nil), Json.settled_eq_obj_iff.1 rfl⟩
  refine ⟨_, rfl, .cons ⟨[], _, ?_, Json.settled_eq_obj_iff.1 rfl, .cons hcommand .nil⟩ .nil⟩
  exact .cons (.inl rfl) (.cons (.inr ⟨rfl, rfl⟩) (.cons (.inl rfl) .nil))

theorem Script.decoded_olderScript : Json.parse olderScript.compact = .ok olderScript.settled ∧
    parse olderScript.compact = .ok waitingScript ∧ parse listedScript.compact = .ok waitingScript := by
  have hparse : Json.parse olderScript.compact = .ok olderScript.settled := by
    rw [Json.parse_eq, exact_olderScript.written_compact]
    rfl
  obtain ⟨d, hd, -, -, hdescribes, hredrawn⟩ := decoded hparse
  obtain rfl : olderScript = d := Except.ok.inj (exact_olderScript.written_compact.symm.trans hd)
  have hdecoded := (hdescribes waitingScript).2 describes_olderScript
  exact ⟨hparse, hdecoded,
    (hredrawn _ listedScript exact_listedScript.written_compact redrawn_olderScript waitingScript).2 hdecoded⟩

end ArmPilot
