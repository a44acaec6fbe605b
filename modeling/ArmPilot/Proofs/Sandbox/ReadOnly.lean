import ArmPilot.Proofs.Sandbox.Requests

/-!
# The constants of a sandbox

A sandbox begins with its constants and is then asked to run scripts, to evaluate expressions and to set variables, in
any order.  No request takes a constant away or puts another value in its place, but for what lies in a value with parts;
only a script that declares the name of a constant anew, outside of its blocks, hides it (`Scene.guards_of_spare`).
-/

open Std.Do

set_option mvcgen.warning false

namespace ArmPilot

open Lang (Value)

variable {σ : Type}

/-! ## A constant among the variables -/

namespace Lang

/-- Every variable of a name is a constant whose value has a core, and there is one. -/
structure Scope.Binds (cells : Array Cell) (name : String) (core : Value) (s : Scope) : Prop where
  bound : (name, some core) ∈ s.stamps cells
  only : ∀ kept, (name, kept) ∈ s.stamps cells → kept = some core

namespace Scope.Binds

variable {cells : Array Cell} {name : String} {core : Value} {s : Scope}

/-- The newest variable of the name is a constant with the core. -/
theorem lookup (h : s.Binds cells name core) :
    ∃ b, s.lookup name = some b ∧ b.readOnly = true ∧ (b.value.flat cells).core = core := by
  have hfind : ∃ kept, (s.stamps cells).find? (·.1 = name) = some kept := by
    rw [← Option.isSome_iff_exists, List.find?_isSome]
    exact ⟨_, h.bound, by simp⟩
  obtain ⟨⟨other, kept⟩, hfind⟩ := hfind
  obtain rfl : other = name := by simpa using List.find?_some hfind
  obtain rfl := h.only kept (List.mem_of_find?_eq_some hfind)
  rw [lookup_stamps] at hfind
  obtain ⟨b, hb, hstamp⟩ := Option.map_eq_some_iff.1 hfind
  have hfixed : (b.value.flat cells).fixed b.readOnly = some core := congrArg Prod.snd hstamp
  cases hreadOnly : b.readOnly with
  | false =>
    rw [hreadOnly] at hfixed
    cases hfixed
  | true =>
    rw [hreadOnly] at hfixed
    exact ⟨b, hb, hreadOnly, Option.some.inj hfixed⟩

/-- A variable of the name is never listed. -/
theorem not_listed (h : s.Binds cells name core) : name ∉ s.values.map Prod.fst := by
  intro hlisted
  obtain ⟨b, hb, rfl, hwritable⟩ := mem_values hlisted
  have hmem : b.stamp cells ∈ s.stamps cells := List.mem_map_of_mem hb
  have hkept : (b.value.flat cells).fixed b.readOnly = some core := h.only _ hmem
  rw [hwritable] at hkept
  cases hkept

/-- Variables of other names may come and go. -/
theorem of_others (h : s.Binds cells name core) {t : Scope} (hkept : ∀ b ∈ s, b.name = name → b ∈ t)
    (hnew : ∀ b ∈ t, b.name = name → b ∈ s) : t.Binds cells name core := by
  constructor
  · obtain ⟨b, hb, hstamp⟩ := List.mem_map.1 h.bound
    exact List.mem_map.2 ⟨b, hkept b hb (congrArg Prod.fst hstamp), hstamp⟩
  · intro kept hmem
    obtain ⟨b, hb, hstamp⟩ := List.mem_map.1 hmem
    exact h.only kept (List.mem_map.2 ⟨b, hnew b hb (congrArg Prod.fst hstamp), hstamp⟩)

end Scope.Binds

/-- A name is bound to a constant whose value has a core. -/
def Hold.binding (name : String) (core : Value) : Hold σ where
  holds s := s.Fits ∧ s.scope.Binds s.cells name core
  fits h := h.1
  keeps {s t} h hk := by
    have hstamps : t.scope.stamps t.cells = s.scope.stamps s.cells := hk.stamps
    exact ⟨hk.fits, hstamps ▸ h.2.bound, hstamps ▸ h.2.only⟩

/-- A declaration of another name leaves a name bound. -/
theorem Hold.admits_binding {name : String} {core : Value} {st : Stmt} (h : st.declared? ≠ some name) (start : Nat) :
    (Hold.binding (σ := σ) name core).Admits start st := by
  intro other hother s v readOnly replaces hs hv
  have hne : other ≠ name := fun heq => h (heq ▸ hother)
  refine ⟨hs.1.declare start other hv readOnly replaces, hs.2.of_others (fun b hb hname => ?_) fun b hb hname => ?_⟩
  · exact Store.mem_declare_of_ne hb fun heq => hne (heq.symm.trans hname)
  · obtain rfl | hb := Store.mem_declare hb
    · exact absurd hname hne
    · exact hb

end Lang

/-- Whether a value is all core: it has neither parts nor bits. -/
def Lang.Value.isWhole : Value → Bool
  | .int _ | .string _ | .array _ | .map _ | .bytes _ => false
  | _ => true

theorem Lang.Value.eq_of_core {u v : Value} (h : u.core = v.core) (hv : v.isWhole = true) : u = v := by
  have hcore : v.core = v := by
    cases v with
    | int | string | array | map | bytes => cases hv
    | _ => rfl
  rw [hcore] at h
  subst h
  cases u with
  | int | string | array | map | bytes => cases hv
  | _ => rfl

/-- An expression declares nothing outside of its blocks. -/
theorem Lang.Bounds.not_declares_of_parseExpression {b : Lang.Bounds} {first : Nat} {text : String} {p : Lang.Program}
    (h : b.parseExpression first text = .ok p) (name : String) : p.declares name = false := by
  unfold parseExpression at h
  dsimp only at h
  split at h
  · cases h
  · cases h
    rfl

namespace Sandbox

/-- A name of a sandbox is bound to a constant whose value has a core. -/
structure Binds (b : Sandbox) (name : String) (core : Value) : Prop where
  fits : b.Fits
  scope : b.scope.Binds b.cells name core

/-- Whether a script declares a name of a sandbox anew, outside of its blocks and functions. -/
def redeclares (b : Sandbox) (name text : String) : Bool :=
  match b.bounds.parseScript b.routines text with
  | .ok p => p.declares name
  | .error _ => false

theorem not_declares_of_redeclares {b : Sandbox} {name text : String} {p : Lang.Program}
    (h : b.redeclares name text = false) (hp : b.bounds.parseScript b.routines text = .ok p) : p.declares name = false := by
  unfold redeclares at h
  rwa [hp] at h

/-- The names of the constants. -/
def constantNames : List String := ["pi", "e", "robot", "vision", "resources", "vstream", "settings"]

theorem names_constants (settings : Json) : (constants settings).map Prod.fst = constantNames := rfl

/-- A new sandbox binds every constant. -/
theorem binds_create (c : Config) {settings : Json} {name : String} {v : Value} (h : (name, v) ∈ constants settings) :
    (create c settings).Binds name v.core := by
  have hnames : ((constants settings).map Prod.fst).Nodup := by
    rw [names_constants]
    decide
  have hstamp {m : String × Value} (hm : m ∈ constants settings) :
      (⟨m.1, m.2, true⟩ : Lang.Binding).stamp (create c settings).cells = (m.1, some m.2.core) := by
    rw [Lang.Binding.stamp, Value.flat_of_core rfl (isShared_constants hm)]
    rfl
  refine ⟨fits_create c settings, List.mem_map.2 ⟨_, mem_create.2 ⟨_, h, rfl⟩, hstamp h⟩, fun kept hkept => ?_⟩
  obtain ⟨b, hb, heq⟩ := List.mem_map.1 hkept
  obtain ⟨m, hm, rfl⟩ := mem_create.1 hb
  rw [hstamp hm] at heq
  obtain ⟨rfl, rfl⟩ := Prod.mk.inj heq
  rw [List.inj_on_of_nodup_map hnames hm h rfl]

theorem Binds.isReadOnly? {b : Sandbox} {name : String} {core : Value} (h : b.Binds name core) :
    b.scope.isReadOnly? name = some true := by
  obtain ⟨d, hd, hreadOnly, -⟩ := h.scope.lookup
  rw [Lang.Scope.isReadOnly?, hd, Option.map_some, hreadOnly]

/-- A variable that is set is another one than a constant. -/
theorem Binds.of_set {b b' : Sandbox} {name other : String} {core v : Value} (h : b.Binds name core)
    (hset : b.set other v = .ok b') : b'.Binds name core := by
  refine ⟨h.fits.of_set hset, ?_⟩
  unfold Sandbox.set at hset
  split at hset
  · cases hset
  · split at hset
    · cases hset
    · rename_i hwritable
      cases hset
      have hne : other ≠ name := fun heq => hwritable (heq ▸ h.isReadOnly?)
      unfold Lang.Scope.assign
      split
      · refine h.scope.of_others (fun d hd hname => ?_) fun d hd hname => ?_
        · exact Lang.Scope.mem_update_of_ne hd fun heq => hne (heq.symm.trans hname)
        · obtain hd | ⟨d, hlookup, rfl⟩ := Lang.Scope.mem_update hd
          · exact hd
          · exact absurd ((Lang.Scope.lookup_mem hlookup).2.symm.trans hname) hne
      · refine h.scope.of_others (fun d hd _ => List.mem_cons_of_mem _ hd) fun d hd hname => ?_
        obtain rfl | hd := List.mem_cons.1 hd
        · exact absurd hname hne
        · exact hd

end Sandbox

/-! ## Requests -/

namespace Request

/-- Whether no script of some requests declares a name anew, outside of its blocks and functions. -/
def spare (o : Outside σ) (name : String) : List (Request σ) → Scene σ → Bool
  | [], _ => true
  | r :: rest, s => !r.script?.any (s.sandbox.redeclares name) && spare o name rest ((r.act o).run.run s).2

end Request

namespace Scene

/-- Whether a name of a scene has the value of a constant: scripts find the value, no request sets it, and it is not
listed among the variables. -/
structure Guards (s : Scene σ) (name : String) (v : Value) : Prop where
  get? : s.sandbox.get? name = some v
  set : ∀ u, (Act.setVariable name u).run.run s = (.ok (.error (.readOnly name)), s)
  values : name ∉ s.sandbox.values.map Prod.fst

end Scene

/-- What is bound to a constant stays so, as long as no script declares the name anew. -/
def Sandbox.Lasting.binding (name : String) (core : Value) : Sandbox.Lasting where
  holds b := b.Binds name core
  spares p := p.declares name = false
  set h hset := h.of_set hset
  hold _ := .binding name core
  enter h := ⟨h.fits.store, h.scope⟩
  leave _ h := ⟨h.1.scope, h.2⟩
  admits {_ _} hp start st hst :=
    Lang.Hold.admits_binding (fun h => Bool.noConfusion (hp.symm.trans (Lang.Program.declares_iff.2 ⟨st, hst, h⟩))) start
  expression h := Lang.Bounds.not_declares_of_parseExpression h name
  fold _ hp := Bool.eq_false_of_not_eq_true fun h => Bool.noConfusion (hp.symm.trans (Lang.Program.declares_of_fold h))

/-- Requests leave a name bound, as long as no script of theirs declares it anew. -/
theorem Request.binds_afterAll {o : Outside σ} {name : String} {core : Value} {rs : List (Request σ)} :
    ∀ {s : Scene σ}, s.sandbox.Binds name core → spare o name rs s = true →
      (afterAll o rs s).sandbox.Binds name core := by
  induction rs with
  | nil => exact fun hs _ => hs
  | cons r rest ih =>
    intro s hs hspare
    rw [spare, Bool.and_eq_true, Bool.not_eq_true', Option.any_eq_false] at hspare
    obtain ⟨hscript, hrest⟩ := hspare
    refine ih (Act.keepsIf_iff.1 (Sandbox.Lasting.act (L := .binding name core) r) s ⟨hs, fun text htext p hp => ?_⟩) hrest
    exact Sandbox.not_declares_of_redeclares (hscript text htext) hp

/-- A name that is bound to a constant is guarded. -/
theorem Sandbox.Binds.guards {s : Scene σ} {name : String} {core : Value} (h : s.sandbox.Binds name core)
    (hname : isIdentifier name = true) : ∃ v, s.Guards name v ∧ v.core = core := by
  obtain ⟨b, hb, -, hcore⟩ := h.scope.lookup
  refine ⟨s.sandbox.flat b.value, ⟨?_, fun u => ?_, ?_⟩, hcore⟩
  · rw [Sandbox.get?, hb, Option.map_some]
  · have hset : s.sandbox.set name u = .error (.readOnly name) := by
      rw [Sandbox.set, hname, h.isReadOnly?]
      rfl
    unfold Act.setVariable
    rw [Failing.run_get_bind, hset]
    rfl
  · have hnames : s.sandbox.values.map Prod.fst = s.sandbox.scope.values.map Prod.fst := by
      rw [Sandbox.values, List.map_map]
      rfl
    rw [hnames]
    exact h.scope.not_listed

/-- **The constants of a sandbox stay read-only**, whatever scripts, expressions and settings of variables are asked of
it, as long as no script declares the name of the constant anew outside of its blocks.  The settings keep no more than
their kind, since scripts can reach into what lies in them. -/
theorem Scene.guards_of_spare (o : Outside σ) (c : Config) (settings : Json) (w : World σ) {rs : List (Request σ)}
    {name : String} {v : Value} (hname : (name, v) ∈ Sandbox.constants settings)
    (hrs : Request.spare o name rs ⟨.create c settings, w⟩ = true) :
    ∃ u, (Request.afterAll o rs ⟨.create c settings, w⟩).Guards name u ∧ u.core = v.core ∧
      (name ≠ "settings" → u = v) := by
  have hidentifier : ∀ x ∈ Sandbox.constantNames, isIdentifier x = true := by decide
  have hmem : name ∈ Sandbox.constantNames := Sandbox.names_constants settings ▸ List.mem_map_of_mem hname
  have hbinds := Request.binds_afterAll (Sandbox.binds_create c hname) hrs
  obtain ⟨u, hguards, hcore⟩ := hbinds.guards (hidentifier name hmem)
  refine ⟨u, hguards, hcore, fun hne => ?_⟩
  simp only [Sandbox.constants, List.mem_cons, List.not_mem_nil, or_false, Prod.mk.injEq] at hname
  rcases hname with ⟨-, rfl⟩ | ⟨-, rfl⟩ | ⟨-, rfl⟩ | ⟨-, rfl⟩ | ⟨-, rfl⟩ | ⟨-, rfl⟩ | ⟨rfl, -⟩
  case inr.inr.inr.inr.inr.inr => exact absurd rfl hne
  all_goals exact Lang.Value.eq_of_core hcore rfl

/-- Settings with an empty map in them. -/
def nestedSettings : Json := .obj [("arm", .obj [])]

/-- A scene in which nothing has been requested yet. -/
def Scene.fresh : Scene Unit := ⟨.create .default nestedSettings, .initial ()⟩

/-- Requests that try to change a constant, and hide it in a block. -/
def harmlessRequests : List (Request Unit) :=
  [.setVariable "pi" (.int 3), .execute "{ let pi = 3; } let p = pi; pi += 1;", .evaluate "pi"]

theorem Scene.guards_of_spare_harmlessRequests :
    Request.spare (.nobody Unit) "pi" harmlessRequests fresh = true ∧
      ∃ u, (Request.afterAll (.nobody Unit) harmlessRequests fresh).Guards "pi" u ∧
        u.core = (Value.float Lang.Library.pi).core ∧ ("pi" ≠ "settings" → u = .float Lang.Library.pi) := by
  have hspare : Request.spare (.nobody Unit) "pi" harmlessRequests fresh = true := by decide +kernel
  exact ⟨hspare, guards_of_spare (.nobody Unit) .default nestedSettings (.initial ()) (.head _) hspare⟩

/-- The scene that a script leaves behind. -/
def Scene.scripted (text : String) : Scene Unit := Request.afterAll (.nobody Unit) [.execute text] fresh

/-- **A script can hide a constant and reach into the settings.**  Once it declares the name of a constant anew, the name
has the new value, can be set and is listed; and the settings can be added to without being named anew. -/
theorem Scene.not_guards_scripted :
    (¬∀ text, (scripted text).sandbox.get? "pi" = some (.float Lang.Library.pi)) ∧
      (¬∀ text u, (Act.setVariable "pi" u).run.run (scripted text) =
        (.ok (.error (.readOnly "pi")), scripted text)) ∧
      (¬∀ text, "pi" ∉ (scripted text).sandbox.values.map Prod.fst) ∧
      ¬∀ text, (scripted text).sandbox.get? "settings" = some (.ofJson nestedSettings) := by
  refine ⟨fun h => ?_, fun h => ?_, fun h => ?_, fun h => ?_⟩
  · have htype := congrArg (Option.map Value.typeName) (h "let pi = 3;")
    revert htype
    decide +kernel
  · have hset := congrArg (fun r => (r.1.toOption.bind (·.toOption)).isSome) (h "let pi = 3;" .unit)
    revert hset
    decide +kernel
  · exact h "let pi = 3;" (by decide +kernel)
  · have htext := congrArg (Option.map Value.quoted) (h "settings.arm.speed = 1;")
    revert htext
    decide +kernel

end ArmPilot
