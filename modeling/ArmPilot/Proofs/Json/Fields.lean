import Mathlib.Data.List.Forall2
import Mathlib.Data.List.Pairwise
import Mathlib.Logic.Relation
import ArmPilot.Proofs.Json.Written
import ArmPilot.Proofs.Storage

/-!
# Fields of a document

A descriptor gives its fields as the members of an object, whose other members do not count, or as the items of a list
in their order (`Gives`).  It may be redrawn: its members put in another order, named by other keys of their fields, or
listed (`Redraws`); the fields stay the same (`redrawn_iff`).  What a structure reads of a descriptor is what its fields
tell (`structure_iff`).
-/

namespace ArmPilot
namespace Json

/-- A field of a descriptor. -/
structure Slot where
  key : String
  /-- Further keys that stand for the field. -/
  aliases : List String
  /-- What the field holds where it is missing, unless it must be given. -/
  absent : Option Json

namespace Slot

/-- Whether a key stands for a field. -/
def accepts (s : Slot) (key : String) : Bool := s.key = key || s.aliases.contains key

theorem accepts_key (s : Slot) : s.accepts s.key = true := by simp [accepts]

/-- What members give for a field, in their order. -/
def among (s : Slot) (ms : List (String × Json)) : List Json := (ms.filter fun m => s.accepts m.1).map Prod.snd

/-- Whether members give a field: exactly once, or not at all if it may be missing. -/
def Given (s : Slot) (ms : List (String × Json)) (v : Json) : Prop :=
  s.among ms = [v] ∨ s.among ms = [] ∧ s.absent = some v

/-- Whether no key stands for two fields. -/
def Apart (s t : Slot) : Prop := ∀ k, ¬(s.accepts k = true ∧ t.accepts k = true)

variable {s t : Slot} {k : String} {d v : Json} {ms ms' : List (String × Json)}

theorem among_cons_of_accepts (h : s.accepts k = true) (d : Json) (ms : List (String × Json)) :
    s.among ((k, d) :: ms) = d :: s.among ms := by simp [among, h]

theorem among_cons_of_not_accepts (h : s.accepts k = false) (d : Json) (ms : List (String × Json)) :
    s.among ((k, d) :: ms) = s.among ms := by simp [among, h]

theorem apart_of_keys (h : ∀ k ∈ s.key :: s.aliases, t.accepts k = false) : s.Apart t := by
  rintro k ⟨hs, ht⟩
  have hk : k ∈ s.key :: s.aliases := by
    rw [accepts, Bool.or_eq_true, decide_eq_true_eq, List.contains_iff_mem] at hs
    exact List.mem_cons.2 (hs.imp_left Eq.symm)
  cases (h k hk).symm.trans ht

theorem Apart.not_accepts (h : s.Apart t) (hs : s.accepts k = true) : t.accepts k = false :=
  eq_false_of_ne_true fun ht => h k ⟨hs, ht⟩

instance : Std.Symm Apart := ⟨fun _ _ h k hk => h k hk.symm⟩

theorem Given.of_among (h : s.among ms = s.among ms') : s.Given ms v ↔ s.Given ms' v := by rw [Given, Given, h]

theorem Given.of_perm (h : ms.Perm ms') : s.Given ms v ↔ s.Given ms' v := by
  have hperm : (s.among ms).Perm (s.among ms') := (h.filter _).map _
  have hone : s.among ms = [v] ↔ s.among ms' = [v] := by
    rw [← List.perm_singleton, ← List.perm_singleton, hperm.congr_left]
  have hnone : s.among ms = [] ↔ s.among ms' = [] := by
    rw [← List.perm_nil, ← List.perm_nil, hperm.congr_left]
  rw [Given, Given, hone, hnone]

end Slot

/-- Whether a document gives fields: as an object, or as a list of them in their order, the last of which may be
missing. -/
def Gives (slots : List Slot) (vs : List Json) : Json → Prop
  | .obj ms => List.Forall₂ (fun s v => s.Given ms v) slots vs
  | .arr ds => ∃ missing, vs = ds ++ missing ∧ ds.length ≤ slots.length ∧
      List.Forall₂ (fun s v => s.absent = some v) (slots.drop ds.length) missing
  | _ => False

/-- The ways to redraw a descriptor.  They leave out how the value of a field itself may be redrawn. -/
inductive Redraws (slots : List Slot) (Same : Json → Json → Prop) : Json → Json → Prop
  /-- The members are put in another order. -/
  | order {ms ms' : List (String × Json)} (h : ms.Perm ms') : Redraws slots Same (.obj ms) (.obj ms')
  /-- A field is named by another of its keys. -/
  | spelling {s : Slot} (hs : s ∈ slots) {k k' : String} (hk : s.accepts k = true) (hk' : s.accepts k' = true) (d : Json)
    (ms : List (String × Json)) : Redraws slots Same (.obj ((k, d) :: ms)) (.obj ((k', d) :: ms))
  /-- A member is left out that belongs to no field. -/
  | unknown {k : String} (h : ∀ s ∈ slots, s.accepts k = false) (d : Json) (ms : List (String × Json)) :
    Redraws slots Same (.obj ((k, d) :: ms)) (.obj ms)
  /-- A field that is missing is written out. -/
  | missing {s : Slot} (hs : s ∈ slots) {d : Json} (hd : s.absent = some d) {ms : List (String × Json)}
    (h : s.among ms = []) : Redraws slots Same (.obj ms) (.obj ((s.key, d) :: ms))
  /-- The fields, given in their order, are listed. -/
  | listed {ds : List Json} (h : ds.length ≤ slots.length) :
    Redraws slots Same (.obj ((slots.map Slot.key).zip ds)) (.arr ds)
  /-- A value is redrawn. -/
  | inside (k : String) {d d' : Json} (h : Same d d') (ms : List (String × Json)) :
    Redraws slots Same (.obj ((k, d) :: ms)) (.obj ((k, d') :: ms))

section

variable {slots : List Slot} {vs : List Json}

theorem forall₂_of_mem {α β : Type} {R S : α → β → Prop} {as : List α} {bs : List β}
    (h : ∀ a ∈ as, ∀ b, R a b → S a b) (hR : List.Forall₂ R as bs) : List.Forall₂ S as bs := by
  have hmem : List.Forall₂ (fun a b => a ∈ as ∧ R a b) as bs :=
    (List.forall₂_and_left as bs).2 ⟨fun _ ha => ha, hR⟩
  exact hmem.imp fun a b ⟨ha, hab⟩ => h a ha b hab

theorem forall₂_congr_of_mem {α β : Type} {R S : α → β → Prop} {as : List α} {bs : List β}
    (h : ∀ a ∈ as, ∀ b, R a b ↔ S a b) : List.Forall₂ R as bs ↔ List.Forall₂ S as bs :=
  ⟨forall₂_of_mem fun a ha b => (h a ha b).1, forall₂_of_mem fun a ha b => (h a ha b).2⟩

/-- Members of a key that stands for none of the fields do not count. -/
theorem gives_cons_of_unknown {k : String} (h : ∀ s ∈ slots, s.accepts k = false) (d : Json) (ms : List (String × Json)) :
    Gives slots vs (.obj ((k, d) :: ms)) ↔ Gives slots vs (.obj ms) :=
  forall₂_congr_of_mem fun s hs _ => Slot.Given.of_among (Slot.among_cons_of_not_accepts (h s hs) d ms)

/-- Listing the fields changes nothing about them. -/
theorem gives_listed (hslots : slots.Pairwise Slot.Apart) {ds : List Json} (h : ds.length ≤ slots.length) :
    Gives slots vs (.obj ((slots.map Slot.key).zip ds)) ↔ Gives slots vs (.arr ds) := by
  induction slots generalizing ds vs with
  | nil =>
    obtain rfl := List.length_eq_zero_iff.1 (Nat.le_zero.1 h)
    simp [Gives]
  | cons s slots ih =>
    obtain ⟨hs, hslots⟩ := List.pairwise_cons.1 hslots
    cases ds with
    | nil =>
      simp [Gives, Slot.Given, Slot.among]
    | cons d ds =>
      have hrest : ∀ ms, ∀ t ∈ slots, ∀ v, t.Given ((s.key, d) :: ms) v ↔ t.Given ms v := fun ms t ht v =>
        Slot.Given.of_among (Slot.among_cons_of_not_accepts ((hs t ht).not_accepts s.accepts_key) d ms)
      have hnone : s.among ((slots.map Slot.key).zip ds) = [] := by
        refine List.map_eq_nil_iff.2 (List.filter_eq_nil_iff.2 fun m hm haccepts => ?_)
        obtain ⟨t, ht, hkey⟩ := List.mem_map.1 (List.of_mem_zip (a := m.1) (b := m.2) hm).1
        exact hs t ht m.1 ⟨haccepts, hkey ▸ t.accepts_key⟩
      have hfirst (v : Json) : s.Given ((s.key, d) :: (slots.map Slot.key).zip ds) v ↔ d = v := by
        simp [Slot.Given, Slot.among_cons_of_accepts s.accepts_key, hnone]
      have hlist : (vs : List Json) → Gives (s :: slots) vs (.arr (d :: ds)) ↔
          ∃ ws, vs = d :: ws ∧ Gives slots ws (.arr ds) := by
        intro vs
        constructor
        · rintro ⟨missing, rfl, hle, hmissing⟩
          exact ⟨ds ++ missing, rfl, missing, rfl, Nat.le_of_succ_le_succ hle, hmissing⟩
        · rintro ⟨_, rfl, missing, rfl, hle, hmissing⟩
          exact ⟨missing, rfl, Nat.succ_le_succ hle, hmissing⟩
      have hrec : Gives slots vs.tail (.obj ((slots.map Slot.key).zip ds)) ↔ Gives slots vs.tail (.arr ds) :=
        ih hslots (Nat.le_of_succ_le_succ h)
      rw [hlist]
      show List.Forall₂ _ (s :: slots) vs ↔ _
      rw [List.forall₂_cons_left_iff]
      constructor
      · rintro ⟨v, ws, hv, hws, rfl⟩
        obtain rfl := (hfirst v).1 hv
        exact ⟨ws, rfl, hrec.1 (forall₂_of_mem (fun t ht v => (hrest _ t ht v).1) hws)⟩
      · rintro ⟨ws, rfl, hws⟩
        exact ⟨d, ws, (hfirst d).2 rfl, forall₂_of_mem (fun t ht v => (hrest _ t ht v).2) (hrec.2 hws), rfl⟩

/-- A value that is redrawn changes the fields at most at that value. -/
theorem gives_inside (k : String) {d : Json} (d' : Json) {ms : List (String × Json)} (h : Gives slots vs (.obj ((k, d) :: ms))) :
    ∃ vs', Gives slots vs' (.obj ((k, d') :: ms)) ∧ List.Forall₂ (fun v v' => v = v' ∨ v = d ∧ v' = d') vs vs' := by
  have hslot (s : Slot) (v : Json) (hv : s.Given ((k, d) :: ms) v) :
      ∃ v', s.Given ((k, d') :: ms) v' ∧ (v = v' ∨ v = d ∧ v' = d') := by
    cases hk : s.accepts k with
    | false =>
      rw [Slot.Given.of_among (Slot.among_cons_of_not_accepts hk d ms)] at hv
      exact ⟨v, (Slot.Given.of_among (Slot.among_cons_of_not_accepts hk d' ms)).2 hv, .inl rfl⟩
    | true =>
      rw [Slot.Given, Slot.among_cons_of_accepts hk] at hv
      rcases hv with hone | ⟨hnone, -⟩
      · obtain ⟨rfl, hrest⟩ := List.cons.inj hone
        exact ⟨d', .inl (by rw [Slot.among_cons_of_accepts hk, hrest]), .inr ⟨rfl, rfl⟩⟩
      · cases hnone
  induction h with
  | nil => exact ⟨[], .nil, .nil⟩
  | @cons s v slots vs hv _ ih =>
    obtain ⟨v', hv', hsame⟩ := hslot s v hv
    obtain ⟨vs', hvs', hrest⟩ := ih
    exact ⟨v' :: vs', .cons hv' hvs', .cons hsame hrest⟩

variable {Same : Json → Json → Prop} {P : List Json → Prop}

/-- **A descriptor that is redrawn** tells the same if what it tells is told by its fields, and the values of these may be
redrawn. -/
theorem Redraws.iff (hslots : slots.Pairwise Slot.Apart)
    (hP : ∀ vs vs', List.Forall₂ (fun v v' => v = v' ∨ Same v v') vs vs' → (P vs ↔ P vs')) {d d' : Json}
    (h : Redraws slots Same d d') : (∃ vs, Gives slots vs d ∧ P vs) ↔ ∃ vs, Gives slots vs d' ∧ P vs := by
  cases h with
  | order h =>
    exact exists_congr fun vs => and_congr_left' (forall₂_congr_of_mem fun s _ v => Slot.Given.of_perm h)
  | @spelling s hs k k' hk hk' d ms =>
    refine exists_congr fun vs => and_congr_left' (forall₂_congr_of_mem fun t ht v => Slot.Given.of_among ?_)
    by_cases hst : t = s
    · rw [hst, Slot.among_cons_of_accepts hk, Slot.among_cons_of_accepts hk']
    · have hapart := hslots.forall hs ht (Ne.symm hst)
      rw [Slot.among_cons_of_not_accepts (hapart.not_accepts hk), Slot.among_cons_of_not_accepts (hapart.not_accepts hk')]
  | unknown h d ms => exact exists_congr fun vs => and_congr_left' (gives_cons_of_unknown h d ms)
  | @missing s hs d hd ms h =>
    refine exists_congr fun vs => and_congr_left' (forall₂_congr_of_mem fun t ht v => ?_)
    by_cases hst : t = s
    · simp [hst, Slot.Given, h, hd, Slot.among_cons_of_accepts s.accepts_key]
    · have hapart := hslots.forall hs ht (Ne.symm hst)
      exact Slot.Given.of_among (Slot.among_cons_of_not_accepts (hapart.not_accepts s.accepts_key) d ms).symm
  | listed h => exact exists_congr fun vs => and_congr_left' (gives_listed hslots h)
  | @inside k d d' h ms =>
    constructor
    · rintro ⟨vs, hvs, hp⟩
      obtain ⟨vs', hvs', hsame⟩ := gives_inside k d' hvs
      refine ⟨vs', hvs', (hP vs vs' (hsame.imp ?_)).1 hp⟩
      rintro v v' (rfl | ⟨rfl, rfl⟩)
      · exact .inl rfl
      · exact .inr h
    · rintro ⟨vs', hvs', hp⟩
      obtain ⟨vs, hvs, hsame⟩ := gives_inside k d hvs'
      refine ⟨vs, hvs, (hP vs vs' (hsame.flip.imp ?_)).2 hp⟩
      rintro v v' (rfl | ⟨rfl, rfl⟩)
      · exact .inl rfl
      · exact .inr h

/-- Redrawing one way after another changes nothing either. -/
theorem redrawn_iff (hslots : slots.Pairwise Slot.Apart)
    (hP : ∀ vs vs', List.Forall₂ (fun v v' => v = v' ∨ Same v v') vs vs' → (P vs ↔ P vs')) {d d' : Json}
    (h : Relation.EqvGen (Redraws slots Same) d d') :
    (∃ vs, Gives slots vs d ∧ P vs) ↔ ∃ vs, Gives slots vs d' ∧ P vs := by
  induction h with
  | rel d d' h => exact h.iff hslots hP
  | refl d => exact Iff.rfl
  | symm d d' _ ih => exact ih.symm
  | trans d d' d'' _ _ ih ih' => exact ih.trans ih'

end

/-! ## Structures that are read -/

/-- A field of a structure and what it is about. -/
structure Column (σ : Type) where
  field : Field σ
  /-- What the field holds where it is missing, unless it must be given. -/
  absent : Option Json
  Part : Type
  get : σ → Part
  set : Part → σ → σ
  /-- Whether a document tells a part. -/
  Tells : Json → Part → Prop

namespace Column

variable {σ : Type}

/-- The field of a descriptor. -/
def slot (c : Column σ) : Slot := ⟨c.field.name, c.field.aliases, c.absent⟩

theorem accepts_slot (c : Column σ) (key : String) : c.slot.accepts key = c.field.accepts key := rfl

/-- Whether two fields are about different parts of a structure, and no key stands for both. -/
structure Apart (a b : Column σ) : Prop where
  left : ∀ v st, a.get (b.set v st) = a.get st
  right : ∀ v st, b.get (a.set v st) = b.get st
  slot : a.slot.Apart b.slot

instance : Std.Symm (Apart (σ := σ)) := ⟨fun _ _ h => ⟨h.right, h.left, fun k hk => h.slot k hk.symm⟩⟩

theorem Apart.name_ne {a b : Column σ} (h : a.Apart b) : a.field.name ≠ b.field.name := by
  intro heq
  exact h.slot a.field.name ⟨a.slot.accepts_key, by rw [heq]; exact b.slot.accepts_key⟩

/-- Whether columns say all about the structures that are built from one. -/
structure Cover (depth : Nat) (start : σ) (cs : List (Column σ)) : Prop where
  /-- A field takes the part that its value tells into a structure. -/
  reads : ∀ c ∈ cs, ∀ t d, t.written depth = .ok d → ∀ st st',
    c.field.read t st = .ok st' ↔ ∃ v, c.Tells d v ∧ st' = c.set v st
  get_set : ∀ c ∈ cs, ∀ v st, c.get (c.set v st) = v
  apart : cs.Pairwise Apart
  ext : ∀ st st', (∀ c ∈ cs, c.get st = c.get st') → st = st'
  /-- A field that is missing leaves its part as it is at the start. -/
  absent : ∀ c ∈ cs, ∀ d, c.absent = some d → ∀ v, c.Tells d v ↔ v = c.get start

end Column

section

variable {σ Part : Type} {t : Tree} {d : Json}

/-- The column of a part that is read by itself. -/
def Column.ofPart (name : String) (aliases : List String) (absent : Option Json) (read : Tree → Except Fault Part)
    (get : σ → Part) (set : Part → σ → σ) (Tells : Json → Part → Prop) : Column σ where
  field := ⟨name, aliases, fun t st => do return set (← read t) st⟩
  absent := absent
  Part := Part
  get := get
  set := set
  Tells := Tells

theorem Column.read_ofPart {read : Tree → Except Fault Part} {Tells : Json → Part → Prop}
    (h : ∀ v, read t = .ok v ↔ Tells d v) (name : String) (aliases : List String) (absent : Option Json) (get : σ → Part)
    (set : Part → σ → σ) (st st' : σ) : (ofPart name aliases absent read get set Tells).field.read t st = .ok st' ↔
      ∃ v, Tells d v ∧ st' = set v st := by
  show (read t >>= fun v => Except.ok (set v st)) = .ok st' ↔ _
  rw [bind_eq_ok]
  refine exists_congr fun v => and_congr (h v) ?_
  rw [Except.ok.injEq, eq_comm]

end

section

variable {σ : Type} {depth : Nat} {start st st' : σ} {cs : List (Column σ)}

/-- Whether members take a structure to another at a column, the fields seen before being told. -/
def Column.Takes (c : Column σ) (seen : List String) (ms : List (String × Json)) (st st' : σ) : Prop :=
  c.slot.among ms = [] ∧ c.get st' = c.get st ∨
    c.field.name ∉ seen ∧ ∃ d, c.slot.among ms = [d] ∧ c.Tells d (c.get st')

theorem Members.fields_unknown {fs : List (Field σ)} {k : String} (hf : fs.find? (·.accepts k) = none) (settled : Spot)
    {v : Tree} (hv : v.skip = .ok ()) (rest : Members) (st : σ) (seen : List String) :
    (Members.member (.ok k) settled v rest).fields fs st seen = rest.fields fs st seen := by
  rw [Members.fields]
  simp only [bind, Except.bind, hf, hv]

theorem Members.fields_seen {fs : List (Field σ)} {k : String} {f : Field σ} (hf : fs.find? (·.accepts k) = some f)
    (settled : Spot) (v : Tree) (rest : Members) (st : σ) {seen : List String} (hseen : seen.contains f.name = true) :
    (Members.member (.ok k) settled v rest).fields fs st seen = .error ⟨.duplicateField f.name, settled⟩ := by
  rw [Members.fields]
  simp only [bind, Except.bind, hf, hseen]
  rfl

namespace Column.Cover

variable {k : String} {d : Json} {ms : List (String × Json)} {c : Column σ} {seen : List String}

/-- A key stands for one field only. -/
theorem apart_of_accepts (hcs : Cover depth start cs) (hc : c ∈ cs) (hk : c.slot.accepts k = true) (d : Json)
    (ms : List (String × Json)) {c' : Column σ} (hc' : c' ∈ cs) (hne : c' ≠ c) :
    c.Apart c' ∧ c'.slot.among ((k, d) :: ms) = c'.slot.among ms := by
  have hapart : c.Apart c' := hcs.apart.forall hc hc' (Ne.symm hne)
  exact ⟨hapart, Slot.among_cons_of_not_accepts (hapart.slot.not_accepts hk) d ms⟩

/-- A member takes the part that it tells, and the others go on from there. -/
theorem takes_cons (hcs : Cover depth start cs) (hc : c ∈ cs) (hk : c.slot.accepts k = true)
    (hnew : c.field.name ∉ seen) : (∀ c' ∈ cs, c'.Takes seen ((k, d) :: ms) st st') ↔
      ∃ p, c.Tells d p ∧ ∀ c' ∈ cs, c'.Takes (c.field.name :: seen) ms (c.set p st) st' := by
  have hown : c.slot.among ((k, d) :: ms) = d :: c.slot.among ms := Slot.among_cons_of_accepts hk d ms
  have hothers : ∀ c' ∈ cs, c' ≠ c → ∀ p, c'.Takes seen ((k, d) :: ms) st st' ↔
      c'.Takes (c.field.name :: seen) ms (c.set p st) st' := by
    intro c' hc' hne p
    obtain ⟨hapart, hsame⟩ := hcs.apart_of_accepts hc hk d ms hc' hne
    rw [Takes, Takes, hsame, hapart.right, List.mem_cons, or_iff_right hapart.name_ne.symm]
  constructor
  · intro h
    rcases h c hc with ⟨hnone, -⟩ | ⟨-, d', hone, htells⟩
    · cases hown.symm.trans hnone
    obtain ⟨rfl, hnone⟩ := List.cons.inj (hown.symm.trans hone)
    refine ⟨c.get st', htells, fun c' hc' => ?_⟩
    by_cases heq : c' = c
    · subst heq
      exact .inl ⟨hnone, (hcs.get_set c' hc' _ _).symm⟩
    · exact (hothers c' hc' heq _).1 (h c' hc')
  · rintro ⟨p, hp, h⟩ c' hc'
    by_cases heq : c' = c
    · subst heq
      rcases h c' hc' with ⟨hnone, hget⟩ | ⟨hnot, -⟩
      · rw [hcs.get_set c' hc'] at hget
        exact .inr ⟨hnew, d, by rw [hown, hnone], hget ▸ hp⟩
      · exact absurd (List.mem_cons_self ..) hnot
    · exact (hothers c' hc' heq p).2 (h c' hc')

/-- The names that are seen behind a member. -/
theorem seen_cons (hcs : Cover depth start cs) (hc : c ∈ cs) (hk : c.slot.accepts k = true) {c' : Column σ}
    (hc' : c' ∈ cs) : (c'.field.name ∈ seen ∨ c'.slot.among ((k, d) :: ms) ≠ []) ↔
      (c'.field.name ∈ c.field.name :: seen ∨ c'.slot.among ms ≠ []) := by
  by_cases heq : c' = c
  · rw [heq, Slot.among_cons_of_accepts hk]
    simp
  · obtain ⟨hapart, hsame⟩ := hcs.apart_of_accepts hc hk d ms hc' heq
    rw [hsame, List.mem_cons, or_iff_right hapart.name_ne.symm]

/-- **Members are taken** if each column is told once at most, and not if its field was seen before. -/
theorem fields_iff (hcs : Cover depth start cs) {members : Members} {ms : List (String × Json)}
    (hms : members.written depth = .ok ms) (seen : List String) (st st' : σ) :
    ((∃ r, members.fields (cs.map Column.field) st seen = .ok r ∧ r.1 = st') ↔ ∀ c ∈ cs, c.Takes seen ms st st') ∧
      ∀ r, members.fields (cs.map Column.field) st seen = .ok r →
        ∀ c ∈ cs, c.field.name ∈ r.2.1 ↔ c.field.name ∈ seen ∨ c.slot.among ms ≠ [] := by
  match members with
  | .close stop =>
    obtain rfl : [] = ms := Except.ok.inj hms
    refine ⟨⟨?_, fun h => ⟨_, rfl, hcs.ext st st' fun c hc => ?_⟩⟩, fun r hr c _ => ?_⟩
    · rintro ⟨r, hr, rfl⟩ c -
      obtain rfl := Except.ok.inj hr
      exact .inl ⟨rfl, rfl⟩
    · rcases h c hc with ⟨-, heq⟩ | ⟨-, d, hd, -⟩
      · exact heq.symm
      · cases hd
    · obtain rfl := Except.ok.inj hr
      simp [Slot.among]
  | .member key settled v rest =>
    obtain ⟨k, d, ms, rfl, hd, hbehind, rfl⟩ := Members.written_member_eq_ok.1 hms
    cases hfind : cs.find? (·.field.accepts k) with
    | none =>
      have hf : (cs.map Column.field).find? (·.accepts k) = none := by
        rw [List.find?_map]
        exact Option.map_eq_none_iff.2 hfind
      have hsame : ∀ c ∈ cs, c.slot.among ((k, d) :: ms) = c.slot.among ms := by
        intro c hc
        have hk : ¬c.field.accepts k = true := List.find?_eq_none.1 hfind c hc
        exact Slot.among_cons_of_not_accepts ((c.accepts_slot k).trans (eq_false_of_ne_true hk)) d ms
      obtain ⟨hiff, hnames⟩ := fields_iff hcs hbehind seen st st'
      rw [Members.fields_unknown hf settled (Tree.skip_of_written v hd)]
      refine ⟨hiff.trans (forall₂_congr fun c hc => ?_), fun r hr c hc => ?_⟩
      · rw [Takes, Takes, hsame c hc]
      · rw [hnames r hr c hc, hsame c hc]
    | some c =>
      have hc : c ∈ cs := List.mem_of_find?_eq_some hfind
      have hk : c.slot.accepts k = true := (c.accepts_slot k).trans (by simpa using List.find?_some hfind)
      have hf : (cs.map Column.field).find? (·.accepts k) = some c.field := by
        rw [List.find?_map]
        exact Option.map_eq_some_iff.2 ⟨c, hfind, rfl⟩
      by_cases hseen : c.field.name ∈ seen
      · rw [Members.fields_seen hf settled v rest st (by simpa using hseen)]
        refine ⟨iff_of_false (fun ⟨r, hr, _⟩ => nomatch hr) fun h => ?_, fun r hr => nomatch hr⟩
        rcases h c hc with ⟨hnone, -⟩ | ⟨hnew, -⟩
        · cases (Slot.among_cons_of_accepts hk d ms).symm.trans hnone
        · exact hnew hseen
      · have ih (st₁ : σ) := fields_iff hcs hbehind (c.field.name :: seen) st₁ st'
        rw [fields_member hf settled v rest st (by simpa using hseen), hcs.takes_cons hc hk hseen]
        refine ⟨⟨?_, ?_⟩, fun r hr c' hc' => ?_⟩
        · rintro ⟨r, hr, hst⟩
          obtain ⟨st₁, hread, hrest⟩ := bind_eq_ok.1 hr
          obtain ⟨p, hp, rfl⟩ := (hcs.reads c hc v d hd st st₁).1 hread
          exact ⟨p, hp, (ih _).1.1 ⟨r, hrest, hst⟩⟩
        · rintro ⟨p, hp, h⟩
          obtain ⟨r, hr, hst⟩ := (ih _).1.2 h
          exact ⟨r, bind_eq_ok.2 ⟨_, (hcs.reads c hc v d hd st _).2 ⟨p, hp, rfl⟩, hr⟩, hst⟩
        · obtain ⟨st₁, -, hrest⟩ := bind_eq_ok.1 hr
          exact ((ih st₁).2 r hrest c' hc').trans (hcs.seen_cons hc hk hc').symm
  | .stopped _ _ => cases hms

/-- All items are counted. -/
theorem itemsFields_count {fs : List (Field σ)} {st : σ} {items : Items} {ds : List Json} (hds : items.written depth = .ok ds)
    {n : Nat} {r : σ × Nat × Spot} (h : items.fields fs st n = .ok r) : r.2.1 = n + ds.length := by
  match items with
  | .close stop =>
    obtain rfl : [] = ds := Except.ok.inj hds
    have hclose : Items.fields fs (.close stop) st n = .ok (st, n, stop) := by
      cases fs <;> rfl
    obtain rfl := Except.ok.inj (hclose.symm.trans h)
    rfl
  | .item here v rest =>
    obtain ⟨d, ds, -, hbehind, rfl⟩ := Items.written_item_eq_ok.1 hds
    cases fs with
    | nil => cases h
    | cons f fs =>
      obtain ⟨st₁, -, hrest⟩ := bind_eq_ok.1 h
      rw [itemsFields_count hbehind hrest, List.length_cons]
      omega
  | .stopped _ _ => cases hds

/-- **Items are taken** one by one for the fields behind those that are done, and the others keep their parts. -/
theorem itemsFields_iff {before after : List (Column σ)} (hcs : Cover depth start (before ++ after)) {items : Items}
    {ds : List Json} (hds : items.written depth = .ok ds) (n : Nat) (st st' : σ) :
    (∃ r, items.fields (after.map Column.field) st n = .ok r ∧ r.1 = st') ↔
      ds.length ≤ after.length ∧ List.Forall₂ (fun c d => c.Tells d (c.get st')) (after.take ds.length) ds ∧
        ∀ c, c ∈ before ∨ c ∈ after.drop ds.length → c.get st' = c.get st := by
  match items with
  | .close stop =>
    obtain rfl : [] = ds := Except.ok.inj hds
    have hclose : Items.fields (after.map Column.field) (.close stop) st n = .ok (st, n, stop) := by
      cases after <;> rfl
    rw [hclose]
    constructor
    · rintro ⟨r, hr, rfl⟩
      obtain rfl := Except.ok.inj hr
      exact ⟨Nat.zero_le _, .nil, fun _ _ => rfl⟩
    · rintro ⟨-, -, h⟩
      refine ⟨_, rfl, hcs.ext st st' fun c hc => ?_⟩
      exact (h c (List.mem_append.1 hc)).symm
  | .item here v rest =>
    obtain ⟨d, ds, hd, hbehind, rfl⟩ := Items.written_item_eq_ok.1 hds
    cases after with
    | nil => exact iff_of_false (fun ⟨r, hr, _⟩ => nomatch hr) fun h => absurd h.1 (Nat.not_succ_le_zero _)
    | cons c after =>
      have hc : c ∈ before ++ c :: after := by simp
      have hmoved : Cover depth start ((before ++ [c]) ++ after) := by simpa using hcs
      have ih (st₁ : σ) : (∃ r, rest.fields (after.map Column.field) st₁ (n + 1) = .ok r ∧ r.1 = st') ↔ _ :=
        itemsFields_iff hmoved hbehind (n + 1) st₁ st'
      have hothers : ∀ c', c' ∈ before ∨ c' ∈ after → ∀ p, c'.get (c.set p st) = c'.get st := by
        intro c' hc' p
        obtain ⟨-, hafter, hbefore⟩ := List.pairwise_append.1 hcs.apart
        rcases hc' with hc' | hc'
        · exact (hbefore c' hc' c (List.mem_cons_self ..)).left p st
        · exact ((List.pairwise_cons.1 hafter).1 c' hc').right p st
      constructor
      · rintro ⟨r, hr, hst⟩
        obtain ⟨st₁, hread, hrest⟩ := bind_eq_ok.1 hr
        obtain ⟨p, hp, rfl⟩ := (hcs.reads c hc v d hd st st₁).1 hread
        obtain ⟨hle, htells, hsame⟩ := (ih (c.set p st)).1 ⟨r, hrest, hst⟩
        have hget : c.get st' = p := (hsame c (.inl (by simp))).trans (hcs.get_set c hc p st)
        refine ⟨Nat.succ_le_succ hle, .cons (hget ▸ hp) htells, fun c' hc' => ?_⟩
        rcases hc' with hbefore | hafter
        · rw [hsame c' (.inl (List.mem_append_left _ hbefore)), hothers c' (.inl hbefore)]
        · rw [hsame c' (.inr hafter), hothers c' (.inr (List.mem_of_mem_drop hafter))]
      · rintro ⟨hle, htells, hsame⟩
        obtain ⟨hp, htells⟩ := List.forall₂_cons.1 htells
        obtain ⟨r, hr, hst⟩ := (ih (c.set (c.get st') st)).2 ⟨Nat.le_of_succ_le_succ hle, htells, fun c' hc' => by
          rcases hc' with hbefore | hafter
          · rcases List.mem_append.1 hbefore with hbefore | hlast
            · rw [hothers c' (.inl hbefore), hsame c' (.inl hbefore)]
            · rw [List.mem_singleton.1 hlast, hcs.get_set c hc]
          · rw [hothers c' (.inr (List.mem_of_mem_drop hafter)), hsame c' (.inr hafter)]⟩
        exact ⟨r, bind_eq_ok.2 ⟨_, (hcs.reads c hc v d hd st _).2 ⟨_, hp, rfl⟩, hr⟩, hst⟩
  | .stopped _ _ => cases hds

/-- A field is given and told if the members take the start to its part, and it is among them if it must be given. -/
theorem given_iff (hcs : Cover depth start cs) (hc : c ∈ cs) : (∃ v, c.slot.Given ms v ∧ c.Tells v (c.get st)) ↔
    c.Takes [] ms start st ∧ (c.absent = none → c.slot.among ms ≠ []) := by
  constructor
  · rintro ⟨v, hone | ⟨hnone, habsent⟩, htells⟩
    · refine ⟨.inr ⟨List.not_mem_nil, v, hone, htells⟩, fun _ hnone => ?_⟩
      cases hone.symm.trans hnone
    · refine ⟨.inl ⟨hnone, (hcs.absent c hc v habsent _).1 htells⟩, fun hmust => ?_⟩
      cases hmust.symm.trans habsent
  · rintro ⟨⟨hnone, hget⟩ | ⟨-, d, hone, htells⟩, hmust⟩
    · cases habsent : c.absent with
      | none => exact absurd hnone (hmust habsent)
      | some v => exact ⟨v, .inr ⟨hnone, habsent⟩, (hcs.absent c hc v habsent _).2 hget⟩
    · exact ⟨d, .inl hone, htells⟩

end Column.Cover

theorem exists_forall₂ {α : Type*} {β : Type*} {R S : α → β → Prop} {as : List α} :
    (∃ bs, List.Forall₂ R as bs ∧ List.Forall₂ S as bs) ↔ ∀ a ∈ as, ∃ b, R a b ∧ S a b := by
  induction as with
  | nil => simp
  | cons a as ih =>
    rw [List.forall_mem_cons, ← ih]
    constructor
    · rintro ⟨_, hR, hS⟩
      obtain ⟨b, bs, hb, hbs, rfl⟩ := List.forall₂_cons_left_iff.1 hR
      obtain ⟨hb', hbs'⟩ := List.forall₂_cons.1 hS
      exact ⟨⟨b, hb, hb'⟩, bs, hbs, hbs'⟩
    · rintro ⟨⟨b, hb, hb'⟩, bs, hbs, hbs'⟩
      exact ⟨b :: bs, .cons hb hbs, .cons hb' hbs'⟩

/-- Whether a document gives fields that tell the parts of a structure. -/
def Column.Describes (cs : List (Column σ)) (d : Json) (st : σ) : Prop :=
  ∃ vs, Gives (cs.map Column.slot) vs d ∧ List.Forall₂ (fun c v => c.Tells v (c.get st)) cs vs

/-- A descriptor that is redrawn describes the same if the values of its fields are redrawn into such that tell the
same. -/
theorem Column.Cover.describes_redrawn (hcs : Column.Cover depth start cs) {Same : Json → Json → Prop}
    (hsame : ∀ c ∈ cs, ∀ v v', Same v v' → ∀ p, c.Tells v p ↔ c.Tells v' p) {d d' : Json}
    (h : Relation.EqvGen (Redraws (cs.map Column.slot) Same) d d') :
    Column.Describes cs d st ↔ Column.Describes cs d' st := by
  refine redrawn_iff (List.pairwise_map.2 (hcs.apart.imp Column.Apart.slot)) (fun vs vs' hvs => ?_) h
  have htells : ∀ {cs' : List (Column σ)}, (∀ c ∈ cs', c ∈ cs) →
      (List.Forall₂ (fun c v => c.Tells v (c.get st)) cs' vs ↔ List.Forall₂ (fun c v => c.Tells v (c.get st)) cs' vs') := by
    induction hvs with
    | nil =>
      intro cs' _
      exact Iff.rfl
    | @cons v v' vs vs' hv _ ih =>
      intro cs' hcs'
      cases cs' with
      | nil => simp
      | cons c cs' =>
        obtain ⟨hc, hcs'⟩ := List.forall_mem_cons.1 hcs'
        rw [List.forall₂_cons, List.forall₂_cons, ih hcs']
        refine and_congr_left' ?_
        rcases hv with rfl | hv
        · exact Iff.rfl
        · exact hsame c hc v v' hv _
  exact htells fun _ => id

variable {c : Column σ} {others : List (Column σ)} {make : Nat → List (Field σ)} (title : String) (here : Spot)

/-- A structure written as an object. -/
theorem structure_record_iff (hcs : Column.Cover depth start (c :: others)) (hc : c.absent = none)
    (hothers : ∀ c' ∈ others, c'.absent ≠ none) (hmake : make depth = (c :: others).map Column.field) {members : Members}
    {ms : List (String × Json)} (hms : members.written depth = .ok ms) :
    (Tree.record here members).structure title 1 (depth + 1) make start = .ok st ↔
      Column.Describes (c :: others) (.obj ms) st := by
  have hwalk : (Tree.record here members).structure title 1 (depth + 1) make start =
      members.fields ((c :: others).map Column.field) start [] >>= closed ((c :: others).map Column.field) 1 := by
    rw [← hmake]
    rfl
  obtain ⟨hfields, hnames⟩ := hcs.fields_iff hms [] start st
  have hdescribes : Column.Describes (c :: others) (.obj ms) st ↔
      (∀ c' ∈ c :: others, c'.Takes [] ms start st) ∧ c.slot.among ms ≠ [] := by
    have hgiven : Column.Describes (c :: others) (.obj ms) st ↔
        ∀ c' ∈ c :: others, ∃ v, c'.slot.Given ms v ∧ c'.Tells v (c'.get st) := by
      refine Iff.trans (exists_congr fun vs => and_congr_left' List.forall₂_map_left_iff) exists_forall₂
    rw [hgiven]
    constructor
    · intro h
      exact ⟨fun c' hc' => ((hcs.given_iff hc').1 (h c' hc')).1,
        ((hcs.given_iff (List.mem_cons_self ..)).1 (h c (List.mem_cons_self ..))).2 hc⟩
    · rintro ⟨htakes, hfirst⟩ c' hc'
      refine (hcs.given_iff hc').2 ⟨htakes c' hc', fun hmust => ?_⟩
      rcases List.mem_cons.1 hc' with rfl | hc'
      · exact hfirst
      · exact absurd hmust (hothers c' hc')
  have hclosed (r : σ × List String × Spot) :
      closed ((c :: others).map Column.field) 1 r = .ok st ↔ c.field.name ∈ r.2.1 ∧ r.1 = st := by
    by_cases hseen : c.field.name ∈ r.2.1 <;> simp [closed, hseen]
  rw [hwalk, bind_eq_ok, hdescribes, ← hfields]
  constructor
  · rintro ⟨r, hr, hst⟩
    obtain ⟨hseen, hst⟩ := (hclosed r).1 hst
    exact ⟨⟨r, hr, hst⟩, ((hnames r hr c (List.mem_cons_self ..)).1 hseen).resolve_left List.not_mem_nil⟩
  · rintro ⟨⟨r, hr, hst⟩, hfirst⟩
    exact ⟨r, hr, (hclosed r).2 ⟨(hnames r hr c (List.mem_cons_self ..)).2 (.inr hfirst), hst⟩⟩

/-- A structure written as a list. -/
theorem structure_list_iff (hcs : Column.Cover depth start (c :: others)) (hc : c.absent = none)
    (hothers : ∀ c' ∈ others, c'.absent ≠ none) (hmake : make depth = (c :: others).map Column.field) {items : Items}
    {ds : List Json} (hds : items.written depth = .ok ds) :
    (Tree.list here items).structure title 1 (depth + 1) make start = .ok st ↔
      Column.Describes (c :: others) (.arr ds) st := by
  have hall : Column.Cover depth start ([] ++ c :: others) := hcs
  have hitems := hall.itemsFields_iff hds 0 start st
  have hwalk : (Tree.list here items).structure title 1 (depth + 1) make start = .ok st ↔
      0 < ds.length ∧ ∃ r, items.fields ((c :: others).map Column.field) start 0 = .ok r ∧ r.1 = st := by
    have hbind : (Tree.list here items).structure title 1 (depth + 1) make start =
        items.fields (make depth) start 0 >>= fun r => if r.2.1 < 1 then
          .error ⟨.invalidLength r.2.1 ("struct " ++ title ++ " with " ++ toString (make depth).length ++ " elements"), r.2.2⟩
        else .ok r.1 := rfl
    rw [hbind, bind_eq_ok, hmake]
    constructor
    · rintro ⟨r, hr, hst⟩
      have hcount := Column.Cover.itemsFields_count hds hr
      split at hst
      · cases hst
      · exact ⟨by omega, r, hr, Except.ok.inj hst⟩
    · rintro ⟨hpos, r, hr, hst⟩
      have hcount := Column.Cover.itemsFields_count hds hr
      exact ⟨r, hr, by rw [if_neg (by omega), hst]⟩
  have hbehind : 0 < ds.length → ∀ c' ∈ (c :: others).drop ds.length, c'.absent ≠ none := by
    intro hpos c' hc'
    obtain ⟨n, hn⟩ := Nat.exists_eq_succ_of_ne_zero hpos.ne'
    rw [hn, List.drop_succ_cons] at hc'
    exact hothers c' (List.mem_of_mem_drop hc')
  rw [hwalk, hitems]
  constructor
  · rintro ⟨hpos, hle, htells, hsame⟩
    obtain ⟨missing, habsent, hmissing⟩ : ∃ missing, List.Forall₂ (fun c v => c.absent = some v)
        ((c :: others).drop ds.length) missing ∧
        List.Forall₂ (fun c v => c.Tells v (c.get st)) ((c :: others).drop ds.length) missing := by
      refine exists_forall₂.2 fun c' hc' => ?_
      obtain ⟨v, hv⟩ := Option.ne_none_iff_exists'.1 (hbehind hpos c' hc')
      exact ⟨v, hv, (hcs.absent c' (List.mem_of_mem_drop hc') v hv _).2 (hsame c' (.inr hc'))⟩
    refine ⟨ds ++ missing, ⟨missing, rfl, by simpa using hle, ?_⟩, ?_⟩
    · rw [← List.map_drop]
      exact List.forall₂_map_left_iff.2 habsent
    · rw [← List.take_append_drop ds.length (c :: others)]
      exact List.rel_append htells hmissing
  · rintro ⟨_, ⟨missing, rfl, hle, habsent⟩, htells⟩
    have hpos : 0 < ds.length := by
      refine List.length_pos_iff.2 fun hnil => ?_
      obtain ⟨v, vs, hv, -, -⟩ := List.forall₂_cons_left_iff.1 (hnil ▸ habsent)
      cases hc.symm.trans hv
    refine ⟨hpos, by simpa using hle, List.forall₂_take_append _ _ _ htells, fun c' hc' => ?_⟩
    rw [← List.map_drop, List.forall₂_map_left_iff] at habsent
    replace hc' := hc'.resolve_left List.not_mem_nil
    obtain ⟨v, hv, hc'v⟩ := exists_forall₂.1 ⟨missing, habsent, List.forall₂_drop_append _ _ _ htells⟩ c' hc'
    exact (hcs.absent c' (List.mem_of_mem_drop hc') v hv _).1 hc'v

/-- **A structure is read** of the documents that describe it, if its first field must be given and no other. -/
theorem structure_iff {k : Nat} (hcs : Column.Cover (k - 1) start (c :: others)) (hc : c.absent = none)
    (hothers : ∀ c' ∈ others, c'.absent ≠ none) (hmake : make (k - 1) = (c :: others).map Column.field) {t : Tree}
    {d : Json} (hd : t.written k = .ok d) :
    t.structure title 1 k make start = .ok st ↔ Column.Describes (c :: others) d st := by
  have hother (hshape : ∀ vs, ¬Gives ((c :: others).map Column.slot) vs d) {f : Fault}
      (hwalk : t.structure title 1 k make start = .error f) :
      t.structure title 1 k make start = .ok st ↔ Column.Describes (c :: others) d st := by
    rw [hwalk]
    exact iff_of_false (fun h => nomatch h) fun ⟨vs, hvs, _⟩ => hshape vs hvs
  cases t with
  | null stop =>
    obtain rfl := Except.ok.inj hd
    exact hother (fun _ => id) rfl
  | bool b stop =>
    obtain rfl := Except.ok.inj hd
    exact hother (fun _ => id) rfl
  | number n stop =>
    obtain ⟨x, -, rfl⟩ := map_eq_ok_iff.1 hd
    exact hother (fun _ => id) rfl
  | text content stop =>
    obtain ⟨s, -, rfl⟩ := map_eq_ok_iff.1 hd
    exact hother (fun _ => id) rfl
  | list here items =>
    obtain ⟨hpos, ds, hds, rfl⟩ := Tree.written_list_eq_ok.1 hd
    obtain ⟨depth, rfl⟩ := Nat.exists_eq_add_of_lt hpos
    exact structure_list_iff title here hcs hc hothers hmake hds
  | record here members =>
    obtain ⟨hpos, ms, hms, rfl⟩ := Tree.written_record_eq_ok.1 hd
    obtain ⟨depth, rfl⟩ := Nat.exists_eq_add_of_lt hpos
    exact structure_record_iff title here hcs hc hothers hmake hms
  | broken f stop => cases hd

end

end Json
end ArmPilot
