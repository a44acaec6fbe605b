import Mathlib
import ArmPilot.Proofs.Json.Reading

/-!
# What a written value is read as

Integers, strings and the order of items and members survive writing and reading.  A double does if its shortest digits
are read as the same double; the reader rounds twice, so that for some they are not.
-/

namespace ArmPilot
namespace Json

/-! ## Reading again -/

/-- What a written number is read as. -/
def Number.reread (n : Number) : Except Problem Number := n.numeral.value.mapError fun _ => .numberOutOfRange

mutual

/-- What a written value is read as. -/
def reread : Json → Except Problem Json
  | .null => .ok .null
  | .bool b => .ok (.bool b)
  | .num n => n.reread.map .num
  | .str s => .ok (.str s)
  | .arr vs => (rereadItems vs).map .arr
  | .obj ms => (rereadMembers ms).map .obj

/-- What the items of a written list are read as. -/
def rereadItems : List Json → Except Problem (List Json)
  | [] => .ok []
  | v :: vs => do
    let head ← v.reread
    let tail ← rereadItems vs
    return head :: tail

/-- What the members of a written object are read as. -/
def rereadMembers : List (String × Json) → Except Problem (List (String × Json))
  | [] => .ok []
  | (k, v) :: ms => do
    let head ← v.reread
    let tail ← rereadMembers ms
    return (k, head) :: tail

end

mutual

/-- The doubles of a value. -/
def reals : Json → List Float
  | .null => []
  | .bool _ => []
  | .num (.int _) => []
  | .num (.real x) => [x]
  | .str _ => []
  | .arr vs => realsOfItems vs
  | .obj ms => realsOfMembers ms

/-- The doubles of the items of a list. -/
def realsOfItems : List Json → List Float
  | [] => []
  | v :: vs => v.reals ++ realsOfItems vs

/-- The doubles of the members of an object. -/
def realsOfMembers : List (String × Json) → List Float
  | [] => []
  | (_, v) :: ms => v.reals ++ realsOfMembers ms

end

/-- A value that a document can hold with at most so many brackets open at once: its numbers can be held, and the members
of an object stand in the order of their keys. -/
inductive Storable : Nat → Json → Prop
  | null {depth : Nat} : Storable depth .null
  | bool {depth : Nat} (b : Bool) : Storable depth (.bool b)
  | num {depth : Nat} {n : Number} (h : n.Valid) : Storable depth (.num n)
  | str {depth : Nat} (s : String) : Storable depth (.str s)
  | arr {depth : Nat} {vs : List Json} (h : ∀ v ∈ vs, Storable depth v) : Storable (depth + 1) (.arr vs)
  | obj {depth : Nat} {ms : List (String × Json)} (sorted : ms.Pairwise (·.1 < ·.1))
    (h : ∀ m ∈ ms, Storable depth m.2) : Storable (depth + 1) (.obj ms)

theorem Storable.writable {depth : Nat} {v : Json} (h : Storable depth v) : Writable v := by
  induction h with
  | null => exact .null
  | bool b => exact .bool b
  | num h => exact .num h
  | str s => exact .str s
  | arr _ ih => exact .arr ih
  | obj _ _ ih => exact .obj ih

/-! ## The value of a tree -/

section

variable {ε φ α β : Type}

theorem mapError_bind (f : ε → φ) (x : Except ε α) (k : α → Except ε β) :
    (x >>= k).mapError f = x.mapError f >>= fun a => (k a).mapError f := by
  cases x <;> rfl

theorem mapError_map (f : ε → φ) (g : α → β) (x : Except ε α) : (x.map g).mapError f = (x.mapError f).map g := by
  cases x <;> rfl

theorem mapError_eq_ok {f : ε → φ} {x : Except ε α} {a : α} : x.mapError f = .ok a ↔ x = .ok a := by
  cases x <;> simp [Except.mapError]

theorem map_eq_ok {f : α → β} (hf : Function.Injective f) {x : Except ε α} {a : α} :
    x.map f = .ok (f a) ↔ x = .ok a := by
  cases x <;> simp [Except.map, hf.eq_iff]

end

/-- The outcome of a walk but for the spot of a fault. -/
def outcome {α : Type} (x : Except Fault α) : Except Problem α := x.mapError (·.problem)

theorem outcome_bind {α β : Type} (x : Except Fault α) (k : α → Except Fault β) :
    outcome (x >>= k) = outcome x >>= fun a => outcome (k a) := mapError_bind _ x k

theorem outcome_map {α β : Type} (g : α → β) (x : Except Fault α) : outcome (x.map g) = (outcome x).map g :=
  mapError_map _ g x

/-- The walk over a numeral gives the value of the numeral. -/
theorem outcome_numberAt (n : Number) (stop : Spot) : outcome (numberAt n.numeral stop) = n.reread := by
  unfold numberAt Number.reread
  cases n.numeral.value <;> rfl

/-- A member whose key is the greatest so far comes last. -/
theorem insert_of_lt {α : Type} {key : String} {value : α} {ms : List (String × α)} (h : ∀ m ∈ ms, m.1 < key) :
    insert key value ms = ms ++ [(key, value)] := by
  induction ms with
  | nil => rfl
  | cons m ms ih =>
    obtain ⟨k, v⟩ := m
    have hk : k < key := h (k, v) List.mem_cons_self
    rw [insert, if_neg (lt_asymm hk), if_neg hk.ne', ih fun m hm => h m (List.mem_cons_of_mem _ hm)]
    rfl

theorem outcome_itemsValues {depth : Nat} {vs : List Json}
    (h : ∀ v ∈ vs, ∀ t : Tree, t.Spells v → outcome (t.value depth) = v.reread) {items : Items} (hitems : items.Spells vs) :
    outcome (items.values depth) = rereadItems vs := by
  induction vs generalizing items with
  | nil =>
    cases hitems
    rfl
  | cons v vs ih =>
    cases hitems with
    | item start head tail =>
      rw [Items.values, outcome_bind, h v List.mem_cons_self _ head, rereadItems]
      congr 1
      funext first
      rw [outcome_bind, ih (fun w hw => h w (List.mem_cons_of_mem v hw)) tail]
      rfl

theorem outcome_membersValues {depth : Nat} {ms : List (String × Json)} (hsorted : ms.Pairwise (·.1 < ·.1))
    (h : ∀ m ∈ ms, ∀ t : Tree, t.Spells m.2 → outcome (t.value depth) = m.2.reread) {members : Members}
    (hmembers : members.Spells ms) {acc : List (String × Json)} (hacc : ∀ a ∈ acc, ∀ m ∈ ms, a.1 < m.1) :
    outcome (members.values depth acc) = (rereadMembers ms).map (acc ++ ·) := by
  induction ms generalizing members acc with
  | nil =>
    cases hmembers
    rw [rereadMembers]
    exact congrArg Except.ok (List.append_nil acc).symm
  | cons m ms ih =>
    cases hmembers with
    | @member key settled t rest v ms head tail =>
      obtain ⟨hfirst, hsorted⟩ := List.pairwise_cons.1 hsorted
      show outcome (t.value depth >>= fun head => rest.values depth (insert key head acc)) = _
      rw [outcome_bind, h (key, v) List.mem_cons_self _ head, rereadMembers]
      cases v.reread with
      | error p => rfl
      | ok first =>
        show outcome (rest.values depth (insert key first acc)) =
          (rereadMembers ms >>= fun tail => .ok ((key, first) :: tail)).map _
        rw [insert_of_lt fun a ha => hacc a ha (key, v) List.mem_cons_self]
        rw [ih hsorted (fun w hw => h w (List.mem_cons_of_mem _ hw)) tail ?_]
        · cases rereadMembers ms with
          | error p => rfl
          | ok tail => exact congrArg Except.ok (List.append_assoc acc [(key, first)] tail)
        · intro a ha w hw
          rcases List.mem_append.1 ha with ha | ha
          · exact hacc a ha w (List.mem_cons_of_mem _ hw)
          · rw [List.mem_singleton.1 ha]
            exact hfirst w hw

theorem outcome_membersValues_nil {depth : Nat} {ms : List (String × Json)} (hsorted : ms.Pairwise (·.1 < ·.1))
    (h : ∀ m ∈ ms, ∀ t : Tree, t.Spells m.2 → outcome (t.value depth) = m.2.reread) {members : Members}
    (hmembers : members.Spells ms) : outcome (members.values depth []) = rereadMembers ms := by
  have hnone : ∀ a ∈ ([] : List (String × Json)), ∀ m ∈ ms, a.1 < m.1 := fun _ h => absurd h List.not_mem_nil
  rw [outcome_membersValues hsorted h hmembers hnone]
  cases rereadMembers ms <;> rfl

/-- **A tree that spells a value is read as what the value is when it is read again.** -/
theorem outcome_value {depth : Nat} {v : Json} (h : Storable depth v) {t : Tree} (ht : t.Spells v) :
    outcome (t.value depth) = v.reread := by
  induction h generalizing t with
  | null =>
    cases ht
    rw [reread]
    rfl
  | bool b =>
    cases ht
    rw [reread]
    rfl
  | num h =>
    cases ht with
    | number n stop => rw [Tree.value, outcome_map, outcome_numberAt, reread]
  | str s =>
    cases ht
    rw [reread]
    rfl
  | arr h ih =>
    cases ht with
    | list start hitems =>
      rw [Tree.value, if_neg (Nat.succ_ne_zero _), outcome_map, reread]
      congr 1
      exact outcome_itemsValues (fun v hv t ht => ih v hv ht) hitems
  | @obj depth ms hsorted h ih =>
    cases ht with
    | record start hmembers =>
      rw [Tree.value, if_neg (Nat.succ_ne_zero _), outcome_map, reread]
      congr 1
      exact outcome_membersValues_nil hsorted (fun m hm t ht => ih m hm ht) hmembers

/-! ## Values that are read as themselves -/

/-- Whether a double is read as itself when it was written. -/
def Steady (x : Float) : Prop := (Numeral.ofFloat x).value = .ok (.real x)

theorem Number.reread_int {n : Int} (h : (Number.int n).Valid) : (Number.int n).reread = .ok (.int n) := by
  rw [Number.reread, numeral, Numeral.value_ofInt h]
  rfl

theorem Number.reread_real (x : Float) : (Number.real x).reread = .ok (.real x) ↔ Steady x := by
  unfold Number.reread Steady
  exact mapError_eq_ok

theorem rereadItems_eq {vs : List Json} (h : ∀ v ∈ vs, v.reread = .ok v ↔ ∀ x ∈ v.reals, Steady x) :
    rereadItems vs = .ok vs ↔ ∀ x ∈ realsOfItems vs, Steady x := by
  induction vs with
  | nil => simp [rereadItems, realsOfItems]
  | cons v vs ih =>
    rw [rereadItems, realsOfItems, List.forall_mem_append, ← h v List.mem_cons_self,
      ← ih fun w hw => h w (List.mem_cons_of_mem v hw)]
    cases v.reread with
    | error p => simp [bind, Except.bind]
    | ok head =>
      cases rereadItems vs with
      | error p => simp [bind, Except.bind]
      | ok tail => simp [bind, Except.bind, pure, Except.pure]

theorem rereadMembers_eq {ms : List (String × Json)} (h : ∀ m ∈ ms, m.2.reread = .ok m.2 ↔ ∀ x ∈ m.2.reals, Steady x) :
    rereadMembers ms = .ok ms ↔ ∀ x ∈ realsOfMembers ms, Steady x := by
  induction ms with
  | nil => simp [rereadMembers, realsOfMembers]
  | cons m ms ih =>
    obtain ⟨k, v⟩ := m
    rw [rereadMembers, realsOfMembers, List.forall_mem_append, ← h (k, v) List.mem_cons_self,
      ← ih fun w hw => h w (List.mem_cons_of_mem _ hw)]
    cases v.reread with
    | error p => simp [bind, Except.bind]
    | ok head =>
      cases rereadMembers ms with
      | error p => simp [bind, Except.bind]
      | ok tail => simp [bind, Except.bind, pure, Except.pure]

/-- **A value is read as itself if and only if each of its doubles is.** -/
theorem reread_eq {v : Json} (h : Writable v) : v.reread = .ok v ↔ ∀ x ∈ v.reals, Steady x := by
  induction h with
  | null => simp [reread, reals]
  | bool b => simp [reread, reals]
  | @num n h =>
    rw [reread, map_eq_ok fun a b h => Json.num.inj h]
    cases n with
    | int n => simp [reals, Number.reread_int h]
    | real x => simp [reals, Number.reread_real]
  | str s => simp [reread, reals]
  | arr h ih => rw [reread, reals, map_eq_ok fun a b h => Json.arr.inj h, rereadItems_eq ih]
  | obj h ih => rw [reread, reals, map_eq_ok fun a b h => Json.obj.inj h, rereadMembers_eq ih]

end Json
end ArmPilot
