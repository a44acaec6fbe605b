import Mathlib
import ArmPilot.Json.Shape
import ArmPilot.Proofs.Json.Reading

/-!
# Documents as they are written

A document as it is written has the members of its objects in the order of the text, and those of one key as often as
they stand there.  A value is what it settles to: of members with one key the last counts (`Tree.value_eq`,
`settled_eq_obj_iff`), and their order does not matter otherwise (`Shuffles.settled_eq`).  The walks over a tree that ask
for a shape read what its document holds (`sequence_iff`), and a document whose numbers are read as themselves is that of
its compact text (`Exact.written_compact`).
-/

namespace ArmPilot
namespace Json

mutual

/-- The document of a tree, with at most `depth` further brackets open. -/
def Tree.written (depth : Nat) : Tree → Except Fault Json
  | .null _ => .ok .null
  | .bool b _ => .ok (.bool b)
  | .number n stop => (numberAt n stop).map .num
  | .text content _ => content.map .str
  | .list start items =>
    if depth = 0 then .error ⟨.tooDeep, start.next⟩ else (items.written (depth - 1)).map .arr
  | .record start members =>
    if depth = 0 then .error ⟨.tooDeep, start.next⟩ else (members.written (depth - 1)).map .obj
  | .broken f _ => .error f

/-- The items of a list. -/
def Items.written (depth : Nat) : Items → Except Fault (List Json)
  | .close _ => .ok []
  | .item _ v rest => do
    let head ← v.written depth
    let tail ← rest.written depth
    return head :: tail
  | .stopped gap spot => .error ⟨gap.itemProblem, spot⟩

/-- The members of an object, in the order of the text. -/
def Members.written (depth : Nat) : Members → Except Fault (List (String × Json))
  | .close _ => .ok []
  | .member key _ v rest => do
    let k ← key
    let head ← v.written depth
    let tail ← rest.written depth
    return (k, head) :: tail
  | .stopped gap spot => .error ⟨gap.memberProblem, spot⟩

end

/-- The document of a text. -/
def written (text : String) : Except Fault Json := readWith (Tree.written depthLimit) text

mutual

/-- What a document settles to: of members with one key the last counts. -/
def settled : Json → Json
  | .null => .null
  | .bool b => .bool b
  | .num n => .num n
  | .str s => .str s
  | .arr ds => .arr (settledItems ds)
  | .obj ms => ofMembers (settledMembers ms)

/-- What the items of a list settle to. -/
def settledItems : List Json → List Json
  | [] => []
  | d :: ds => d.settled :: settledItems ds

/-- What the values of members settle to. -/
def settledMembers : List (String × Json) → List (String × Json)
  | [] => []
  | (k, d) :: ms => (k, d.settled) :: settledMembers ms

end

theorem settledItems_eq (ds : List Json) : settledItems ds = ds.map settled := by
  induction ds with
  | nil => rfl
  | cons d ds ih => rw [settledItems, ih, List.map_cons]

theorem settledMembers_eq (ms : List (String × Json)) : settledMembers ms = ms.map fun m => (m.1, m.2.settled) := by
  induction ms with
  | nil => rfl
  | cons m ms ih => rw [settledMembers, ih, List.map_cons]

/-! ## Walks that succeed -/

section

variable {ε α β γ δ : Type}

theorem bind_eq_ok {x : Except ε α} {k : α → Except ε β} {b : β} : (x >>= k) = .ok b ↔ ∃ a, x = .ok a ∧ k a = .ok b := by
  cases x <;> simp [bind, Except.bind]

theorem map_eq_ok_iff {x : Except ε α} {f : α → β} {b : β} : x.map f = .ok b ↔ ∃ a, x = .ok a ∧ f a = b := by
  cases x <;> simp [Except.map]

theorem bind_map {x : Except ε α} {f : α → β} {k : β → Except ε γ} {k' : α → Except ε δ} {g : δ → γ}
    (h : ∀ a, k (f a) = (k' a).map g) : (x.map f >>= k) = (x >>= k').map g := by
  cases x with
  | error e => rfl
  | ok a => exact h a

end

section

variable {depth : Nat} {start settled : Spot} {v : Tree} {items rest : Items} {members behind : Members}
  {key : Except Fault String} {d : Json}

theorem Tree.written_list_eq_ok :
    (Tree.list start items).written depth = .ok d ↔ 0 < depth ∧ ∃ ds, items.written (depth - 1) = .ok ds ∧ arr ds = d := by
  rw [Tree.written]
  split
  · rename_i h
    simp [h]
  · rename_i h
    rw [map_eq_ok_iff, and_iff_right (Nat.pos_of_ne_zero h)]

theorem Tree.written_record_eq_ok :
    (Tree.record start members).written depth = .ok d ↔
      0 < depth ∧ ∃ ms, members.written (depth - 1) = .ok ms ∧ obj ms = d := by
  rw [Tree.written]
  split
  · rename_i h
    simp [h]
  · rename_i h
    rw [map_eq_ok_iff, and_iff_right (Nat.pos_of_ne_zero h)]

theorem Items.written_item_eq_ok {ds : List Json} : (Items.item start v rest).written depth = .ok ds ↔
    ∃ d ds', v.written depth = .ok d ∧ rest.written depth = .ok ds' ∧ d :: ds' = ds := by
  simp [Items.written, bind_eq_ok, pure, Except.pure]

theorem Members.written_member_eq_ok {ms : List (String × Json)} :
    (Members.member key settled v behind).written depth = .ok ms ↔
      ∃ k d ms', key = .ok k ∧ v.written depth = .ok d ∧ behind.written depth = .ok ms' ∧ (k, d) :: ms' = ms := by
  simp [Members.written, bind_eq_ok, pure, Except.pure]

end

/-! ## What is read of a document -/

mutual

/-- **A value is what the document settles to.** -/
theorem Tree.value_eq (depth : Nat) : (t : Tree) → t.value depth = (t.written depth).map settled
  | .null _ => rfl
  | .bool _ _ => rfl
  | .number n stop => by
    rw [Tree.value, Tree.written]
    cases numberAt n stop <;> rfl
  | .text content _ => by
    rw [Tree.value, Tree.written]
    cases content <;> rfl
  | .list start items => by
    rw [Tree.value, Tree.written, items.values_eq (depth - 1)]
    split
    · rfl
    · cases items.written (depth - 1) <;> rfl
  | .record start members => by
    rw [Tree.value, Tree.written, members.values_eq (depth - 1) []]
    split
    · rfl
    · cases members.written (depth - 1) <;> rfl
  | .broken _ _ => rfl

theorem Items.values_eq (depth : Nat) : (items : Items) → items.values depth = (items.written depth).map settledItems
  | .close _ => rfl
  | .item _ v rest => by
    rw [Items.values, Items.written, v.value_eq depth, rest.values_eq depth]
    exact bind_map fun _ => bind_map fun _ => rfl
  | .stopped _ _ => rfl

theorem Members.values_eq (depth : Nat) : (members : Members) → (acc : List (String × Json)) →
    members.values depth acc =
      (members.written depth).map fun ms => (settledMembers ms).foldl (fun acc m => insert m.1 m.2 acc) acc
  | .close _, _ => rfl
  | .member key _ v rest, acc => by
    rw [Members.values, Members.written, v.value_eq depth]
    cases key with
    | error f => rfl
    | ok k =>
      refine bind_map fun d => ?_
      rw [rest.values_eq depth]
      cases rest.written depth <;> rfl
  | .stopped _ _, _ => rfl

end

theorem parse_eq (text : String) : parse text = (written text).map settled := by
  rw [parse, written, readWith, readWith]
  dsimp only
  rw [Tree.value_eq]
  cases (Tree.ofText text).1.written depthLimit with
  | error f => rfl
  | ok d => cases (Tree.ofText text).2 <;> rfl

mutual

/-- A value that has a document may be passed over. -/
theorem Tree.skip_of_written {depth : Nat} : (t : Tree) → {d : Json} → t.written depth = .ok d → t.skip = .ok ()
  | .null _, _, _ => rfl
  | .bool _ _, _, _ => rfl
  | .number _ _, _, _ => rfl
  | .text _ _, _, _ => rfl
  | .list _ items, _, h => by
    obtain ⟨-, ds, hds, -⟩ := Tree.written_list_eq_ok.1 h
    exact items.skip_of_written hds
  | .record _ members, _, h => by
    obtain ⟨-, ms, hms, -⟩ := Tree.written_record_eq_ok.1 h
    exact members.skip_of_written hms
  | .broken _ _, _, h => nomatch h

theorem Items.skip_of_written {depth : Nat} : (items : Items) → {ds : List Json} → items.written depth = .ok ds →
    items.skip = .ok ()
  | .close _, _, _ => rfl
  | .item _ v rest, _, h => by
    obtain ⟨d, ds, hd, hds, -⟩ := Items.written_item_eq_ok.1 h
    rw [Items.skip, v.skip_of_written hd]
    exact rest.skip_of_written hds
  | .stopped _ _, _, h => nomatch h

theorem Members.skip_of_written {depth : Nat} : (members : Members) → {ms : List (String × Json)} →
    members.written depth = .ok ms → members.skip = .ok ()
  | .close _, _, _ => rfl
  | .member _ _ v rest, _, h => by
    obtain ⟨k, d, ms, -, hd, hms, -⟩ := Members.written_member_eq_ok.1 h
    rw [Members.skip, v.skip_of_written hd]
    exact rest.skip_of_written hms
  | .stopped _ _, _, h => nomatch h

end

/-! ## What an object settles to -/

theorem find?_foldl_insert {α : Type} (key : String) (ms acc : List (String × α)) :
    find? key (ms.foldl (fun acc m => insert m.1 m.2 acc) acc) =
      ((ms.filter (·.1 = key)).getLast?.map Prod.snd).or (find? key acc) := by
  induction ms generalizing acc with
  | nil => rfl
  | cons m ms ih =>
    rw [List.foldl_cons, ih, find?_insert, List.filter_cons]
    by_cases hm : m.1 = key
    · rw [if_pos hm, if_pos (decide_eq_true hm), List.getLast?_cons]
      cases (ms.filter (·.1 = key)).getLast? <;> rfl
    · rw [if_neg hm, if_neg (by simpa using hm)]

theorem settled_obj (ms : List (String × Json)) :
    (obj ms).settled = obj ((settledMembers ms).foldl (fun acc m => insert m.1 m.2 acc) []) := rfl

/-- **Under each key an object holds what its last member of that key settles to**, whatever the key is. -/
theorem find?_settledMembers (ms : List (String × Json)) (key : String) :
    find? key ((settledMembers ms).foldl (fun acc m => insert m.1 m.2 acc) []) =
      (ms.filter (·.1 = key)).getLast?.map (·.2.settled) := by
  have hfilter : (settledMembers ms).filter (·.1 = key) = (ms.filter (·.1 = key)).map fun m => (m.1, m.2.settled) := by
    rw [settledMembers_eq, List.filter_map]
    rfl
  rw [find?_foldl_insert, hfilter, List.getLast?_map, Option.map_map]
  cases (ms.filter (·.1 = key)).getLast? <;> rfl

theorem pairwise_insert {α : Type} {k : String} {v : α} {ms : List (String × α)} (h : ms.Pairwise (·.1 < ·.1)) :
    (insert k v ms).Pairwise (·.1 < ·.1) := by
  induction ms with
  | nil => exact List.pairwise_singleton _ _
  | cons m ms ih =>
    obtain ⟨l, x⟩ := m
    obtain ⟨hhead, htail⟩ := List.pairwise_cons.1 h
    rw [insert]
    split
    · rename_i hlt
      refine List.pairwise_cons.2 ⟨fun m hm => ?_, h⟩
      rcases List.mem_cons.1 hm with rfl | hm
      · exact hlt
      · exact hlt.trans (hhead m hm)
    · split
      · rename_i _ heq
        exact List.pairwise_cons.2 ⟨fun m hm => heq ▸ hhead m hm, htail⟩
      · rename_i hlt hne
        refine List.pairwise_cons.2 ⟨fun m hm => ?_, ih htail⟩
        rcases eq_or_mem_of_mem_insert hm with rfl | hm
        · exact (lt_or_gt_of_ne hne).resolve_left hlt
        · exact hhead m hm

theorem pairwise_foldl_insert {α : Type} (ms : List (String × α)) {acc : List (String × α)}
    (h : acc.Pairwise (·.1 < ·.1)) : (ms.foldl (fun acc m => insert m.1 m.2 acc) acc).Pairwise (·.1 < ·.1) := by
  induction ms generalizing acc with
  | nil => exact h
  | cons m ms ih => exact ih (pairwise_insert h)

theorem find?_eq_none_of_lt {α : Type} {key : String} {ms : List (String × α)} (h : ∀ m ∈ ms, key < m.1) :
    find? key ms = none := by
  refine Option.eq_none_iff_forall_not_mem.2 fun v hv => ?_
  exact lt_irrefl key (h (key, v) (mem_of_find? hv))

/-- Members in the order of their keys are known by what they hold under each key. -/
theorem eq_of_find?_eq {α : Type} {ms ms' : List (String × α)} (h : ms.Pairwise (·.1 < ·.1))
    (h' : ms'.Pairwise (·.1 < ·.1)) (heq : ∀ key, find? key ms = find? key ms') : ms = ms' := by
  induction ms generalizing ms' with
  | nil =>
    cases ms' with
    | nil => rfl
    | cons m ms' => simpa [find?] using heq m.1
  | cons m ms ih =>
    cases ms' with
    | nil => simpa [find?] using heq m.1
    | cons m' ms' =>
      obtain ⟨k, v⟩ := m
      obtain ⟨k', v'⟩ := m'
      obtain ⟨hhead, htail⟩ := List.pairwise_cons.1 h
      obtain ⟨hhead', htail'⟩ := List.pairwise_cons.1 h'
      have hkey : k = k' := by
        rcases lt_trichotomy k k' with hlt | hkey | hlt
        · have hnone : find? k ((k', v') :: ms') = none := by
            refine find?_eq_none_of_lt (List.forall_mem_cons.2 ⟨hlt, fun m hm => hlt.trans (hhead' m hm)⟩)
          simpa [find?] using (heq k).trans hnone
        · exact hkey
        · have hnone : find? k' ((k, v) :: ms) = none := by
            refine find?_eq_none_of_lt (List.forall_mem_cons.2 ⟨hlt, fun m hm => hlt.trans (hhead m hm)⟩)
          simpa [find?] using (heq k').symm.trans hnone
      subst hkey
      have hvalue : v = v' := by simpa [find?] using heq k
      refine congrArg₂ List.cons (by rw [hvalue]) (ih htail htail' fun key => ?_)
      by_cases hk : k = key
      · rw [← hk, find?_eq_none_of_lt hhead, find?_eq_none_of_lt hhead']
      · simpa [find?, hk] using heq key

/-- Whether members, in the order of their keys, keep those of an object: under each key, as it stands, what the last
member of that key settles to. -/
def Keep (ps ms : List (String × Json)) : Prop :=
  ps.Pairwise (·.1 < ·.1) ∧ ∀ key, find? key ps = (ms.filter (·.1 = key)).getLast?.map (·.2.settled)

theorem settled_eq_obj_iff {ms ps : List (String × Json)} : (obj ms).settled = obj ps ↔ Keep ps ms := by
  have hsorted := pairwise_foldl_insert (settledMembers ms) List.Pairwise.nil
  rw [settled_obj]
  constructor
  · intro h
    obtain rfl := Json.obj.inj h
    exact ⟨hsorted, find?_settledMembers ms⟩
  · rintro ⟨hps, hfind⟩
    exact congrArg obj (eq_of_find?_eq hsorted hps fun key => (find?_settledMembers ms key).trans (hfind key).symm)

theorem insert_comm {α : Type} {k k' : String} (hne : k ≠ k') (v v' : α) (ms : List (String × α)) :
    insert k v (insert k' v' ms) = insert k' v' (insert k v ms) := by
  wlog hlt : k < k' generalizing k k' v v'
  · exact (this hne.symm v' v ((lt_or_gt_of_ne hne).resolve_left hlt)).symm
  induction ms with
  | nil => simp [insert, hlt, hne.symm, hlt.not_gt]
  | cons m ms ih =>
    obtain ⟨l, x⟩ := m
    rcases lt_trichotomy k' l with h | rfl | h
    · simp [insert, hlt, h, hlt.trans h, hne.symm, hlt.not_gt]
    · simp [insert, hlt, hne.symm, hlt.not_gt]
    · rcases lt_trichotomy k l with hk | rfl | hk
      · simp [insert, hk, h.not_gt, h.ne', hne.symm, hlt.not_gt]
      · simp [insert, h.not_gt, h.ne']
      · simp [insert, h.not_gt, h.ne', hk.not_gt, hk.ne', ih]

/-- The order of members of different keys does not matter. -/
theorem settled_of_perm {ms ms' : List (String × Json)} (h : ms.Perm ms') (hkeys : (ms.map Prod.fst).Nodup) :
    (obj ms).settled = (obj ms').settled := by
  have hperm : (settledMembers ms).Perm (settledMembers ms') := by
    rw [settledMembers_eq, settledMembers_eq]
    exact h.map _
  have hdistinct : ((settledMembers ms).map Prod.fst).Nodup := by
    rw [settledMembers_eq, List.map_map]
    exact hkeys
  refine congrArg obj (hperm.foldl_eq' (fun m hm m' hm' acc => ?_) [])
  by_cases hne : m.1 = m'.1
  · rw [List.inj_on_of_nodup_map hdistinct hm hm' hne]
  · exact insert_comm (Ne.symm hne) m'.2 m.2 acc

/-- The ways to put the members of objects in another order, at any place of a document. -/
inductive Shuffles : Json → Json → Prop
  | order {ms ms' : List (String × Json)} (h : ms.Perm ms') (hkeys : (ms.map Prod.fst).Nodup) :
    Shuffles (.obj ms) (.obj ms')
  | item (before after : List Json) {d d' : Json} (h : Shuffles d d') :
    Shuffles (.arr (before ++ d :: after)) (.arr (before ++ d' :: after))
  | member (key : String) (before after : List (String × Json)) {d d' : Json} (h : Shuffles d d') :
    Shuffles (.obj (before ++ (key, d) :: after)) (.obj (before ++ (key, d') :: after))

theorem Shuffles.settled_eq {d d' : Json} (h : Shuffles d d') : d.settled = d'.settled := by
  induction h with
  | order h hkeys => exact settled_of_perm h hkeys
  | item before after _ ih => simp [settled, settledItems_eq, ih]
  | member key before after _ ih => simp [settled, settledMembers_eq, ih]

/-! ## What walks read -/

section

variable {k : Nat} {t : Tree} {d : Json} {ps : List (String × Json)}

theorem Tree.written_eq_str {s : String} : t.written k = .ok (.str s) ↔ ∃ stop, t = .text (.ok s) stop := by
  cases t with
  | list start items => simp [written_list_eq_ok]
  | record start members => simp [written_record_eq_ok]
  | _ => simp [Tree.written, map_eq_ok_iff]

theorem Tree.written_eq_arr {ds : List Json} :
    t.written k = .ok (.arr ds) ↔ ∃ start items, t = .list start items ∧ 0 < k ∧ items.written (k - 1) = .ok ds := by
  cases t with
  | list start items => simp [written_list_eq_ok]
  | record start members => simp [written_record_eq_ok]
  | _ => simp [Tree.written, map_eq_ok_iff]

theorem string_iff (hd : t.written k = .ok d) {s : String} : t.string = .ok s ↔ d = .str s := by
  have hstring : t.string = .ok s ↔ ∃ stop, t = .text (.ok s) stop := by
    cases t <;> simp [Tree.string]
  rw [hstring, ← Tree.written_eq_str, hd, Except.ok.injEq]

/-- A document that settles to an object is one. -/
theorem settled_eq_obj : d.settled = .obj ps ↔ ∃ ms, d = .obj ms ∧ Keep ps ms := by
  cases d with
  | obj ms =>
    rw [settled_eq_obj_iff]
    simp
  | _ => simp [settled]

theorem mapping_iff (hd : t.written k = .ok d) : t.mapping k = .ok ps ↔ ∃ ms, d = .obj ms ∧ Keep ps ms := by
  have hmapping : t.mapping k = .ok ps ↔ t.value k = .ok (.obj ps) := by
    cases t with
    | list start items => by_cases hk : k = 0 <;> simp [Tree.mapping, Tree.value, hk, map_eq_ok_iff]
    | record start members => by_cases hk : k = 0 <;> simp [Tree.mapping, Tree.value, hk, map_eq_ok_iff]
    | _ => simp [Tree.mapping, Tree.value, map_eq_ok_iff]
  rw [hmapping, Tree.value_eq, hd, ← settled_eq_obj]
  simp [Except.map]

section

variable {α : Type} {D : Json → α → Prop} {read : Nat → Tree → Except Fault α}

/-- A list is read item by item. -/
theorem each_iff {items : Items} {ds : List Json} (hds : items.written k = .ok ds)
    (h : ∀ t d, t.written k = .ok d → ∀ a, read k t = .ok a ↔ D d a) {as : List α} :
    items.each (read k) = .ok as ↔ List.Forall₂ D ds as := by
  match items with
  | .close stop =>
    obtain rfl : [] = ds := Except.ok.inj hds
    rw [Items.each, Except.ok.injEq, List.forall₂_nil_left_iff, eq_comm]
  | .item start v rest =>
    obtain ⟨d, ds, hd, hrest, rfl⟩ := Items.written_item_eq_ok.1 hds
    have htail (as : List α) : rest.each (read k) = .ok as ↔ List.Forall₂ D ds as := each_iff hrest h
    constructor
    · intro hread
      obtain ⟨a, ha, hread⟩ := bind_eq_ok.1 hread
      obtain ⟨behind, hbehind, hcons⟩ := bind_eq_ok.1 hread
      obtain rfl := Except.ok.inj hcons
      exact .cons ((h v d hd a).1 ha) ((htail behind).1 hbehind)
    · intro hforall
      obtain ⟨a, behind, ha, hbehind, rfl⟩ := List.forall₂_cons_left_iff.1 hforall
      exact bind_eq_ok.2 ⟨a, (h v d hd a).2 ha, bind_eq_ok.2 ⟨behind, (htail behind).2 hbehind, rfl⟩⟩
  | .stopped _ _ => cases hds

theorem sequence_iff (hd : t.written k = .ok d)
    (h : ∀ t d, t.written (k - 1) = .ok d → ∀ a, read (k - 1) t = .ok a ↔ D d a) {as : List α} :
    t.sequence k read = .ok as ↔ ∃ ds, d = .arr ds ∧ List.Forall₂ D ds as := by
  have hsequence : t.sequence k read = .ok as ↔
      ∃ start items, t = .list start items ∧ 0 < k ∧ items.each (read (k - 1)) = .ok as := by
    cases t with
    | list start items => by_cases hk : k = 0 <;> simp [Tree.sequence, hk, Nat.pos_iff_ne_zero]
    | _ => simp [Tree.sequence]
  constructor
  · intro hread
    obtain ⟨start, items, rfl, -, heach⟩ := hsequence.1 hread
    obtain ⟨-, ds, hds, rfl⟩ := Tree.written_list_eq_ok.1 hd
    exact ⟨ds, rfl, (each_iff hds h).1 heach⟩
  · rintro ⟨ds, rfl, hforall⟩
    obtain ⟨start, items, rfl, hpos, hds⟩ := Tree.written_eq_arr.1 hd
    exact hsequence.2 ⟨start, items, rfl, hpos, (each_iff hds h).2 hforall⟩

end

end

/-! ## Texts of documents -/

/-- A document that a text can hold with at most so many brackets open at once: each of its numbers is read as itself. -/
inductive Exact : Nat → Json → Prop
  | null {depth : Nat} : Exact depth .null
  | bool {depth : Nat} (b : Bool) : Exact depth (.bool b)
  | num {depth : Nat} {n : Number} (h : n.Valid) (hn : n.numeral.value = .ok n) : Exact depth (.num n)
  | str {depth : Nat} (s : String) : Exact depth (.str s)
  | arr {depth : Nat} {ds : List Json} (h : ∀ d ∈ ds, Exact depth d) : Exact (depth + 1) (.arr ds)
  | obj {depth : Nat} {ms : List (String × Json)} (h : ∀ m ∈ ms, Exact depth m.2) : Exact (depth + 1) (.obj ms)

theorem Exact.writable {depth : Nat} {d : Json} (h : Exact depth d) : Writable d := by
  induction h with
  | null => exact .null
  | bool b => exact .bool b
  | num h _ => exact .num h
  | str s => exact .str s
  | arr _ ih => exact .arr ih
  | obj _ ih => exact .obj ih

theorem Items.Spells.written_eq {depth : Nat} {items : Items} {ds : List Json} (h : items.Spells ds)
    (hds : ∀ d ∈ ds, ∀ t : Tree, t.Spells d → t.written depth = .ok d) : items.written depth = .ok ds := by
  induction ds generalizing items with
  | nil =>
    cases h
    rfl
  | cons d ds ih =>
    obtain ⟨hhead, hbehind⟩ := List.forall_mem_cons.1 hds
    cases h with
    | item start head tail => exact Items.written_item_eq_ok.2 ⟨d, ds, hhead _ head, ih tail hbehind, rfl⟩

theorem Members.Spells.written_eq {depth : Nat} {members : Members} {ms : List (String × Json)} (h : members.Spells ms)
    (hms : ∀ m ∈ ms, ∀ t : Tree, t.Spells m.2 → t.written depth = .ok m.2) : members.written depth = .ok ms := by
  induction ms generalizing members with
  | nil =>
    cases h
    rfl
  | cons m ms ih =>
    obtain ⟨hhead, hbehind⟩ := List.forall_mem_cons.1 hms
    cases h with
    | member key settled head tail =>
      exact Members.written_member_eq_ok.2 ⟨key, _, ms, rfl, hhead _ head, ih tail hbehind, rfl⟩

theorem Exact.written_eq {depth : Nat} {d : Json} (h : Exact depth d) {t : Tree} (ht : t.Spells d) :
    t.written depth = .ok d := by
  induction h generalizing t with
  | null =>
    cases ht
    rfl
  | bool b =>
    cases ht
    rfl
  | num h hn =>
    cases ht with
    | number n stop => simp [Tree.written, numberAt, hn, Except.map]
  | str s =>
    cases ht
    rfl
  | arr _ ih =>
    cases ht with
    | list start hitems =>
      exact Tree.written_list_eq_ok.2 ⟨Nat.succ_pos _, _, hitems.written_eq fun d hd t ht => ih d hd ht, rfl⟩
  | obj _ ih =>
    cases ht with
    | record start hmembers =>
      exact Tree.written_record_eq_ok.2 ⟨Nat.succ_pos _, _, hmembers.written_eq fun m hm t ht => ih m hm ht, rfl⟩

/-- The document of the compact text of a document is that document. -/
theorem Exact.written_compact {d : Json} (h : Exact depthLimit d) : Json.written d.compact = .ok d := by
  obtain ⟨t, htext, ht⟩ := (reads_compact h.writable).ofText
  rw [Json.written, readWith, compact, htext]
  dsimp only
  rw [h.written_eq ht]

end Json
end ArmPilot
