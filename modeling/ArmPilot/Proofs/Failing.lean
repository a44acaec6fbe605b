import Mathlib

/-!
# Steps that may fail

A step of a script, of a sandbox or of an interpreter works on a state and may fail.  What it has changed until then stays
changed.
-/

open Std.Do

namespace ArmPilot
namespace Failing

variable {ε S α β : Type}

theorem run_bind (m : ExceptT ε (StateM S) α) (f : α → ExceptT ε (StateM S) β) (s : S) :
    (m >>= f).run.run s = match m.run.run s with
      | (.ok a, t) => (f a).run.run t
      | (.error e, t) => (.error e, t) := by
  rw [ExceptT.run_bind, StateT.run_bind]
  rcases m.run.run s with ⟨_ | _, t⟩
  · rfl
  · rfl

theorem run_get_bind (f : S → ExceptT ε (StateM S) α) (s : S) : (get >>= f).run.run s = (f s).run.run s := rfl

/-- What a step leaves, from every state of which something holds. -/
theorem triple_iff {P : S → Prop} {m : ExceptT ε (StateM S) α} {Q : α → S → Prop} {R : ε → S → Prop} :
    ⦃fun s => ⌜P s⌝⦄ m ⦃post⟨fun a s => ⌜Q a s⌝, fun e s => ⌜R e s⌝⟩⦄ ↔ ∀ s, P s →
      (∀ a, (m.run.run s).1 = .ok a → Q a (m.run.run s).2) ∧
        ∀ e, (m.run.run s).1 = .error e → R e (m.run.run s).2 := by
  refine forall_congr' fun s => imp_congr_right fun _ => ?_
  rcases hr : m.run.run s with ⟨_ | _, t⟩ <;> simp [wp, hr, Id.run]

/-! ## Side by side -/

variable {T : Type}

/-- Whether two steps come to the same end from states that are related, and leave states that are. -/
def Tied (r : S → T → Prop) (x : ExceptT ε (StateM S) α) (y : ExceptT ε (StateM T) α) : Prop :=
  ∀ s t, r s t → (y.run.run t).1 = (x.run.run s).1 ∧ r (x.run.run s).2 (y.run.run t).2

namespace Tied

variable {r : S → T → Prop} {x : ExceptT ε (StateM S) α} {y : ExceptT ε (StateM T) α}

theorem pure (a : α) : Tied r (Pure.pure a : ExceptT ε (StateM S) α) (Pure.pure a) := fun _ _ h => ⟨rfl, h⟩

theorem throw (e : ε) : Tied r (throw e : ExceptT ε (StateM S) α) (throw e) := fun _ _ h => ⟨rfl, h⟩

theorem bind {f : α → ExceptT ε (StateM S) β} {g : α → ExceptT ε (StateM T) β} (h : Tied r x y)
    (hf : ∀ a, Tied r (f a) (g a)) : Tied r (x >>= f) (y >>= g) := by
  intro s t hst
  obtain ⟨hres, hleft⟩ := h s t hst
  rw [run_bind, run_bind]
  match hx : x.run.run s, hy : y.run.run t with
  | (a, s'), (a', t') =>
    rw [hx, hy] at hres hleft
    obtain rfl : a' = a := hres
    cases a' with
    | error e => exact ⟨rfl, hleft⟩
    | ok a => exact hf a s' t' hleft

/-- What is seen of the states may differ as far as they do. -/
theorem get_bind {f : S → ExceptT ε (StateM S) β} {g : T → ExceptT ε (StateM T) β}
    (h : ∀ s t, r s t → Tied r (f s) (g t)) : Tied r (get >>= f) (get >>= g) :=
  fun s t hst => h s t hst s t hst

theorem set {s : S} {t : T} (h : r s t) :
    Tied r (set s : ExceptT ε (StateM S) PUnit) (set t) := fun _ _ _ => ⟨rfl, h⟩

theorem modify {f : S → S} {g : T → T} (h : ∀ s t, r s t → r (f s) (g t)) :
    Tied r (modify f : ExceptT ε (StateM S) PUnit) (modify g) := fun s t hst => ⟨rfl, h s t hst⟩

theorem ite {c : Prop} [Decidable c] {x' : ExceptT ε (StateM S) α} {y' : ExceptT ε (StateM T) α} (h : c → Tied r x y)
    (h' : ¬c → Tied r x' y') : Tied r (if c then x else x') (if c then y else y') := by
  split
  · exact h ‹_›
  · exact h' ‹_›

/-- A step that may be left out. -/
theorem optional {c : Prop} [Decidable c] {a : ExceptT ε (StateM S) PUnit} {b : ExceptT ε (StateM T) PUnit}
    {f : PUnit → ExceptT ε (StateM S) β} {g : PUnit → ExceptT ε (StateM T) β} (h : Tied r a b)
    (hf : ∀ u, Tied r (f u) (g u)) : Tied r (if c then a >>= f else f ⟨⟩) (if c then b >>= g else g ⟨⟩) :=
  .ite (fun _ => h.bind hf) fun _ => hf ⟨⟩

end Tied

end Failing
end ArmPilot
