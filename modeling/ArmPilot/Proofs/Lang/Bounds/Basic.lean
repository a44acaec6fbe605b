import ArmPilot.Lang.Parser.Statement

/-!
# Parsers under wider bounds

A parser under some bounds and the same parser under wider ones take the same steps until the first of them meets a
limit.
-/

namespace ArmPilot
namespace Lang

/-- A limit is at most another one; zero is no limit. -/
def Tighter (l l' : Nat) : Prop := l' = 0 ∨ 0 < l ∧ l ≤ l'

namespace Setting

/-- A setting under other bounds. -/
def within (s : Setting) (w : Bounds) : Setting :=
  { s with limit := w.depth, functionLimit := w.functionDepth, maxArray := w.maxArray, maxMap := w.maxMap }

/-- A setting with limits that are at most those of some bounds, and that speak by refusals of a kind. -/
structure Narrows (E : Refusal → Prop) (s : Setting) (w : Bounds) : Prop where
  depth : Tighter s.limit w.depth
  functionDepth : Tighter s.functionLimit w.functionDepth
  array : Tighter s.maxArray w.maxArray
  map : Tighter s.maxMap w.maxMap
  tooDeep : 0 < s.limit ∨ 0 < s.functionLimit → E .tooDeep
  tooManyItems : 0 < s.maxArray → E (.literalTooLarge "Size of array literal" s.maxArray)
  tooManyMembers : 0 < s.maxMap → E (.literalTooLarge "Number of properties in object map literal" s.maxMap)
  noLiteral : (∃ r, E r) → E (.expressionExpected "literal")

end Setting

namespace Parse

variable {E : Refusal → Prop} {α α' β β' : Type}

/-- A parser goes as another one does unless it refuses the script in a way of its own. -/
def Follows (E : Refusal → Prop) (R : α → α' → Prop) (m : Parse α) (m' : Parse α') : Prop :=
  ∀ c, (∃ e, m.run c = .error e ∧ E e.refusal) ∨ (∃ e, m.run c = .error e ∧ m'.run c = .error e) ∨
    ∃ a a' c', m.run c = .ok (a, c') ∧ m'.run c = .ok (a', c') ∧ R a a'

namespace Follows

theorem refl (m : Parse α) : Follows E Eq m m := fun c => by
  cases h : m.run c with
  | error e => exact .inr (.inl ⟨e, rfl, rfl⟩)
  | ok r => exact .inr (.inr ⟨r.1, r.1, r.2, rfl, rfl, rfl⟩)

theorem pure {R : α → α' → Prop} {a : α} {a' : α'} (h : R a a') : Follows E R (Pure.pure a) (Pure.pure a') :=
  fun c => .inr (.inr ⟨a, a', c, rfl, rfl, h⟩)

/-- A refusal of the parser's own. -/
theorem barred {R : α → α' → Prop} {e : SyntaxError} (h : E e.refusal) (m' : Parse α') :
    Follows E R (throw e) m' :=
  fun _ => .inl ⟨e, rfl, h⟩

theorem bind_of {R : α → α' → Prop} {S : β → β' → Prop} {m : Parse α} {m' : Parse α'} {f : α → Parse β}
    {f' : α' → Parse β'} (hm : Follows E R m m') (hf : ∀ a a', R a a' → Follows E S (f a) (f' a')) :
    Follows E S (m >>= f) (m' >>= f') := fun c => by
  simp only [StateT.run_bind]
  obtain ⟨e, h, he⟩ | ⟨e, h, h'⟩ | ⟨a, a', c', h, h', hR⟩ := hm c
  · exact .inl ⟨e, by rw [h]; rfl, he⟩
  · exact .inr (.inl ⟨e, by rw [h]; rfl, by rw [h']; rfl⟩)
  · rw [h, h']
    exact hf a a' hR c'

/-- A step that gives both the same result. -/
theorem bind {S : β → β' → Prop} {m m' : Parse α} {f : α → Parse β} {f' : α → Parse β'} (hm : Follows E Eq m m')
    (hf : ∀ a, Follows E S (f a) (f' a)) : Follows E S (m >>= f) (m' >>= f') :=
  hm.bind_of fun a _ h => h ▸ hf a

theorem map (f : α → β) {m m' : Parse α} (hm : Follows E Eq m m') : Follows E Eq (f <$> m) (f <$> m') := by
  simp only [map_eq_pure_bind]
  exact hm.bind fun _ => refl _

theorem iterate_of {R : α → α' → Prop} {S : β → β' → Prop} {step : α → Parse (α ⊕ β)}
    {step' : α' → Parse (α' ⊕ β')} (h : ∀ a a', R a a' → Follows E (Sum.LiftRel R S) (step a) (step' a'))
    {a : α} {a' : α'} (ha : R a a') : Follows E S (iterate step a) (iterate step' a') := by
  have hrounds : ∀ n a a', R a a' → Follows E S (iterate.rounds step n a) (iterate.rounds step' n a') := by
    intro n
    induction n with
    | zero =>
      intro a a' _ c
      exact .inr (.inl ⟨_, rfl, rfl⟩)
    | succ n ih =>
      intro a a' ha
      refine (h a a' ha).bind_of fun r r' hr => ?_
      cases hr with
      | inl ha => exact ih _ _ ha
      | inr hb => exact pure hb
  exact fun c => hrounds _ a a' ha c

/-- Rounds that give both the same results. -/
theorem iterate {step step' : α → Parse (α ⊕ β)} (h : ∀ a, Follows E Eq (step a) (step' a)) (a : α) :
    Follows E Eq (Parse.iterate step a) (Parse.iterate step' a) := by
  refine iterate_of (R := Eq) (fun a a' ha => ?_) rfl
  cases ha
  intro c
  obtain he | he | ⟨r, _, c', hr, hr', rfl⟩ := h a c
  · exact .inl he
  · exact .inr (.inl he)
  · refine .inr (.inr ⟨r, r, c', hr, hr', ?_⟩)
    cases r with
    | inl a => exact .inl rfl
    | inr b => exact .inr rfl

/-- A choice that both make alike. -/
theorem ite {R : α → α' → Prop} {p q : Prop} [Decidable p] [Decidable q] {a b : Parse α} {a' b' : Parse α'} (h : p ↔ q)
    (ha : Follows E R a a') (hb : Follows E R b b') : Follows E R (if p then a else b) (if q then a' else b') := by
  by_cases hp : p
  · rwa [if_pos hp, if_pos (h.1 hp)]
  · rwa [if_neg hp, if_neg (mt h.2 hp)]

/-- A refusal of both. -/
theorem throw_bind {S : β → β' → Prop} {f : α → Parse β} {f' : α' → Parse β'} (e : SyntaxError) :
    Follows E S (throw e >>= f) (throw e >>= f') :=
  fun _ => .inr (.inl ⟨e, rfl, rfl⟩)

theorem missing_bind {S : β → β' → Prop} {f : α → Parse β} {f' : α' → Parse β'} (t : Token) (p : Position)
    (what purpose : String) : Follows E S (missing t p what purpose >>= f) (missing t p what purpose >>= f') := by
  unfold missing
  split
  · exact throw_bind _
  · exact throw_bind _

/-- A look at the size of a literal. -/
theorem limited {S : β → β' → Prop} {f : α → Parse β} {f' : α → Parse β'} {n n' size : Nat} {what : String}
    {k : Parse β} {k' : Parse β'} (hn : Tighter n n') (hE : 0 < n → E (.literalTooLarge what n))
    (h : Follows E S k k') :
    Follows E S (if n > 0 ∧ size ≥ n then peek >>= fun x => refuse (.literalTooLarge what n) x.2 >>= f else k)
      (if n' > 0 ∧ size ≥ n' then peek >>= fun x => refuse (.literalTooLarge what n') x.2 >>= f' else k') := by
  by_cases hle : n > 0 ∧ size ≥ n
  · rw [if_pos hle]
    exact fun c => .inl ⟨⟨.literalTooLarge what n, some (c.tokens.headD (.ended, Position.start)).2⟩, rfl, hE hle.1⟩
  · have hle' : ¬(n' > 0 ∧ size ≥ n') := by
      simp only [Tighter] at hn
      omega
    rwa [if_neg hle, if_neg hle']

variable {s : Setting} {w : Bounds}

theorem deeper (hs : s.Narrows E w) :
    Follows E (fun t t' => t' = t.within w ∧ t.Narrows E w) s.deeper (s.within w).deeper := by
  unfold Setting.deeper
  by_cases h : s.limit > 0 ∧ s.level + 1 > s.limit
  · rw [if_pos h]
    exact barred (hs.tooDeep (.inl h.1)) _
  · have h' : ¬((s.within w).limit > 0 ∧ (s.within w).level + 1 > (s.within w).limit) := by
      have := hs.depth
      simp only [Setting.within, Tighter] at *
      omega
    rw [if_neg h, if_neg h']
    exact pure ⟨rfl, { hs with }⟩

/-- A step of nesting. -/
theorem bind_deeper {S : β → β' → Prop} {f : Setting → Parse β} {f' : Setting → Parse β'} (hs : s.Narrows E w)
    (h : ∀ t, t.Narrows E w → Follows E S (f t) (f' (t.within w))) :
    Follows E S (s.deeper >>= f) ((s.within w).deeper >>= f') :=
  (deeper hs).bind_of fun t _ ht => ht.1 ▸ h t ht.2

theorem bind_deeperAt {S : β → β' → Prop} {f : Setting → Parse β} {f' : Setting → Parse β'} (hs : s.Narrows E w)
    (p : Position) (h : ∀ t, t.Narrows E w → Follows E S (f t) (f' (t.within w))) :
    Follows E S (s.deeperAt p >>= f) ((s.within w).deeperAt p >>= f') :=
  bind_deeper (s := { s with pos := p }) { hs with } h

end Follows

end Parse

/-- The parsers of nested code go as others do under wider bounds. -/
structure Grammar.Follows (E : Refusal → Prop) (g g' : Grammar) : Prop where
  expression : ∀ {s : Setting} {w : Bounds}, s.Narrows E w →
    Parse.Follows E Eq (g.expression s) (g'.expression (s.within w))
  unary : ∀ {s : Setting} {w : Bounds}, s.Narrows E w → Parse.Follows E Eq (g.unary s) (g'.unary (s.within w))
  primary : ∀ {s : Setting} {w : Bounds}, s.Narrows E w → Parse.Follows E Eq (g.primary s) (g'.primary (s.within w))
  binary : ∀ (strength : Nat) (e : Expr) {s : Setting} {w : Bounds}, s.Narrows E w →
    Parse.Follows E Eq (g.binary strength e s) (g'.binary strength e (s.within w))
  statement : ∀ {s : Setting} {w : Bounds}, s.Narrows E w →
    Parse.Follows E Eq (g.statement s) (g'.statement (s.within w))

end Lang
end ArmPilot
