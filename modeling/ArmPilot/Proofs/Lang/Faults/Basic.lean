import ArmPilot.Lang.Parser.Statement

/-!
# Parsers and faults

No parser gets past a token with a fault: if there is one in front of the end of a script, then it is still there when
the parser is through (`Parse.Stays`).
-/

namespace ArmPilot
namespace Lang

/-- Whether a token is a fault. -/
def Token.isFault : Token → Bool
  | .fault _ => true
  | _ => false

theorem Token.isFault_of_beq_mark {t : Token} {m : Mark} (h : (t == .mark m) = true) : t.isFault = false := by
  cases t <;> first | rfl | cases h

theorem Token.isFault_of_beq_word {t : Token} {k : Keyword} (h : (t == .word k) = true) : t.isFault = false := by
  cases t <;> first | rfl | cases h

/-- The tokens of a script, as far as they are left. -/
abbrev Tokens := List (Token × Position)

/-- There is a fault among tokens, in front of the end of the script. -/
inductive Faulty : Tokens → Prop where
  | here {t : Token} {p : Position} {ts : Tokens} (h : t.isFault = true) : Faulty ((t, p) :: ts)
  | there {t : Token} {p : Position} {ts : Tokens} (h : t ≠ .ended) (hs : Faulty ts) : Faulty ((t, p) :: ts)

namespace Tokens

/-- The next token; behind the end there is no other. -/
def head (ts : Tokens) : Token × Position := ts.headD (.ended, Position.start)

/-- There is a fault, and it is not the next token. -/
def Ahead (ts : Tokens) : Prop := Faulty ts ∧ ts.head.1.isFault = false

/-- There is a fault, and the next token is known. -/
def Next (t : Token × Position) (ts : Tokens) : Prop := Faulty ts ∧ ts.head = t

/-- There is a fault, unless it has just been taken. -/
def Behind (t : Token × Position) (ts : Tokens) : Prop := t.1.isFault = false → Faulty ts

end Tokens

theorem Faulty.head_ne_ended {ts : Tokens} (h : Faulty ts) : ts.head.1 ≠ .ended := by
  cases h with
  | here ht =>
    rintro ⟨⟩
    cases ht
  | there ht _ => exact ht

namespace Parse

variable {α β : Type} {P : Tokens → Prop} {Q : α → Prop} {R : β → Prop}

/-- A parser that starts with certain tokens does not get past a fault; what it gives is of a kind. -/
def Stays (P : Tokens → Prop) (m : Parse α) (Q : α → Prop := fun _ => True) : Prop :=
  ∀ c a c', P c.tokens → m.run c = .ok (a, c') → Faulty c'.tokens ∧ Q a

namespace Stays

open Tokens

theorem weaken {P' : Tokens → Prop} {m : Parse α} (hm : Stays P' m Q) (h : ∀ ts, P ts → P' ts) : Stays P m Q :=
  fun c a c' hc => hm c a c' (h _ hc)

/-- The next token does not matter. -/
theorem next {t : Token × Position} {m : Parse α} (hm : Stays Faulty m Q) : Stays (Next t) m Q :=
  hm.weaken fun _ h => h.1

/-- The next token is no fault. -/
theorem ahead {t : Token × Position} {m : Parse α} (ht : t.1.isFault = false) (hm : Stays Ahead m Q) :
    Stays (Next t) m Q :=
  hm.weaken fun _ h => ⟨h.1, h.2 ▸ ht⟩

/-- The token just taken is no fault. -/
theorem behind {t : Token × Position} {m : Parse α} (ht : t.1.isFault = false) (hm : Stays Faulty m Q) :
    Stays (Behind t) m Q :=
  hm.weaken fun _ h => h ht

/-- The script does not end in front of a fault. -/
theorem ended {p : Position} {m : Parse α} : Stays (Next (.ended, p)) m Q :=
  fun _ _ _ hc => absurd (congrArg Prod.fst hc.2) hc.1.head_ne_ended

theorem throw (e : SyntaxError) : Stays P (throw e : Parse α) Q := fun _ _ _ _ h => by cases h

theorem refuse (r : Refusal) (p : Position) : Stays P (Parse.refuse r p : Parse α) Q := throw _

theorem missing (t : Token) (p : Position) (what purpose : String) :
    Stays P (Parse.missing t p what purpose : Parse α) Q := by
  unfold Parse.missing
  split
  · exact refuse _ _
  · exact refuse _ _

theorem pure_of {a : α} (h : Q a) : Stays Faulty (Pure.pure a) Q :=
  fun _ _ _ hc hr => by cases hr; exact ⟨hc, h⟩

theorem pure (a : α) : Stays Faulty (Pure.pure a) := pure_of trivial

theorem bind {m : Parse α} {f : α → Parse β} (hm : Stays P m) (hf : ∀ a, Stays Faulty (f a) R) :
    Stays P (m >>= f) R := fun c b c' hc h => by
  rw [StateT.run_bind] at h
  cases hr : m.run c with
  | error e =>
    rw [hr] at h
    cases h
  | ok r =>
    rw [hr] at h
    exact hf r.1 _ _ _ (hm _ _ _ hc hr).1 h

theorem throw_bind (e : SyntaxError) (f : α → Parse β) : Stays P ((MonadExcept.throw e : Parse α) >>= f) R :=
  fun _ _ _ _ h => by cases h

theorem refuse_bind (r : Refusal) (p : Position) (f : α → Parse β) : Stays P (Parse.refuse r p >>= f) R :=
  throw_bind _ _

theorem missing_bind (t : Token) (p : Position) (what purpose : String) (f : α → Parse β) :
    Stays P (Parse.missing t p what purpose >>= f) R := by
  unfold Parse.missing
  split
  · exact refuse_bind _ _ _
  · exact refuse_bind _ _ _

theorem ite {p : Prop} [Decidable p] {a b : Parse α} (ha : p → Stays P a Q) (hb : ¬p → Stays P b Q) :
    Stays P (if p then a else b) Q := by
  split
  · exact ha ‹_›
  · exact hb ‹_›

theorem map {m : Parse α} (f : α → β) (hm : Stays P m) : Stays P (f <$> m) := by
  rw [map_eq_pure_bind]
  exact bind hm fun _ => pure _

/-- A look at the next token. -/
theorem peek_bind {f : Token × Position → Parse β} (hf : ∀ t, Stays (Next t) (f t) R) : Stays Faulty (peek >>= f) R :=
  fun c b c' hc h => hf _ c b c' ⟨hc, rfl⟩ h

/-- A look at the next token that does not matter. -/
theorem look_bind {f : Token × Position → Parse β} (hf : ∀ t, Stays P (f t) R) : Stays P (peek >>= f) R :=
  fun c b c' hc h => hf _ c b c' hc h

/-- A token is taken, whatever it is. -/
theorem next_bind {f : Token × Position → Parse β} (hf : ∀ t, Stays (Behind t) (f t) R) :
    Stays Faulty (Parse.next >>= f) R := by
  rintro ⟨_ | ⟨t, _ | ⟨u, rest⟩⟩, locals, start, externals, captures, routines⟩ b c' hc h
  · cases hc
  · exact hf t _ b c' (fun _ => hc) h
  · refine hf t _ b c' (fun ht => ?_) h
    cases hc with
    | here ht' => cases ht'.symm.trans ht
    | there _ hs => exact hs

/-- A token that is no fault is taken. -/
theorem take_bind {f : Token × Position → Parse β} (hf : ∀ t, Stays Faulty (f t) R) :
    Stays Ahead (Parse.next >>= f) R := by
  rintro ⟨_ | ⟨t, _ | ⟨u, rest⟩⟩, locals, start, externals, captures, routines⟩ b c' ⟨hc, ht⟩ h
  · cases hc
  · exact hf t _ b c' hc h
  · refine hf t _ b c' ?_ h
    cases hc with
    | here ht' => cases ht'.symm.trans ht
    | there _ hs => exact hs

theorem get_bind {f : Cursor → Parse β} (hf : ∀ c, P c.tokens → Stays (· = c.tokens) (f c) R) :
    Stays P (get >>= f) R :=
  fun c b c' hc h => hf c hc c b c' rfl h

theorem set_stays {c : Cursor} (hc : Faulty c.tokens) : Stays P (set c : Parse PUnit) :=
  fun _ _ _ _ h => by cases h; exact ⟨hc, trivial⟩

theorem modify_stays {f : Cursor → Cursor} (hf : ∀ c, (f c).tokens = c.tokens) : Stays Faulty (modify f : Parse PUnit) :=
  fun c _ _ hc h => by
    cases h
    exact ⟨(hf c).symm ▸ hc, trivial⟩

theorem iterate {step : α → Parse (α ⊕ β)} (h : ∀ a, Stays Faulty (step a)) (a : α) :
    Stays Faulty (Parse.iterate step a) := by
  have hrounds : ∀ n a, Stays Faulty (iterate.rounds step n a) := by
    intro n
    induction n with
    | zero => exact fun a => peek_bind fun t => refuse _ _
    | succ n ih =>
      refine fun a => bind (h a) fun r => ?_
      cases r with
      | inl a => exact ih a
      | inr b => exact pure b
  exact fun c b c' hc hr => hrounds _ a c b c' hc hr

/-- Rounds that go on as long as there is a fault. -/
theorem iterate_on {step : α → Parse (α ⊕ β)} (h : ∀ a, Stays Faulty (step a) (·.isLeft = true)) (a : α) :
    Stays Faulty (Parse.iterate step a) fun _ => False := by
  have hrounds : ∀ n a, Stays Faulty (iterate.rounds step n a) fun _ => False := by
    intro n
    induction n with
    | zero => exact fun a => peek_bind fun t => refuse _ _
    | succ n ih =>
      intro a c b c' hc hr
      unfold iterate.rounds at hr
      rw [StateT.run_bind] at hr
      cases hs : (step a).run c with
      | error e =>
        rw [hs] at hr
        cases hr
      | ok r =>
        rw [hs] at hr
        obtain ⟨a | b, c₁⟩ := r
        · exact ih a c₁ b c' (h _ _ _ _ hc hs).1 hr
        · cases (h _ _ _ _ hc hs).2
  exact fun c b c' hc hr => hrounds _ a c b c' hc hr

theorem deeper_bind (s : Setting) {f : Setting → Parse β} (hf : ∀ s, Stays P (f s) R) :
    Stays P (s.deeper >>= f) R := by
  unfold Setting.deeper
  split
  · exact refuse_bind _ _ _
  · exact fun c b c' hc h => hf _ c b c' hc h

theorem deeperAt_bind (s : Setting) (p : Position) {f : Setting → Parse β} (hf : ∀ s, Stays P (f s)) :
    Stays P (s.deeperAt p >>= f) :=
  deeper_bind _ hf

theorem accept {t : Token} (h : ∀ u : Token, (u == t) = true → u.isFault = false) : Stays Faulty (Parse.accept t) := by
  unfold Parse.accept
  refine peek_bind fun u => ite (fun hu => ahead (h _ hu) (take_bind fun _ => pure _)) fun _ => next (pure _)

theorem acceptMark (m : Mark) : Stays Faulty (Parse.acceptMark m) :=
  accept fun _ => Token.isFault_of_beq_mark

theorem acceptWord (k : Keyword) : Stays Faulty (Parse.accept (.word k)) :=
  accept fun _ => Token.isFault_of_beq_word

theorem expectMark (m : Mark) (purpose : String) : Stays Faulty (Parse.expectMark m purpose) := by
  unfold Parse.expectMark
  exact next_bind fun t => ite (fun ht => behind (Token.isFault_of_beq_mark ht) (pure _)) fun _ => missing _ _ _ _

theorem refuseBlock (kind : String) : Stays Faulty (Parse.refuseBlock kind) := by
  unfold Parse.refuseBlock
  refine peek_bind fun t => ?_
  split
  · exact refuse _ _
  · exact refuse _ _
  · exact next (pure _)

theorem refuseAssignment : Stays Faulty Parse.refuseAssignment := by
  unfold Parse.refuseAssignment
  refine peek_bind fun t => ?_
  split
  · exact refuse _ _
  · exact next (pure _)

theorem variableName : Stays Faulty Parse.variableName := by
  unfold Parse.variableName
  refine next_bind fun t => ?_
  split
  · exact behind rfl (pure _)
  · exact ite (fun _ => refuse _ _) fun _ => refuse _ _
  · exact refuse _ _
  · exact refuse _ _

theorem isFunction (name : String) : Stays Faulty (Parse.isFunction name) := by
  unfold Parse.isFunction
  exact get_bind fun c hc => weaken (pure _) fun _ h => h ▸ hc

theorem access (name : String) (p : Place) : Stays Faulty (Parse.access name p) := by
  unfold Parse.access
  refine get_bind fun c hc => weaken ?_ fun _ h => h ▸ hc
  refine ite (fun _ => bind (isFunction name) fun _ => ?_) fun _ => bind (set_stays hc) fun _ => pure _
  exact ite (fun _ => bind (set_stays hc) fun _ => pure _) fun _ => pure _

theorem declare (name : String) (readOnly : Bool) : Stays Faulty (Parse.declare name readOnly) :=
  modify_stays fun _ => rfl

theorem redeclare (name : String) (readOnly : Bool) : Stays Faulty (Parse.redeclare name readOnly) := by
  unfold Parse.redeclare
  refine get_bind fun c hc => weaken ?_ fun _ h => h ▸ hc
  exact ite (fun _ => bind (set_stays hc) fun _ => pure _) fun _ => bind (declare _ _) fun _ => pure _

theorem forget (n : Nat) : Stays Faulty (Parse.forget n) := modify_stays fun _ => rfl

theorem asCondition (e : Expr) : Stays Faulty e.asCondition := by
  unfold Expr.asCondition
  split
  · exact throw _
  · exact pure _

theorem asIterable (e : Expr) : Stays Faulty e.asIterable := by
  unfold Expr.asIterable
  dsimp only
  split
  all_goals first | exact throw _ | exact pure _

theorem forIn (l : List α) {body : α → β → Parse (ForInStep β)} (h : ∀ a b, Stays Faulty (body a b)) (b : β) :
    Stays Faulty (ForIn.forIn l b body) := by
  induction l generalizing b with
  | nil => exact pure b
  | cons a l ih =>
    rw [List.forIn_cons]
    refine bind (h a b) fun r => ?_
    cases r with
    | done b => exact pure b
    | yield b => exact ih b

end Stays

end Parse

/-- The parsers of nested code do not get past a fault. -/
structure Grammar.Careful (g : Grammar) : Prop where
  expression : ∀ s, Parse.Stays Faulty (g.expression s)
  unary : ∀ s, Parse.Stays Faulty (g.unary s)
  primary : ∀ s, Parse.Stays Faulty (g.primary s)
  binary : ∀ strength e s, Parse.Stays Faulty (g.binary strength e s)
  statement : ∀ s, Parse.Stays Faulty (g.statement s)

end Lang
end ArmPilot
