import ArmPilot.Proofs.Lang.Faults.Basic

/-!
# Parsers in front of a closing parenthesis

What a parser reads up to the end of a script it also reads where a closing parenthesis stands in place of the end
(`Parse.Echoes`).  There is one exception: behind a bar the end of a script leaves out the body of a closure, and a
parenthesis does not.
-/

namespace ArmPilot
namespace Lang

/-- Whether a token is a bar, behind which the body of a closure may follow. -/
def Token.isBar : Token → Bool
  | .mark .pipe | .mark .orOr => true
  | _ => false

theorem Token.eq_mark_of_beq {t : Token} {m : Mark} (h : (t == .mark m) = true) : t = .mark m := by
  cases t with
  | mark n => exact congrArg _ (of_decide_eq_true h)
  | _ => cases h

theorem Token.eq_word_of_beq {t : Token} {k : Keyword} (h : (t == .word k) = true) : t = .word k := by
  cases t with
  | word l => exact congrArg _ (of_decide_eq_true h)
  | _ => cases h

/-- Tokens up to the end of a script, and the same tokens up to a closing parenthesis.  The last of them is no bar. -/
inductive Enclosed : Tokens → Tokens → Prop where
  | close (p q r : Position) : Enclosed [(.ended, p)] [(.mark .rightParen, q), (.ended, r)]
  | cons {t : Token} {p : Position} {ts ts' : Tokens} (ht : t ≠ .ended) (hbar : t.isBar = true → 1 < ts.length)
    (hs : Enclosed ts ts') : Enclosed ((t, p) :: ts) ((t, p) :: ts')

theorem Enclosed.length_eq {ts ts' : Tokens} (h : Enclosed ts ts') : ts'.length = ts.length + 1 := by
  induction h with
  | close => rfl
  | cons _ _ _ ih => rw [List.length_cons, List.length_cons, ih]

/-- Only the end of the script is left. -/
def Tokens.Ended (ts : Tokens) : Prop := ∃ p, ts = [(.ended, p)]

theorem Enclosed.length_of_not_ended {ts ts' : Tokens} (h : Enclosed ts ts') (hts : ¬Tokens.Ended ts) :
    1 < ts.length := by
  cases h with
  | close p => exact absurd ⟨p, rfl⟩ hts
  | cons _ _ hs => cases hs <;> simp

theorem Enclosed.ne_nil {ts ts' : Tokens} (h : Enclosed ts ts') : ts' ≠ [] := by
  cases h <;> exact List.cons_ne_nil _ _

/-- In place of the end stands the parenthesis. -/
theorem Enclosed.eq_of_head {ts ts' : Tokens} (h : Enclosed ts ts') (hts : ts.head.1 = .ended) :
    ∃ q r, ts' = [(.mark .rightParen, q), (.ended, r)] := by
  cases h with
  | close p q r => exact ⟨q, r, rfl⟩
  | cons ht => exact absurd hts ht

/-- Parsers that stand at the same place.  What the closures in hand take from outside may differ unless it is said to
be the same. -/
inductive Cursor.Beside (same : Bool) (c : Cursor) : Cursor → Prop where
  | mk {ts : Tokens} {externals : List (String × Place)} (tokens : Enclosed c.tokens ts)
    (outside : same = true → externals = c.externals) : Beside same c { c with tokens := ts, externals := externals }

namespace Cursor

variable (same : Bool)

/-- Parsers at the same place, with nothing left. -/
def AtEnd (c c' : Cursor) : Prop := Beside same c c' ∧ Tokens.Ended c.tokens

/-- Parsers at the same place, with something left. -/
def BeforeEnd (c c' : Cursor) : Prop := Beside same c c' ∧ 1 < c.tokens.length

/-- Parsers at the same place, whose next token is known. -/
def Before (t : Token × Position) (c c' : Cursor) : Prop :=
  Beside same c c' ∧ t.1 ≠ .ended ∧ c.tokens.head? = some t

/-- Parsers at the same place, right behind a token. -/
def Behind (t : Token) (c c' : Cursor) : Prop := Beside same c c' ∧ (t.isBar = true → 1 < c.tokens.length)

end Cursor

namespace Setting

/-- A setting at another place, with another nesting. -/
def moved (s : Setting) (level limit : Nat) (pos : Position) : Setting :=
  { s with level := level, limit := limit, pos := pos }

/-- A nesting leaves at least as much room as that of a setting. -/
def Leaves (s : Setting) (level limit : Nat) : Prop := limit = 0 ∨ 0 < s.limit ∧ s.limit + level ≤ limit + s.level

end Setting

namespace Parse

open Cursor

variable {α α' β β' : Type}

/-- A parser never gives a result. -/
def Fails (m : Parse α) : Prop := ∀ c, ∃ e, m.run c = .error e

/-- A parser gives no result where nothing is left. -/
def FailsAtEnd (m : Parse α) : Prop := ∀ c, Tokens.Ended c.tokens → ∃ e, m.run c = .error e

/-- A parser takes nothing where nothing is left. -/
def IdlesAtEnd (m : Parse α) : Prop := ∀ c, Tokens.Ended c.tokens → ∀ a d, m.run c = .ok (a, d) → d = c

theorem error_bind {m : Parse α} {c : Cursor} {e : SyntaxError} (h : m.run c = .error e) (f : α → Parse β) :
    (m >>= f).run c = .error e := by
  rw [StateT.run_bind, h]
  rfl

theorem ok_bind {m : Parse α} {c d : Cursor} {a : α} (h : m.run c = .ok (a, d)) (f : α → Parse β) :
    (m >>= f).run c = (f a).run d := by
  rw [StateT.run_bind, h]
  rfl

theorem peek_run {c : Cursor} {p : Position} (h : c.tokens = [(.ended, p)]) : peek.run c = .ok ((.ended, p), c) := by
  show Except.ok (Tokens.head c.tokens, c) = _
  rw [h]
  rfl

/-- A parser that has noted the use of a variable. -/
def accessed (c : Cursor) (name : String) (p : Place) : Cursor :=
  { c with
    externals :=
      if c.captures && !c.locals.any (·.name = name) && !c.routines.any (fun r => r.name = name && name ≠ "")
          && !c.externals.any (·.1 = name) then c.externals ++ [(name, p)]
      else c.externals
    captures := true }

theorem access_run (name : String) (p : Place) (c : Cursor) :
    (access name p).run c = .ok (c.locals.any (·.name = name), accessed c name p) := by
  obtain ⟨tokens, locals, start, externals, captures, routines⟩ := c
  unfold access isFunction accessed
  cases captures with
  | false => rfl
  | true =>
    simp only [bind_assoc, pure_bind, Bool.true_and]
    show StateT.run (if _ then _ else _) _ = _
    split
    · rfl
    · rfl

namespace Fails

theorem throw (e : SyntaxError) : Fails (throw e : Parse α) := fun _ => ⟨e, rfl⟩

theorem refuse (r : Refusal) (p : Position) : Fails (Parse.refuse r p : Parse α) := throw _

theorem missing (t : Token) (p : Position) (what purpose : String) :
    Fails (Parse.missing t p what purpose : Parse α) := by
  unfold Parse.missing
  split
  · exact refuse _ _
  · exact refuse _ _

theorem bind {m : Parse α} (h : Fails m) (f : α → Parse β) : Fails (m >>= f) := fun c =>
  have ⟨e, he⟩ := h c
  ⟨e, error_bind he f⟩

theorem behind {m : Parse α} {f : α → Parse β} (h : ∀ a, Fails (f a)) : Fails (m >>= f) := fun c => by
  cases hr : m.run c with
  | error e => exact ⟨e, error_bind hr f⟩
  | ok r => rw [ok_bind hr]; exact h _ _

theorem ite {p : Prop} [Decidable p] {a b : Parse α} (ha : Fails a) (hb : Fails b) : Fails (if p then a else b) := by
  split
  · exact ha
  · exact hb

theorem atEnd {m : Parse α} (h : Fails m) : FailsAtEnd m := fun c _ => h c

end Fails

namespace FailsAtEnd

theorem bind {m : Parse α} (h : FailsAtEnd m) (f : α → Parse β) : FailsAtEnd (m >>= f) := fun c hc =>
  have ⟨e, he⟩ := h c hc
  ⟨e, error_bind he f⟩

theorem peek_bind {f : Token × Position → Parse β} (h : ∀ p, FailsAtEnd (f (.ended, p))) :
    FailsAtEnd (peek >>= f) := fun c hc => by
  have ⟨p, hp⟩ := hc
  rw [ok_bind (peek_run hp)]
  exact h p c hc

theorem next_bind {f : Token × Position → Parse β} (h : ∀ p, FailsAtEnd (f (.ended, p))) :
    FailsAtEnd (next >>= f) := by
  rintro ⟨_, locals, start, externals, captures, routines⟩ ⟨p, rfl⟩
  exact h p _ ⟨p, rfl⟩

theorem deeper_bind (s : Setting) {f : Setting → Parse β} (h : ∀ s, FailsAtEnd (f s)) :
    FailsAtEnd (s.deeper >>= f) := by
  unfold Setting.deeper
  split
  · exact ((Fails.refuse _ _).bind f).atEnd
  · exact fun c hc => h _ c hc

end FailsAtEnd

namespace IdlesAtEnd

theorem pure (a : α) : IdlesAtEnd (Pure.pure a : Parse α) := fun _ _ _ _ hr => by
  cases hr
  rfl

theorem bind {m : Parse α} {f : α → Parse β} (hm : IdlesAtEnd m) (hf : ∀ a, IdlesAtEnd (f a)) :
    IdlesAtEnd (m >>= f) := fun c hc b d hr => by
  cases hstep : m.run c with
  | error e =>
    rw [error_bind hstep] at hr
    cases hr
  | ok r =>
    rw [ok_bind hstep, hm c hc _ _ hstep] at hr
    exact hf _ c hc b d hr

theorem peek_bind {f : Token × Position → Parse β} (h : ∀ p, IdlesAtEnd (f (.ended, p))) :
    IdlesAtEnd (peek >>= f) := fun c hc => by
  have ⟨p, hp⟩ := hc
  rw [ok_bind (peek_run hp)]
  exact h p c hc

theorem deeper_bind (s : Setting) {f : Setting → Parse β} (h : ∀ s, IdlesAtEnd (f s)) :
    IdlesAtEnd (s.deeper >>= f) := by
  unfold Setting.deeper
  split
  · exact fun c _ b d hr => by cases hr
  · exact fun c hc => h _ c hc

theorem ite {p : Prop} [Decidable p] {a b : Parse α} (ha : IdlesAtEnd a) (hb : IdlesAtEnd b) :
    IdlesAtEnd (if p then a else b) := by
  split
  · exact ha
  · exact hb

end IdlesAtEnd

namespace FailsAtEnd

theorem idles {m : Parse α} (h : FailsAtEnd m) : IdlesAtEnd m := fun c hc a d hr => by
  obtain ⟨e, he⟩ := h c hc
  rw [he] at hr
  cases hr

/-- A parser that fails behind one that takes nothing. -/
theorem behind {m : Parse α} {f : α → Parse β} (hm : IdlesAtEnd m) (hf : ∀ a, FailsAtEnd (f a)) :
    FailsAtEnd (m >>= f) := fun c hc => by
  cases hstep : m.run c with
  | error e => exact ⟨e, error_bind hstep f⟩
  | ok r =>
    rw [ok_bind hstep, hm c hc _ _ hstep]
    exact hf _ c hc

end FailsAtEnd

/-- Whenever the first parser gives a result, the second one gives a result as well; from related states to related
ones. -/
def Echoes (P : Cursor → Cursor → Prop) (m : Parse α) (m' : Parse α') (Q : α → α' → Cursor → Cursor → Prop) : Prop :=
  ∀ c c' a d, P c c' → m.run c = .ok (a, d) → ∃ a' d', m'.run c' = .ok (a', d') ∧ Q a a' d d'

/-- Both results are the same. -/
def Giving (Q : Cursor → Cursor → Prop) (a a' : α) (c c' : Cursor) : Prop := a' = a ∧ Q c c'

/-- What is read at the end of a script is read in front of a closing parenthesis as well. -/
abbrev Reads (same : Bool) (m m' : Parse α) : Prop := Echoes (Beside same) m m' (Giving (Beside same))

/-- The same of a parser that begins at a token. -/
abbrev ReadsAt (same : Bool) (t : Token × Position) (m m' : Parse α) : Prop :=
  Echoes (Before same t) m m' (Giving (Beside same))

namespace Echoes

variable {P P' : Cursor → Cursor → Prop} {Q : β → β' → Cursor → Cursor → Prop} {same : Bool}

theorem of_le {m : Parse β} {m' : Parse β'} (h : Echoes P' m m' Q) (hP : ∀ c c', P c c' → P' c c') : Echoes P m m' Q :=
  fun c c' a d hc => h c c' a d (hP c c' hc)

theorem of_eq {a a' : α} {m : Parse β} {m' : Parse β'} (h : a' = a → Echoes P m m' Q) : Echoes (Giving P a a') m m' Q :=
  fun c c' b d hc => h hc.1 c c' b d hc.2

theorem giving_of_le {R R' : Cursor → Cursor → Prop} {m m' : Parse β} (h : Echoes P m m' (Giving R))
    (hR : ∀ c c', R c c' → R' c c') : Echoes P m m' (Giving R') := fun c c' a d hc hr =>
  have ⟨a', d', hr', ha, hd⟩ := h c c' a d hc hr
  ⟨a', d', hr', ha, hR d d' hd⟩

/-- The next token does not matter. -/
theorem any {t : Token × Position} {m : Parse β} {m' : Parse β'} (h : Echoes (Beside same) m m' Q) :
    Echoes (Before same t) m m' Q := h.of_le fun _ _ h => h.1

/-- The token just taken does not matter. -/
theorem behind {t : Token} {m : Parse β} {m' : Parse β'} (h : Echoes (Beside same) m m' Q) :
    Echoes (Behind same t) m m' Q := h.of_le fun _ _ h => h.1

/-- It does not matter that nothing is left. -/
theorem atEnd {m : Parse β} {m' : Parse β'} (h : Echoes (Beside same) m m' Q) : Echoes (AtEnd same) m m' Q :=
  h.of_le fun _ _ h => h.1

/-- The next token is there. -/
theorem before {t : Token × Position} {m : Parse β} {m' : Parse β'} (h : Echoes (BeforeEnd same) m m' Q) :
    Echoes (Before same t) m m' Q := by
  refine h.of_le fun c c' ⟨hc, ht, hhead⟩ => ⟨hc, ?_⟩
  obtain ⟨htokens, -⟩ := hc
  refine htokens.length_of_not_ended ?_
  rintro ⟨p, hp⟩
  rw [hp] at hhead
  exact ht (congrArg Prod.fst (Option.some.inj hhead)).symm

/-- The script may not end here. -/
theorem beforeEnd {m : Parse β} {m' : Parse β'} (h : Echoes (BeforeEnd same) m m' Q) (hend : FailsAtEnd m) :
    Echoes (Beside same) m m' Q := fun c c' b d hc hr => by
  by_cases hended : Tokens.Ended c.tokens
  · obtain ⟨e, he⟩ := hend c hended
    rw [he] at hr
    cases hr
  · refine h c c' b d ⟨hc, ?_⟩ hr
    obtain ⟨htokens, -⟩ := hc
    exact htokens.length_of_not_ended hended

theorem fails {m : Parse β} (h : Fails m) (m' : Parse β') : Echoes P m m' Q := fun c _ a d _ hr => by
  obtain ⟨e, he⟩ := h c
  rw [he] at hr
  cases hr

theorem failsAtEnd {m : Parse β} (h : FailsAtEnd m) (m' : Parse β') : Echoes (AtEnd same) m m' Q :=
  fun c _ a d hc hr => by
    obtain ⟨e, he⟩ := h c hc.2
    rw [he] at hr
    cases hr

theorem pure_of {b : β} {b' : β'} (h : ∀ c c', P c c' → Q b b' c c') : Echoes P (Pure.pure b) (Pure.pure b') Q :=
  fun c c' a d hc hr => by
    cases hr
    exact ⟨b', c', rfl, h c c' hc⟩

theorem pure (b : β) : Echoes P (Pure.pure b) (Pure.pure b) (Giving P) := pure_of fun _ _ h => ⟨rfl, h⟩

theorem bind_of {R : α → α' → Cursor → Cursor → Prop} {m : Parse α} {m' : Parse α'} {f : α → Parse β}
    {f' : α' → Parse β'} (hm : Echoes P m m' R) (hf : ∀ a a', Echoes (R a a') (f a) (f' a') Q) :
    Echoes P (m >>= f) (m' >>= f') Q := fun c c' b d hc hr => by
  cases hstep : m.run c with
  | error e =>
    rw [error_bind hstep] at hr
    cases hr
  | ok r =>
    obtain ⟨a, d⟩ := r
    obtain ⟨a', d', hstep', hd⟩ := hm c c' a d hc hstep
    rw [ok_bind hstep] at hr
    rw [ok_bind hstep']
    exact hf a a' d d' _ _ hd hr

/-- A step that gives both the same result. -/
theorem bind {R : Cursor → Cursor → Prop} {m m' : Parse α} {f : α → Parse β} {f' : α → Parse β'}
    (hm : Echoes P m m' (Giving R)) (hf : ∀ a, Echoes R (f a) (f' a) Q) : Echoes P (m >>= f) (m' >>= f') Q :=
  hm.bind_of fun a _ => of_eq fun h => h ▸ hf a

theorem map {R : Cursor → Cursor → Prop} {m m' : Parse α} (f : α → β) (hm : Echoes P m m' (Giving R)) :
    Echoes P (f <$> m) (f <$> m') (Giving R) := by
  rw [map_eq_pure_bind, map_eq_pure_bind]
  exact hm.bind fun _ => pure _

/-- A choice that both make alike. -/
theorem ite {p : Prop} [Decidable p] {a b : Parse β} {a' b' : Parse β'} (ha : p → Echoes P a a' Q)
    (hb : ¬p → Echoes P b b' Q) : Echoes P (if p then a else b) (if p then a' else b') Q := by
  split
  · exact ha ‹_›
  · exact hb ‹_›

/-- A look at the next token. -/
theorem peek_bind {f : Token × Position → Parse β} {f' : Token × Position → Parse β'}
    (hf : ∀ t, Echoes (Before same t) (f t) (f' t) Q)
    (hend : ∀ p q, Echoes (AtEnd same) (f (.ended, p)) (f' (.mark .rightParen, q)) Q) :
    Echoes (Beside same) (peek >>= f) (peek >>= f') Q := by
  rintro ⟨tokens, locals, start, externals, captures, routines⟩ _ b d ⟨htokens, houtside⟩ hr
  cases htokens with
  | close p q r => exact hend p q _ _ b d ⟨⟨.close p q r, houtside⟩, p, rfl⟩ hr
  | cons ht hbar hs => exact hf _ _ _ b d ⟨⟨.cons ht hbar hs, houtside⟩, ht, rfl⟩ hr

/-- A look at the next token, which is there. -/
theorem peek_bind_beforeEnd {f : Token × Position → Parse β} {f' : Token × Position → Parse β'}
    (hf : ∀ t, Echoes (Before same t) (f t) (f' t) Q) : Echoes (BeforeEnd same) (peek >>= f) (peek >>= f') Q := by
  rintro ⟨tokens, locals, start, externals, captures, routines⟩ _ b d ⟨⟨htokens, houtside⟩, hlength⟩ hr
  cases htokens with
  | close p q r => exact absurd hlength (Nat.lt_irrefl 1)
  | cons ht hbar hs => exact hf _ _ _ b d ⟨⟨.cons ht hbar hs, houtside⟩, ht, rfl⟩ hr

/-- A look at the next token that does not matter but for its position. -/
theorem look_bind {f : Token × Position → Parse β} {f' : Token × Position → Parse β'}
    (hf : ∀ t t', Echoes (Beside same) (f t) (f' t') Q) : Echoes (Beside same) (peek >>= f) (peek >>= f') Q :=
  peek_bind (fun t => any (hf t t)) fun _ _ => atEnd (hf _ _)

/-- The token that stands next is taken. -/
theorem take_bind {t : Token × Position} {f : Token × Position → Parse β} {f' : Token × Position → Parse β'}
    (hf : Echoes (Behind same t.1) (f t) (f' t) Q) : Echoes (Before same t) (next >>= f) (next >>= f') Q := by
  rintro ⟨tokens, locals, start, externals, captures, routines⟩ _ b d ⟨⟨htokens, houtside⟩, ht, hhead⟩ hr
  cases htokens with
  | close p q r => cases hhead; exact absurd rfl ht
  | @cons u _ _ _ _ hbar hs =>
    cases hhead
    -- something stands behind the token, at least the end of the script
    have hbehind : ∀ {rest rest' : Tokens}, Enclosed rest rest' → (u.isBar = true → 1 < rest.length) →
        Behind same u ⟨rest, locals, start, externals, captures, routines⟩
          ⟨rest', locals, start, _, captures, routines⟩ := fun hs hbar => ⟨⟨hs, houtside⟩, hbar⟩
    cases hs with
    | close p q r => exact hf _ _ b d (hbehind (.close p q r) hbar) hr
    | cons hu hbar' hs => exact hf _ _ b d (hbehind (.cons hu hbar' hs) hbar) hr

/-- A token is taken, and the script may not end here. -/
theorem next_bind {f : Token × Position → Parse β} {f' : Token × Position → Parse β'}
    (hf : ∀ t, Echoes (Behind same t.1) (f t) (f' t) Q) (hend : ∀ p, FailsAtEnd (f (.ended, p))) :
    Echoes (Beside same) (next >>= f) (next >>= f') Q := by
  intro c c' b d hc hr
  obtain ⟨t, ht⟩ | hended : (∃ t, Before same t c c') ∨ Tokens.Ended c.tokens := by
    obtain ⟨htokens, houtside⟩ := id hc
    generalize h : c.tokens = tokens at htokens
    cases htokens with
    | close p q r => exact .inr ⟨p, rfl⟩
    | cons ht hbar hs => exact .inl ⟨_, hc, ht, by rw [h]; rfl⟩
  · exact take_bind (hf t) c c' b d ht hr
  · obtain ⟨e, he⟩ := FailsAtEnd.next_bind hend c hended
    rw [he] at hr
    cases hr

theorem get_bind {f : Cursor → Parse β} {f' : Cursor → Parse β'}
    (hf : ∀ c c', P c c' → Echoes (fun d d' => d = c ∧ d' = c') (f c) (f' c') Q) :
    Echoes P (get >>= f) (get >>= f') Q :=
  fun c c' b d hc hr => hf c c' hc c c' b d ⟨rfl, rfl⟩ hr

/-- The state that was seen is still there. -/
theorem seen {c c' : Cursor} {m : Parse β} {m' : Parse β'} (h : Echoes P m m' Q) (hc : P c c') :
    Echoes (fun d d' => d = c ∧ d' = c') m m' Q :=
  h.of_le fun _ _ ⟨hd, hd'⟩ => hd ▸ hd' ▸ hc

theorem set_of {c c' : Cursor} (hc : P' c c') : Echoes P (set c : Parse PUnit) (set c') (Giving P') :=
  fun _ _ _ _ _ hr => by
    cases hr
    exact ⟨⟨⟩, c', rfl, rfl, hc⟩

theorem modify_of {f f' : Cursor → Cursor} (hf : ∀ c c', P c c' → P' (f c) (f' c')) :
    Echoes P (modify f : Parse PUnit) (modify f') (Giving P') := fun c c' _ _ hc hr => by
  cases hr
  exact ⟨⟨⟩, f' c', rfl, rfl, hf c c' hc⟩

/-- What each round keeps, the rounds keep; the second parser has one token more and so at least as many rounds. -/
theorem iterate_of {I : α → α' → Cursor → Cursor → Prop} {step : α → Parse (α ⊕ β)} {step' : α' → Parse (α' ⊕ β')}
    (h : ∀ a a', Echoes (I a a') (step a) (step' a') fun r r' c c' => Sum.LiftRel (I · · c c') (Q · · c c') r r')
    (hI : ∀ a a' c c', I a a' c c' → Beside same c c') (a : α) (a' : α') :
    Echoes (I a a') (iterate step a) (iterate step' a') Q := by
  have hrounds : ∀ n n', n ≤ n' → ∀ a a', Echoes (I a a') (iterate.rounds step n a) (iterate.rounds step' n' a') Q := by
    intro n
    induction n with
    | zero => exact fun n' _ a a' => .fails (.behind fun _ => .refuse _ _) _
    | succ n ih =>
      intro n' hn a a'
      obtain ⟨n', rfl⟩ := Nat.exists_eq_add_one_of_ne_zero (Nat.ne_zero_of_lt hn)
      refine (h a a').bind_of fun r r' c c' b d hr => ?_
      cases hr with
      | inl ha => exact ih n' (Nat.le_of_succ_le_succ hn) _ _ c c' b d ha
      | inr hb => exact pure_of (P := fun d d' => d = c ∧ d' = c') (fun _ _ ⟨hd, hd'⟩ => hd ▸ hd' ▸ hb) c c' b d ⟨rfl, rfl⟩
  intro c c' b d hc hr
  have hlength : c.tokens.length + 1 ≤ c'.tokens.length + 1 := by
    obtain ⟨htokens, -⟩ := hI a a' c c' hc
    exact Nat.add_le_add_right (htokens.length_eq ▸ Nat.le_succ _) 1
  exact hrounds _ _ hlength a a' c c' b d hc hr

/-- Rounds that give both related states. -/
theorem iterate_related {R : α → α' → Prop} {step : α → Parse (α ⊕ β)} {step' : α' → Parse (α' ⊕ β)}
    (h : ∀ a a', R a a' → Echoes (Beside same) (step a) (step' a') fun r r' c c' =>
      Sum.LiftRel R (fun b b' => b' = b) r r' ∧ Beside same c c')
    {a : α} {a' : α'} (ha : R a a') : Echoes (Beside same) (iterate step a) (iterate step' a') (Giving (Beside same)) := by
  let I (a : α) (a' : α') (c c' : Cursor) : Prop := R a a' ∧ Beside same c c'
  refine (iterate_of (I := I) (fun a a' => ?_) (fun _ _ _ _ h => h.2) a a').of_le fun _ _ hc => ⟨ha, hc⟩
  rintro c c' r d ⟨ha, hc⟩ hr
  obtain ⟨r', d', hr', hrr, hd⟩ := h a a' ha c c' r d hc hr
  refine ⟨r', d', hr', ?_⟩
  cases hrr with
  | inl ha => exact .inl ⟨ha, hd⟩
  | inr hb => exact .inr ⟨hb, hd⟩

/-- Rounds that give both the same results. -/
theorem iterate {step step' : α → Parse (α ⊕ β)} (h : ∀ a, Reads same (step a) (step' a)) (a : α) :
    Reads same (Parse.iterate step a) (Parse.iterate step' a) := by
  refine iterate_related (R := Eq) ?_ rfl
  rintro a _ rfl c c' r d hc hr
  obtain ⟨r, d', hr', rfl, hd⟩ := h a c c' r d hc hr
  refine ⟨r, d', hr', ?_, hd⟩
  cases r with
  | inl a => exact .inl rfl
  | inr b => exact .inr rfl

/-! ## The steps of parsers -/

/-- One level deeper.  The second parser has at least as much room. -/
theorem deeper_bind {s : Setting} {level limit : Nat} {pos : Position} (hs : s.Leaves level limit)
    {f : Setting → Parse β} {f' : Setting → Parse β'}
    (h : ∀ (t : Setting) (level : Nat), t.Leaves level limit → Echoes P (f t) (f' (t.moved level limit pos)) Q) :
    Echoes P (s.deeper >>= f) ((s.moved level limit pos).deeper >>= f') Q := by
  unfold Setting.deeper
  by_cases hdeep : s.limit > 0 ∧ s.level + 1 > s.limit
  · rw [if_pos hdeep]
    exact fails ((Fails.refuse _ _).bind f) _
  · have hdeep' : ¬((s.moved level limit pos).limit > 0 ∧
        (s.moved level limit pos).level + 1 > (s.moved level limit pos).limit) := by
      simp only [Setting.Leaves, Setting.moved] at *
      omega
    rw [if_neg hdeep, if_neg hdeep']
    refine fun c c' b d hc hr => h { s with level := s.level + 1 } (level + 1) ?_ c c' b d hc hr
    simp only [Setting.Leaves] at *
    omega

theorem deeperAt_bind {s : Setting} {level limit : Nat} {pos : Position} (hs : s.Leaves level limit) (p q : Position)
    {f : Setting → Parse β} {f' : Setting → Parse β'}
    (h : ∀ (t : Setting) (level : Nat), t.Leaves level limit → Echoes P (f t) (f' (t.moved level limit q)) Q) :
    Echoes P (s.deeperAt p >>= f) ((s.moved level limit pos).deeperAt q >>= f') Q :=
  deeper_bind (s := { s with pos := p }) hs h

/-- A token that a parser takes where it stands. -/
theorem accept_bind {t : Token} (ht : ∀ u : Token, (u == t) = true → u = t) (hended : t ≠ .ended)
    {f : Bool → Parse β} {f' : Bool → Parse β'} (htrue : Echoes (Behind same t) (f true) (f' true) Q)
    (hfalse : Echoes (Beside same) (f false) (f' false) Q) (hend : t = .mark .rightParen → FailsAtEnd (f false)) :
    Echoes (Beside same) (accept t >>= f) (accept t >>= f') Q := by
  unfold accept
  simp only [bind_assoc]
  refine peek_bind ?_ fun p q => ?_
  · rintro ⟨u, p⟩
    dsimp only
    split
    · simp only [bind_assoc, pure_bind]
      exact take_bind (ht u ‹_› ▸ htrue)
    · exact any hfalse
  · have hnone : ((.ended : Token) == t) = false := Bool.eq_false_iff.2 fun h => hended (ht _ h).symm
    dsimp only
    rw [hnone, if_neg Bool.false_ne_true]
    by_cases hclose : t = .mark .rightParen
    · exact failsAtEnd (hend hclose) _
    · have hother : ((.mark .rightParen : Token) == t) = false := Bool.eq_false_iff.2 fun h => hclose (ht _ h).symm
      rw [hother, if_neg Bool.false_ne_true]
      exact atEnd hfalse

theorem acceptMark {m : Mark} (hm : m ≠ .rightParen) : Reads same (acceptMark m) (acceptMark m) := by
  have h : Reads same (accept (.mark m) >>= Pure.pure) (accept (.mark m) >>= Pure.pure) :=
    accept_bind (fun _ => Token.eq_mark_of_beq) nofun (behind (pure true)) (pure false) fun h =>
      absurd (Token.mark.inj h) hm
  rwa [bind_pure] at h

theorem acceptWord (k : Keyword) : Reads same (accept (.word k)) (accept (.word k)) := by
  have h : Reads same (accept (.word k) >>= Pure.pure) (accept (.word k) >>= Pure.pure) :=
    accept_bind (fun _ => Token.eq_word_of_beq) nofun (behind (pure true)) (pure false) nofun
  rwa [bind_pure] at h

theorem expectMark (m : Mark) (purpose : String) : Reads same (expectMark m purpose) (expectMark m purpose) := by
  unfold Parse.expectMark
  refine next_bind (fun t => behind (ite (fun _ => pure _) fun _ => fails (.missing _ _ _ _) _)) fun p => ?_
  exact (Fails.missing .ended p m.text purpose).atEnd

theorem refuseBlock (kind : String) : Reads same (refuseBlock kind) (refuseBlock kind) := by
  unfold Parse.refuseBlock
  refine peek_bind (fun t => ?_) fun p q => fails (.refuse _ _) _
  split
  · exact fails (.refuse _ _) _
  · exact fails (.refuse _ _) _
  · exact any (pure _)

theorem refuseAssignment : Reads same refuseAssignment refuseAssignment := by
  unfold Parse.refuseAssignment
  refine peek_bind (fun t => ?_) fun p q => atEnd (pure _)
  split
  · exact fails (.refuse _ _) _
  · exact any (pure _)

theorem variableName : Reads same variableName variableName := by
  unfold Parse.variableName
  refine next_bind (fun t => behind ?_) fun p => (Fails.refuse _ _).atEnd
  split
  · exact pure _
  · exact ite (fun _ => fails (.refuse _ _) _) fun _ => fails (.refuse _ _) _
  · exact fails (.refuse _ _) _
  · exact fails (.refuse _ _) _

theorem access (name : String) (p : Place) : Reads same (access name p) (access name p) := by
  rintro c _ b d ⟨htokens, houtside⟩ hr
  rw [access_run] at hr ⊢
  cases hr
  refine ⟨_, _, rfl, rfl, htokens, fun h => ?_⟩
  simp only [accessed, houtside h]

theorem modify_captures (captures : Bool) : Reads same (modify fun c => { c with captures := captures } : Parse PUnit)
    (modify fun c => { c with captures := captures }) :=
  modify_of fun _ _ ⟨htokens, houtside⟩ => ⟨htokens, houtside⟩

theorem declare (name : String) (readOnly : Bool) : Reads same (declare name readOnly) (declare name readOnly) :=
  modify_of fun _ _ ⟨htokens, houtside⟩ => ⟨htokens, houtside⟩

theorem redeclare (name : String) (readOnly : Bool) : Reads same (redeclare name readOnly) (redeclare name readOnly) := by
  unfold Parse.redeclare
  refine get_bind ?_
  rintro c _ ⟨htokens, houtside⟩
  refine ite (fun _ => bind (set_of ⟨htokens, houtside⟩) fun _ => pure _) fun _ => ?_
  exact seen (bind (declare _ _) fun _ => pure _) ⟨htokens, houtside⟩

theorem forget (n : Nat) : Reads same (forget n) (forget n) :=
  modify_of fun _ _ ⟨htokens, houtside⟩ => ⟨htokens, houtside⟩

theorem asCondition (e : Expr) : Reads same e.asCondition e.asCondition := by
  unfold Expr.asCondition
  split
  · exact fails (.throw _) _
  · exact pure _

theorem asIterable (e : Expr) : Reads same e.asIterable e.asIterable := by
  unfold Expr.asIterable
  dsimp only
  split
  all_goals first | exact fails (.throw _) _ | exact pure _

theorem forIn (l : List α) {body : α → β → Parse (ForInStep β)} (h : ∀ a b, Reads same (body a b) (body a b)) (b : β) :
    Reads same (ForIn.forIn l b body) (ForIn.forIn l b body) := by
  induction l generalizing b with
  | nil => exact pure b
  | cons a l ih =>
    rw [List.forIn_cons]
    refine bind (h a b) fun r => ?_
    cases r with
    | done b => exact pure b
    | yield b => exact ih b

end Echoes

end Parse

/-- The parsers of nested code read in front of a closing parenthesis what they read at the end of a script.  A statement
that begins at the end does nothing. -/
structure Grammar.Agree (g g' : Grammar) : Prop where
  expression : ∀ {same : Bool} {s : Setting} {level limit : Nat} {pos : Position}, s.Leaves level limit →
    Parse.Reads same (g.expression s) (g'.expression (s.moved level limit pos))
  unary : ∀ {same : Bool} {s : Setting} {level limit : Nat} {pos : Position}, s.Leaves level limit →
    Parse.Reads same (g.unary s) (g'.unary (s.moved level limit pos))
  primary : ∀ {same : Bool} {s : Setting} {level limit : Nat} {pos : Position}, s.Leaves level limit →
    Parse.Reads same (g.primary s) (g'.primary (s.moved level limit pos))
  binary : ∀ (strength : Nat) (e : Expr) {same : Bool} {s : Setting} {level limit : Nat} {pos : Position},
    s.Leaves level limit → Parse.Reads same (g.binary strength e s) (g'.binary strength e (s.moved level limit pos))
  statement : ∀ {same : Bool} {s : Setting} {level limit : Nat} {pos : Position}, s.Leaves level limit →
    Parse.Echoes (Cursor.BeforeEnd same) (g.statement s) (g'.statement (s.moved level limit pos))
      (Parse.Giving (Cursor.Beside same))
  expression_atEnd : ∀ s, Parse.FailsAtEnd (g.expression s)
  unary_atEnd : ∀ s, Parse.FailsAtEnd (g.unary s)
  statement_atEnd : ∀ s, Parse.IdlesAtEnd (g.statement s)

end Lang
end ArmPilot
