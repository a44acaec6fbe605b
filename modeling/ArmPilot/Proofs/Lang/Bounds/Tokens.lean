import ArmPilot.Proofs.Lang.Bounds.Basic

/-!
# Tokens under wider bounds

A script has the same tokens under a wider bound on texts, unless one of its texts is too long; that text is then a
fault among the tokens.
-/

namespace ArmPilot
namespace Lang

variable {l l' : Nat} {α : Type}

/-- A result is another one, or it is of a kind of its own. -/
def Alike (P : α → Prop) (r r' : α) : Prop := r = r' ∨ P r

namespace Alike

variable {P : α → Prop}

theorem refl (r : α) : Alike P r r := .inl rfl

theorem ite {p : Prop} [Decidable p] {a b a' b' : α} (ha : Alike P a a') (hb : Alike P b b') :
    Alike P (if p then a else b) (if p then a' else b') := by
  split
  · exact ha
  · exact hb

end Alike

/-- A text is read as under a wider bound unless it is too long. -/
def ReadAlike (l : Nat) : Except (LexFault × Position) α → Except (LexFault × Position) α → Prop :=
  Alike fun r => ∃ p, r = .error (.stringTooLong l, p)

/-- A look at the length of a text. -/
theorem Alike.limited (h : Tighter l l') {size : Nat} {p : Position} {a a' : Except (LexFault × Position) α}
    (ha : ReadAlike l a a') :
    ReadAlike l (if l > 0 ∧ size > l then .error (.stringTooLong l, p) else a)
      (if l' > 0 ∧ size > l' then .error (.stringTooLong l', p) else a') := by
  by_cases hl : l > 0 ∧ size > l
  · rw [if_pos hl]
    exact .inr ⟨p, rfl⟩
  · have hl' : ¬(l' > 0 ∧ size > l') := by
      simp only [Tighter] at h
      omega
    rwa [if_neg hl, if_neg hl']

theorem finish_alike (h : Tighter l l') (start : Position) (acc : List Char) (size : Nat) (begins : Place)
    (embedded unfinished : Bool) (s : Scan) :
    ReadAlike l (readQuoted.finish l start acc size begins embedded unfinished s)
      (readQuoted.finish l' start acc size begins embedded unfinished s) :=
  .limited h (.refl _)

theorem readQuoted_alike (h : Tighter l l') (q : Quoting) (start : Position) :
    ∀ fuel acc size begins margin s, ReadAlike l (readQuoted q l start fuel acc size begins margin s)
      (readQuoted q l' start fuel acc size begins margin s)
  | 0, _, _, _, _, _ => .refl _
  | _ + 1, acc, size, begins, margin, ⟨[], p⟩ => by
    rw [readQuoted, readQuoted]
    exact .ite (finish_alike h start _ _ _ _ _ _) (.refl _)
  | fuel + 1, acc, size, begins, margin, ⟨c :: rest, p⟩ => by
    have ih := readQuoted_alike h q start fuel
    have hfinish := finish_alike h start
    rw [readQuoted, readQuoted]
    dsimp only
    refine .ite (hfinish _ _ _ _ _ _) (.ite (ih _ _ _ _ _) (.limited h (.ite (hfinish _ _ _ _ _ _) ?_)))
    refine .ite (ih _ _ _ _ _) (.ite (ih _ _ _ _ _) (.ite ?_ ?_))
    · generalize behindBackslash _ = s
      obtain ⟨⟨⟩ | ⟨e, rest⟩, p⟩ := s
      · exact .ite (hfinish _ _ _ _ _ _) (.refl _)
      refine .ite (ih _ _ _ _ _) (.ite (ih _ _ _ _ _) (.ite (ih _ _ _ _ _) (.ite (ih _ _ _ _ _) (.ite ?_ ?_))))
      · generalize readEscape _ _ _ _ = r
        obtain f | ⟨ch, s⟩ := r
        · exact .refl _
        · exact ih _ _ _ _ _
      · exact .ite (ih _ _ _ _ _) (.ite (.refl _) (.ite (ih _ _ _ _ _) (.refl _)))
    · exact .ite (.ite (ih _ _ _ _ _) (.refl _)) (.ite (ih _ _ _ _ _) (ih _ _ _ _ _))

theorem readRaw_alike (h : Tighter l l') (wanted : Nat) (start : Position) :
    ∀ hashes acc size cs p, ReadAlike l (readRaw wanted l start hashes acc size cs p)
      (readRaw wanted l' start hashes acc size cs p)
  | _, _, _, [], _ => by
    unfold readRaw
    exact .refl _
  | none, acc, size, c :: rest, p => by
    have ih := fun hashes acc size p => readRaw_alike h wanted start hashes acc size rest p
    rw [readRaw, readRaw]
    exact .ite (.limited h (ih _ _ _ _)) (.limited h (ih _ _ _ _))
  | some n, acc, size, c :: rest, p => by
    have ih := fun hashes acc size p => readRaw_alike h wanted start hashes acc size rest p
    rw [readRaw, readRaw]
    refine .ite (.ite (.refl _) (.limited h (ih _ _ _ _))) (.ite (.limited h (ih _ _ _ _)) (.limited h (ih _ _ _ _)))

theorem readHashed_alike (h : Tighter l l') (start : Position) (s : Scan) :
    ReadAlike l (readHashed l start s) (readHashed l' start s) := by
  unfold readHashed
  split
  split
  · exact .refl _
  · exact readRaw_alike h _ _ _ _ _ _ _
  · exact .refl _

/-- A token is read as under a wider bound unless it is a text that is too long. -/
def TokenAlike (l : Nat) : Token × Position × Scan × Bool → Token × Position × Scan × Bool → Prop :=
  Alike fun r => ∃ p s, r = (.fault (.stringTooLong l), p, s, false)

theorem quoted_alike (h : Tighter l l') (q : Quoting) (start : Position) (s : Scan) :
    TokenAlike l (readToken.quoted l q start s) (readToken.quoted l' q start s) := by
  unfold readToken.quoted
  obtain hr | ⟨p, hr⟩ := readQuoted_alike h q start (s.rest.length + 1) [] 0 none 0 s
  · rw [hr]
    exact .refl _
  · rw [hr]
    exact .inr ⟨p, _, rfl⟩

theorem readTextPart_alike (h : Tighter l l') (s : Scan) : TokenAlike l (readTextPart l s) (readTextPart l' s) := by
  unfold readTextPart
  obtain hr | ⟨p, hr⟩ := readQuoted_alike h .back s.at_ (s.rest.length + 1) [] 0 none 0 s
  · rw [hr]
    exact .refl _
  · rw [hr]
    exact .inr ⟨p, _, rfl⟩

theorem readToken_alike (h : Tighter l l') (signed : Bool) :
    ∀ fuel s, TokenAlike l (readToken l signed fuel s) (readToken l' signed fuel s)
  | 0, _ => .refl _
  | _ + 1, ⟨[], _⟩ => .refl _
  | fuel + 1, ⟨c :: rest, p⟩ => by
    have ih := readToken_alike h signed fuel
    rw [readToken, readToken]
    dsimp only
    refine .ite (ih _) (.ite (.refl _) (.ite (.refl _) (.ite (quoted_alike h _ _ _) (.ite (quoted_alike h _ _ _) ?_))))
    refine .ite ?_ (.ite ?_ (.ite (ih _) (.ite (ih _) (.ite (ih _) (.refl _)))))
    · obtain hr | ⟨q, hr⟩ := readHashed_alike h p.advance ⟨c :: rest, p⟩
      · rw [hr]
        exact .refl _
      · rw [hr]
        exact .inr ⟨q, _, rfl⟩
    · split
      · exact .refl _
      · exact quoted_alike h _ _ _

/-- A script has the tokens that it has under a wider bound unless one of its texts is too long. -/
def TokensAlike (l : Nat) : List (Token × Position) → List (Token × Position) → Prop :=
  Alike fun ts => ∃ p, (.fault (.stringTooLong l), p) ∈ ts

theorem Alike.cons (t : Token × Position) {ts ts' : List (Token × Position)} (h : TokensAlike l ts ts') :
    TokensAlike l (t :: ts) (t :: ts') := by
  obtain rfl | ⟨p, hp⟩ := h
  · exact .refl _
  · exact .inr ⟨p, .tail _ hp⟩

theorem tokensFrom_alike (h : Tighter l l') :
    ∀ fuel signed open_ inText s,
      TokensAlike l (tokensFrom l fuel signed open_ inText s) (tokensFrom l' fuel signed open_ inText s)
  | 0, _, _, _, _ => .refl _
  | fuel + 1, signed, open_, inText, s => by
    have ih := tokensFrom_alike h fuel
    have hr : TokenAlike l (if inText then readTextPart l s else readToken l signed (s.rest.length + 1) s)
        (if inText then readTextPart l' s else readToken l' signed (s.rest.length + 1) s) :=
      .ite (readTextPart_alike h s) (readToken_alike h signed _ s)
    rw [tokensFrom, tokensFrom]
    obtain hr | ⟨p, s', hr⟩ := hr
    · rw [hr]
      refine .ite (.refl _) (.ite (.cons _ (ih _ _ _ _)) ?_)
      split
      all_goals exact .cons _ (ih _ _ _ _)
    · rw [hr]
      exact .inr ⟨p, by cases open_ <;> exact .head _⟩

/-- A text of a script is found to be too long for a bound. -/
def Overlong (l : Nat) (text : String) : Prop := 0 < l ∧ ∃ p, (.fault (.stringTooLong l), p) ∈ tokenize l text

/-- **A bound on texts changes no token of a script but a text that is too long.** -/
theorem tokenize_alike (h : Tighter l l') {text : String} (hl : ¬Overlong l text) :
    tokenize l text = tokenize l' text := by
  obtain rfl | ⟨hpos, -⟩ := id h
  · obtain rfl | hpos := Nat.eq_zero_or_pos l
    · rfl
    · exact (tokensFrom_alike h _ _ _ _ _).resolve_right fun hp => hl ⟨hpos, hp⟩
  · exact (tokensFrom_alike h _ _ _ _ _).resolve_right fun hp => hl ⟨hpos, hp⟩

end Lang
end ArmPilot
