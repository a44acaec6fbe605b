import ArmPilot.Lang.Lexer

/-!
# The lexer goes on

Every token but the end takes a character of the script, so the number of rounds that the lexer is given does not matter
as long as there is one for each character (`tokensFrom_of_le`).
-/

namespace ArmPilot
namespace Lang

/-- Of a text that is read, at most so many characters are left. -/
def ReadUpTo (n : Nat) (r : Except (LexFault × Position) Quoted) : Prop := ∀ q, r = .ok q → q.rest.rest.length ≤ n

namespace ReadUpTo

variable {n m : Nat} {r : Except (LexFault × Position) Quoted}

theorem error (f : LexFault × Position) : ReadUpTo n (.error f) := nofun

theorem ok {q : Quoted} (h : q.rest.rest.length ≤ n) : ReadUpTo n (.ok q) := by
  rintro _ ⟨⟩
  exact h

theorem mono (h : ReadUpTo m r) (hm : m ≤ n) : ReadUpTo n r := fun q hq => Nat.le_trans (h q hq) hm

theorem ite {p : Prop} [Decidable p] {a b : Except (LexFault × Position) Quoted} (ha : ReadUpTo n a)
    (hb : ReadUpTo n b) : ReadUpTo n (if p then a else b) := by
  split
  · exact ha
  · exact hb

end ReadUpTo

namespace Scan

theorem length_step (s : Scan) : s.step.rest.length = s.rest.length - 1 := by
  unfold step
  split
  · rename_i h
    rw [h]
    rfl
  · rename_i h
    rw [h]
    rfl

end Scan

theorem readEscape_le : ∀ (n value : Nat) (spelt : List Char) (s : Scan) (ch : Char) (s' : Scan),
    readEscape n value spelt s = .ok (ch, s') → s'.rest.length ≤ s.rest.length
  | 0, value, spelt, s, ch, s', h => by
    unfold readEscape at h
    split at h
    · cases h
      exact Nat.le_refl _
    · cases h
  | n + 1, value, spelt, s, ch, s', h => by
    unfold readEscape at h
    split at h
    · cases h
    · dsimp only at h
      split at h
      · have := readEscape_le n _ _ _ ch s' h
        have := s.length_step
        omega
      · cases h

theorem finish_le (limit : Nat) (start : Position) (acc : List Char) (size : Nat) (begins : Place)
    (embedded unfinished : Bool) (s : Scan) :
    ReadUpTo s.rest.length (readQuoted.finish limit start acc size begins embedded unfinished s) :=
  .ite (.error _) (.ok (Nat.le_refl _))

theorem length_behindBackslash (s : Scan) : (behindBackslash s).rest.length ≤ s.rest.length := by
  unfold behindBackslash
  split
  · have := s.length_step
    omega
  · exact Nat.le_refl _

/-- A text takes at least one character, if there is one. -/
theorem readQuoted_le (q : Quoting) (limit : Nat) (start : Position) : ∀ fuel acc size begins margin s,
    ReadUpTo (s.rest.length - 1) (readQuoted q limit start fuel acc size begins margin s)
  | 0, _, _, _, _, _ => .error _
  | _ + 1, acc, size, begins, margin, ⟨[], p⟩ => by
    rw [readQuoted]
    exact .ite (finish_le _ _ _ _ _ _ _ _) (.error _)
  | fuel + 1, acc, size, begins, margin, ⟨c :: rest, p⟩ => by
    have hgo : ∀ acc size begins margin (s : Scan), s.rest.length ≤ rest.length →
        ReadUpTo rest.length (readQuoted q limit start fuel acc size begins margin s) := fun _ _ _ _ s hs =>
      (readQuoted_le q limit start fuel _ _ _ _ s).mono (Nat.le_trans (Nat.sub_le _ _) hs)
    have hfinish : ∀ acc size begins embedded unfinished (s : Scan), s.rest.length ≤ rest.length →
        ReadUpTo rest.length (readQuoted.finish limit start acc size begins embedded unfinished s) :=
      fun _ _ _ _ _ s hs => (finish_le _ _ _ _ _ _ _ s).mono hs
    have hstep : (Scan.step ⟨c :: rest, p⟩).rest.length ≤ rest.length := Nat.le_refl _
    rw [readQuoted]
    dsimp only
    generalize Scan.step ⟨c :: rest, p⟩ = s at hstep
    have hnext : (if c = q.close then s.step else s).rest.length ≤ rest.length := by
      have := s.length_step
      split
      · omega
      · exact hstep
    refine .ite (hfinish _ _ _ _ _ _ hstep) (.ite (hgo _ _ _ _ _ ?_) (.ite (.error _) ?_))
    · exact Nat.le_trans (List.length_drop ▸ Nat.sub_le _ _) hstep
    refine .ite (hfinish _ _ _ _ _ _ hstep) ?_
    generalize (if c = q.close then s.step else s) = s at hnext
    refine .ite (hgo _ _ _ _ _ hnext) (.ite (hgo _ _ _ _ _ hnext) (.ite ?_ (.ite ?_ ?_)))
    · have hbehind := Nat.le_trans (length_behindBackslash s) hnext
      generalize behindBackslash s = s at hbehind
      obtain ⟨⟨⟩ | ⟨e, more⟩, p⟩ := s
      · exact .ite (hfinish _ _ _ _ _ _ hbehind) (.error _)
      have hmore : more.length ≤ rest.length := Nat.le_of_succ_le hbehind
      refine .ite (hgo _ _ _ _ _ hmore) (.ite (hgo _ _ _ _ _ hmore) (.ite (hgo _ _ _ _ _ hmore) ?_))
      refine .ite (hgo _ _ _ _ _ hmore) (.ite ?_ ?_)
      · cases hescape : readEscape (if e = 'x' then 2 else if e = 'u' then 4 else 8) 0 [e, '\\']
          (Scan.step ⟨e :: more, p⟩) with
        | error f => exact .error _
        | ok r => exact hgo _ _ _ _ _ (Nat.le_trans (readEscape_le _ _ _ _ _ _ hescape) hmore)
      · exact .ite (hgo _ _ _ _ _ hmore) (.ite (.error _) (.ite (hgo _ _ _ _ _ hmore) (.error _)))
    · exact .ite (hgo _ _ _ _ _ hnext) (.error _)
    · exact .ite (hgo _ _ _ _ _ hnext) (hgo _ _ _ _ _ hnext)

theorem readRaw_le (wanted limit : Nat) (start : Position) : ∀ hashes acc size cs p,
    ReadUpTo cs.length (readRaw wanted limit start hashes acc size cs p)
  | _, _, _, [], _ => by
    unfold readRaw
    exact .error _
  | none, acc, size, c :: rest, p => by
    have ih := fun hashes acc size p => (readRaw_le wanted limit start hashes acc size rest p).mono (Nat.le_succ _)
    rw [readRaw]
    exact .ite (.ite (.error _) (ih _ _ _ _)) (.ite (.error _) (ih _ _ _ _))
  | some n, acc, size, c :: rest, p => by
    have ih := fun hashes acc size p => (readRaw_le wanted limit start hashes acc size rest p).mono (Nat.le_succ _)
    rw [readRaw]
    refine .ite (.ite (.ok (Nat.le_succ _)) (.ite (.error _) (ih _ _ _ _))) (.ite (.ite (.error _) (ih _ _ _ _)) ?_)
    exact .ite (.error _) (ih _ _ _ _)

theorem length_takeWhile (s : Scan) (p : Char → Bool) : (s.takeWhile p).2.rest.length ≤ s.rest.length :=
  (s.rest.dropWhile_suffix p).length_le

theorem readHashed_le (limit : Nat) (start : Position) (s : Scan) :
    ReadUpTo (s.rest.length - 1) (readHashed limit start s) := by
  have hhashes := length_takeWhile s (· = '#')
  unfold readHashed
  split
  rename_i hashes s' h
  rw [h] at hhashes
  split
  · exact .error _
  · rename_i rest hrest
    refine (readRaw_le _ _ _ _ _ _ _ _).mono ?_
    rw [hrest] at hhashes
    exact Nat.le_sub_one_of_lt hhashes
  · exact .error _

theorem Numeral.length_spell (spelt : List Char) (base : Option Nat) (signed : Bool) (cs : List Char) :
    (spell spelt base signed cs).rest.length ≤ cs.length := by
  fun_induction spell spelt base signed cs <;> first | exact Nat.le_refl _ | exact Nat.le_succ_of_le ‹_›

theorem length_skipBlockComment (cs : List Char) (p : Position) (level : Nat) :
    (skipBlockComment cs p level).rest.length ≤ cs.length := by
  fun_induction skipBlockComment cs p level <;> simp only [List.length_cons] at * <;> omega

theorem length_skipLineComment (cs : List Char) (p : Position) : (skipLineComment cs p).rest.length ≤ cs.length := by
  fun_induction skipLineComment cs p <;> simp only [List.length_cons] at * <;> omega

/-- Behind a token that is read, at most so many characters are left, unless it is the end. -/
def LeavesUpTo (n : Nat) (r : Token × Position × Scan × Bool) : Prop := (r.1 == .ended) = true ∨ r.2.2.1.rest.length ≤ n

namespace LeavesUpTo

variable {n m : Nat} {r r' : Token × Position × Scan × Bool}

theorem mono (h : LeavesUpTo m r) (hm : m ≤ n) : LeavesUpTo n r := h.imp id fun h => Nat.le_trans h hm

theorem ite_of {p : Prop} [Decidable p] (ha : p → LeavesUpTo n r) (hb : LeavesUpTo n r') :
    LeavesUpTo n (if p then r else r') := by
  split
  · exact ha ‹_›
  · exact hb

theorem ite {p : Prop} [Decidable p] (ha : LeavesUpTo n r) (hb : LeavesUpTo n r') :
    LeavesUpTo n (if p then r else r') := ite_of (fun _ => ha) hb

end LeavesUpTo

theorem quoted_leaves (limit : Nat) (q : Quoting) (start : Position) (s : Scan) :
    LeavesUpTo s.rest.length (readToken.quoted limit q start s) := by
  unfold readToken.quoted
  split
  · exact .inr (Nat.zero_le _)
  · rename_i r hr
    have hrest := Nat.le_trans (readQuoted_le _ _ _ _ _ _ _ _ s _ hr) (Nat.sub_le _ _)
    refine .ite (.inr hrest) (.ite ?_ (.ite (.inr hrest) (.inr hrest)))
    split
    · exact .inr hrest
    · exact .inr hrest

theorem number_leaves (negative : Bool) (start : Position) (s : Scan) :
    LeavesUpTo (s.rest.length - 1) (readToken.number negative start s) := by
  exact .inr (Nat.le_trans (Numeral.length_spell _ _ _ _) (Nat.le_of_eq List.length_drop))

theorem readMark?_length {s s' : Scan} {t : Token} (h : readMark? s = some (t, s')) :
    s'.rest.length ≤ s.rest.length - 1 := by
  have htable : ∀ entry ∈ markTable, 1 ≤ entry.1.length := by decide +kernel
  unfold readMark? at h
  obtain ⟨entry, hentry, heq⟩ := Option.map_eq_some_iff.1 h
  cases heq
  have := htable entry (List.mem_of_find?_eq_some hentry)
  rw [List.length_drop]
  omega

theorem readTextPart_leaves (limit : Nat) (s : Scan) : LeavesUpTo (s.rest.length - 1) (readTextPart limit s) := by
  unfold readTextPart
  split
  · exact .inr (Nat.zero_le _)
  · rename_i r hr
    have hrest := readQuoted_le _ _ _ _ _ _ _ _ s _ hr
    exact .ite (.inr hrest) (.ite (.inr hrest) (.inr hrest))

theorem readToken_leaves (limit : Nat) (signed : Bool) :
    ∀ fuel s, LeavesUpTo (s.rest.length - 1) (readToken limit signed fuel s)
  | 0, _ => .inl rfl
  | _ + 1, ⟨[], _⟩ => .inl rfl
  | fuel + 1, ⟨c :: rest, p⟩ => by
    have hagain : ∀ s : Scan, s.rest.length ≤ rest.length → LeavesUpTo rest.length (readToken limit signed fuel s) :=
      fun s hs => (readToken_leaves limit signed fuel s).mono (Nat.le_trans (Nat.sub_le _ _) hs)
    have hdrop : (rest.drop 1).length ≤ rest.length := List.length_drop ▸ Nat.sub_le _ _
    have hmark : ∀ {t : Token} {s : Scan}, readMark? ⟨c :: rest, p⟩ = some (t, s) → s.rest.length ≤ rest.length :=
      readMark?_length
    rw [readToken]
    dsimp only
    refine .ite (hagain _ (Nat.le_refl _)) (.ite (number_leaves _ _ _) (.ite_of (fun hc => .inr ?_) ?_))
    · have hpart : isNamePart c = true := by
        obtain h | rfl := hc
        · simp [isNamePart, h]
        · rfl
      have hword := (rest.dropWhile_suffix isNamePart).length_le
      rwa [Scan.takeWhile, List.dropWhile_cons_of_pos hpart]
    refine .ite (quoted_leaves _ _ _ _) ?_
    refine .ite ?_ (.ite ?_ (.ite ?_ (.ite (hagain _ ?_) (.ite (hagain _ ?_) (.ite (hagain _ (Nat.le_refl _)) ?_)))))
    · -- a line may break right behind the quote
      refine (quoted_leaves _ _ _ _).mono ?_
      have hstep : (Scan.step ⟨c :: rest, p⟩).rest.length = rest.length := rfl
      split
      all_goals
        try
          rename_i h
          rw [h] at hstep
        simp only [List.length_cons] at hstep ⊢
        omega
    · split
      · exact .inr (Nat.zero_le _)
      · exact .inr (readHashed_le _ _ _ _ ‹_›)
    · split
      · exact .inr (Nat.le_succ _)
      · exact quoted_leaves _ _ _ _
    · exact Nat.le_trans (length_skipLineComment _ _) hdrop
    · exact Nat.le_trans (length_skipBlockComment _ _ _) hdrop
    refine .ite (number_leaves _ _ _ |>.mono (Nat.sub_le _ _)) (.ite (.inr ?_) ?_)
    · simp only [Scan.length_step, List.length_cons]
      omega
    · split
      · exact .inr (hmark ‹_›)
      · exact .inr (hmark ‹_›)
      · exact .inr (hmark ‹_›)
      · exact .inr (Nat.le_refl _)

theorem readTextPart_nil (limit : Nat) (p : Position) : (readTextPart limit ⟨[], p⟩).1 = .ended := by
  have hfinish : readQuoted .back limit p 1 [] 0 none 0 ⟨[], p⟩ = .ok ⟨[], none, false, true, ⟨[], p⟩⟩ :=
    if_neg fun h => Nat.not_lt_zero _ h.2
  simp only [readTextPart, List.length_nil, hfinish]
  rfl

/-- **Every token but the end takes a character.** -/
theorem read_ended_or_lt (limit : Nat) (signed inText : Bool) (s : Scan) {r : Token × Position × Scan × Bool}
    (hr : (if inText then readTextPart limit s else readToken limit signed (s.rest.length + 1) s) = r) :
    (r.1 == .ended) = true ∨ r.2.2.1.rest.length < s.rest.length := by
  subst hr
  obtain ⟨⟨⟩ | ⟨c, rest⟩, p⟩ := s
  · cases inText with
    | true => exact .inl (congrArg (· == .ended) (readTextPart_nil limit p))
    | false => exact .inl rfl
  · have hleaves : LeavesUpTo rest.length
        (if inText then readTextPart limit ⟨c :: rest, p⟩
          else readToken limit signed (rest.length + 1 + 1) ⟨c :: rest, p⟩) :=
      .ite (readTextPart_leaves _ _) (readToken_leaves _ _ _ _)
    exact hleaves.imp id Nat.lt_succ_of_le

/-- As long as there is a round for each character and one for the end, more rounds find no other tokens. -/
theorem tokensFrom_of_le (limit : Nat) : ∀ {fuel fuel' : Nat} (signed : Bool) (open_ : List Nat) (inText : Bool) {s : Scan},
    s.rest.length < fuel → fuel ≤ fuel' →
      tokensFrom limit fuel signed open_ inText s = tokensFrom limit fuel' signed open_ inText s
  | 0, _, _, _, _, _, h, _ => absurd h (Nat.not_lt_zero _)
  | fuel + 1, fuel' + 1, signed, open_, inText, s, h, hle => by
    have ih := fun signed open_ inText {s : Scan} (h : s.rest.length < fuel) =>
      tokensFrom_of_le limit signed open_ inText h (Nat.le_of_succ_le_succ hle)
    rw [tokensFrom, tokensFrom]
    have hr := read_ended_or_lt limit signed inText s rfl
    generalize (if inText then readTextPart limit s else readToken limit signed (s.rest.length + 1) s) = r at hr
    obtain ⟨t, p, s', embedded⟩ := r
    dsimp only at hr ⊢
    by_cases ht : (t == .ended) = true
    · rw [if_pos ht, if_pos ht]
    have hs : s'.rest.length < fuel := Nat.lt_of_lt_of_le (hr.resolve_left ht) (Nat.le_of_lt_succ h)
    rw [if_neg ht, if_neg ht]
    split
    · rw [ih _ _ _ hs]
    · split
      all_goals rw [ih _ _ _ hs]

end Lang
end ArmPilot
