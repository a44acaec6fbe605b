import ArmPilot.Proofs.Lang.Bounds.Tokens

/-!
# The sizes of texts

Under a bound on texts no token holds a text that is larger.  So a script that has a larger one without the bound is
`Overlong`.
-/

namespace ArmPilot
namespace Lang

/-- The bytes of the text that a token holds. -/
def Token.textSize : Token → Nat
  | .string s | .textPart s => s.utf8ByteSize
  | _ => 0

theorem utf8ByteSize_reverse (cs : List Char) :
    (String.ofList cs.reverse).utf8ByteSize = (String.ofList cs).utf8ByteSize := by
  induction cs with
  | nil => rfl
  | cons c cs ih => simp [ih, Nat.add_comm]

variable {l : Nat}

/-- A text is within a bound if it is read. -/
def ReadWithin (l : Nat) (r : Except (LexFault × Position) Quoted) : Prop :=
  ∀ q, r = .ok q → (String.ofList q.text).utf8ByteSize ≤ l

namespace ReadWithin

theorem error (f : LexFault × Position) : ReadWithin l (.error f) := nofun

theorem ok {q : Quoted} (h : (String.ofList q.text).utf8ByteSize ≤ l) : ReadWithin l (.ok q) := by
  rintro _ ⟨⟩
  exact h

theorem ite_of {p : Prop} [Decidable p] {a b : Except (LexFault × Position) Quoted} (ha : p → ReadWithin l a)
    (hb : ReadWithin l b) : ReadWithin l (if p then a else b) := by
  split
  · exact ha ‹_›
  · exact hb

theorem ite {p : Prop} [Decidable p] {a b : Except (LexFault × Position) Quoted} (ha : ReadWithin l a)
    (hb : ReadWithin l b) : ReadWithin l (if p then a else b) := ite_of (fun _ => ha) hb

/-- A look at the length of a text. -/
theorem limited (h : 0 < l) {size : Nat} {p : Position} {a : Except (LexFault × Position) Quoted}
    (ha : size ≤ l → ReadWithin l a) :
    ReadWithin l (if l > 0 ∧ size > l then .error (.stringTooLong l, p) else a) := by
  split
  · exact error _
  · exact ha (by omega)

end ReadWithin

theorem finish_within (h : 0 < l) (start : Position) {acc : List Char} {size : Nat}
    (hsize : (String.ofList acc).utf8ByteSize = size) (begins : Place) (embedded unfinished : Bool) (s : Scan) :
    ReadWithin l (readQuoted.finish l start acc size begins embedded unfinished s) := by
  refine .limited h fun hle => .ok ?_
  rwa [utf8ByteSize_reverse, hsize]

theorem readQuoted_within (h : 0 < l) (q : Quoting) (start : Position) :
    ∀ fuel acc size begins margin s, (String.ofList acc).utf8ByteSize = size →
      ReadWithin l (readQuoted q l start fuel acc size begins margin s)
  | 0, _, _, _, _, _, _ => .error _
  | _ + 1, _, _, _, _, ⟨[], _⟩, hsize => by
    rw [readQuoted]
    exact .ite (finish_within h start hsize _ _ _ _) (.error _)
  | fuel + 1, acc, size, begins, margin, ⟨c :: rest, p⟩, hsize => by
    have ih := fun acc size begins margin s => readQuoted_within h q start fuel acc size begins margin s
    have hsame := fun begins margin s => ih acc size begins margin s hsize
    have hcons : ∀ c begins margin s,
        ReadWithin l (readQuoted q l start fuel (c :: acc) (size + c.utf8Size) begins margin s) :=
      fun c begins margin s => ih _ _ begins margin s (by simp [hsize, Nat.add_comm])
    have hfinish := finish_within h start hsize
    rw [readQuoted]
    dsimp only
    refine .ite (hfinish _ _ _ _) (.ite ?_ (.limited h fun _ => .ite (hfinish _ _ _ _) ?_))
    · have hmarks : (String.ofList ('\x7b' :: '$' :: acc)).utf8ByteSize = size + 2 := by
        rw [String.ofList_cons, String.ofList_cons, String.utf8ByteSize_append, String.utf8ByteSize_append, hsize]
        exact (Nat.add_assoc 1 1 size).symm.trans (Nat.add_comm 2 size)
      exact ih _ _ _ _ _ hmarks
    refine .ite (hcons _ _ _ _) (.ite (hsame _ _ _) (.ite ?_ (.ite_of ?_ (.ite (hsame _ _ _) (hcons _ _ _ _)))))
    · generalize behindBackslash _ = s
      obtain ⟨⟨⟩ | ⟨e, rest⟩, p⟩ := s
      · exact .ite (hfinish _ _ _ _) (.error _)
      refine .ite (hcons _ _ _ _) (.ite (hcons _ _ _ _) (.ite (hcons _ _ _ _) (.ite (hcons _ _ _ _) (.ite ?_ ?_))))
      · generalize readEscape _ _ _ _ = r
        obtain f | ⟨ch, s⟩ := r
        · exact .error _
        · exact hcons _ _ _ _
      · exact .ite (hsame _ _ _) (.ite (.error _) (.ite (hcons _ _ _ _) (.error _)))
    · rintro rfl
      exact .ite (hcons '\n' _ _ _) (.error _)

theorem readRaw_within (h : 0 < l) (wanted : Nat) (start : Position) :
    ∀ hashes acc size cs p, (String.ofList acc).utf8ByteSize = size → size ≤ l →
      ReadWithin l (readRaw wanted l start hashes acc size cs p)
  | _, _, _, [], _, _, _ => by
    unfold readRaw
    exact .error _
  | hashes, acc, size, c :: rest, p, hsize, hle => by
    have hgo : ∀ hashes (more : List Char) p, ReadWithin l
        (if l > 0 ∧ size + (String.ofList more).utf8ByteSize > l then .error (.stringTooLong l, start)
        else readRaw wanted l start hashes (more.reverse ++ acc) (size + (String.ofList more).utf8ByteSize) rest p) := by
      intro hashes more p
      refine .limited h fun hle => readRaw_within h wanted start hashes _ _ rest p ?_ hle
      rw [String.ofList_append, String.utf8ByteSize_append, utf8ByteSize_reverse, hsize, Nat.add_comm]
    cases hashes with
    | none =>
      rw [readRaw]
      exact .ite (hgo _ _ _) (hgo _ _ _)
    | some n =>
      rw [readRaw]
      refine .ite (.ite (.ok ?_) (hgo _ _ _)) (.ite (hgo _ _ _) (hgo _ _ _))
      rwa [utf8ByteSize_reverse, hsize]

theorem readHashed_within (h : 0 < l) (start : Position) (s : Scan) : ReadWithin l (readHashed l start s) := by
  unfold readHashed
  split
  split
  · exact .error _
  · exact readRaw_within h _ _ _ _ _ _ _ rfl (Nat.zero_le l)
  · exact .error _

/-- A token that is read holds no text that is too large. -/
def TokenWithin (l : Nat) (r : Token × Position × Scan × Bool) : Prop := r.1.textSize ≤ l

namespace TokenWithin

/-- A token that holds no text. -/
theorem empty {r : Token × Position × Scan × Bool} (h : r.1.textSize = 0) : TokenWithin l r :=
  Nat.le_trans (Nat.le_of_eq h) (Nat.zero_le l)

theorem ite {p : Prop} [Decidable p] {a b : Token × Position × Scan × Bool} (ha : TokenWithin l a)
    (hb : TokenWithin l b) : TokenWithin l (if p then a else b) := by
  split
  · exact ha
  · exact hb

end TokenWithin

theorem textSize_reservedToken (s : String) : (reservedToken s).textSize = 0 := by
  unfold reservedToken
  split
  · rfl
  · split <;> rfl

theorem textSize_wordToken (cs : List Char) : (wordToken cs).textSize = 0 := by
  unfold wordToken
  dsimp only
  split
  · rfl
  · rfl
  · split
    · exact textSize_reservedToken _
    · split <;> rfl

theorem textSize_readMark? {s s' : Scan} {t : Token} (h : readMark? s = some (t, s')) : t.textSize = 0 := by
  have hmark : ∀ m : Mark, (Token.mark m).textSize = 0 := fun _ => rfl
  have htable : ∀ entry ∈ markTable, entry.2.textSize = 0 := by
    simp [markTable, textSize_reservedToken, hmark]
  unfold readMark? at h
  obtain ⟨entry, hentry, heq⟩ := Option.map_eq_some_iff.1 h
  cases heq
  exact htable entry (List.mem_of_find?_eq_some hentry)

namespace Numeral

theorem textSize_ofBits (base : Nat) (text : List Char) : (ofBits base text).textSize = 0 := by
  unfold ofBits
  dsimp only
  split <;> rfl

theorem textSize_ofDecimal (negative : Bool) (text : List Char) : (ofDecimal negative text).textSize = 0 := by
  unfold ofDecimal
  extract_lets spelt double n n'
  have hdouble : double.textSize = 0 := by
    subst double
    split <;> rfl
  split
  · split
    · rfl
    · exact hdouble
  · exact hdouble

theorem textSize_token (n : Numeral) (negative : Bool) : (n.token negative).textSize = 0 := by
  unfold token
  dsimp only
  split
  · exact textSize_ofBits _ _
  · exact textSize_ofDecimal _ _

end Numeral

theorem quoted_within (h : 0 < l) (q : Quoting) (start : Position) (s : Scan) :
    TokenWithin l (readToken.quoted l q start s) := by
  have hread := readQuoted_within h q start (s.rest.length + 1) [] 0 none 0 s rfl
  unfold readToken.quoted
  split
  · exact .empty rfl
  · refine .ite (.empty rfl) (.ite ?_ (.ite (hread _ ‹_›) (hread _ ‹_›)))
    split
    · exact .empty rfl
    · exact .empty rfl

theorem readTextPart_within (h : 0 < l) (s : Scan) : TokenWithin l (readTextPart l s) := by
  have hread := readQuoted_within h .back s.at_ (s.rest.length + 1) [] 0 none 0 s rfl
  unfold readTextPart
  split
  · exact .empty rfl
  · dsimp only
    refine .ite ?_ (.ite (hread _ ‹_›) (hread _ ‹_›))
    refine .empty ?_
    dsimp only
    split
    · rfl
    · rfl

theorem readToken_within (h : 0 < l) (signed : Bool) : ∀ fuel s, TokenWithin l (readToken l signed fuel s)
  | 0, _ => .empty rfl
  | _ + 1, ⟨[], _⟩ => .empty rfl
  | fuel + 1, ⟨c :: rest, p⟩ => by
    have ih := readToken_within h signed fuel
    have hnumber : ∀ negative s, TokenWithin l (readToken.number negative p.advance s) := fun negative s =>
      .empty (Numeral.textSize_token _ negative)
    rw [readToken]
    dsimp only
    refine .ite (ih _) (.ite (hnumber _ _) (.ite (.empty (textSize_wordToken _)) ?_))
    refine .ite (quoted_within h _ _ _) (.ite (quoted_within h _ _ _) (.ite ?_ (.ite ?_ (.ite (ih _) (.ite (ih _) ?_)))))
    · have hread := readHashed_within h p.advance ⟨c :: rest, p⟩
      split
      · exact .empty rfl
      · exact hread _ ‹_›
    · split
      · exact .empty rfl
      · exact quoted_within h _ _ _
    refine .ite (ih _) (.ite (hnumber _ _) (.ite (.empty rfl) ?_))
    split
    · exact .empty rfl
    · exact .empty rfl
    · exact .empty (textSize_readMark? ‹_›)
    · exact .empty rfl

theorem tokensFrom_within (h : 0 < l) (fuel : Nat) :
    ∀ signed open_ inText s, ∀ t ∈ tokensFrom l fuel signed open_ inText s, t.1.textSize ≤ l := by
  induction fuel with
  | zero =>
    intro _ _ _ _ t ht
    cases List.mem_singleton.1 ht
    exact Nat.zero_le l
  | succ fuel ih =>
    intro signed open_ inText s
    have hr : TokenWithin l (if inText then readTextPart l s else readToken l signed (s.rest.length + 1) s) :=
      .ite (readTextPart_within h s) (readToken_within h signed _ s)
    rw [tokensFrom]
    generalize (if inText then readTextPart l s else readToken l signed (s.rest.length + 1) s) = r at hr
    obtain ⟨t, p, s, embedded⟩ := r
    have hcons : ∀ signed open_ inText, ∀ u ∈ (t, p) :: tokensFrom l fuel signed open_ inText s, u.1.textSize ≤ l :=
      fun _ _ _ => List.forall_mem_cons.2 ⟨hr, ih _ _ _ _⟩
    dsimp only
    split
    · exact List.forall_mem_cons.2 ⟨hr, fun _ hu => absurd hu List.not_mem_nil⟩
    · split
      · exact hcons _ _ _
      · split
        all_goals exact hcons _ _ _

/-- **A text that is larger than a bound makes a script overlong.** -/
theorem overlong_of_mem (h : 0 < l) {text : String} {t : Token × Position} (ht : t ∈ tokenize 0 text)
    (hl : l < t.1.textSize) : Overlong l text := by
  refine Classical.byContradiction fun hnot => ?_
  rw [← tokenize_alike (.inl rfl) hnot] at ht
  exact Nat.not_lt.2 (tokensFrom_within h _ _ _ _ _ t ht) hl

end Lang
end ArmPilot
