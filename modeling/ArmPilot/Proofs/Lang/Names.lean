import ArmPilot.Identifier
import ArmPilot.Lang.Lexer
import ArmPilot.Lang.Parser.Statement
import Mathlib

/-!
# Names in the text of a script

A name that a variable can be given is read as one word, up to the first character that is no part of a name.  An
expression that consists of such a name is the variable only if the language has no use of its own for the word and a
letter stands before any digit; two of the other words are truth values, and the rest is refused
(`Bounds.parseExpression_identifier`).
-/

namespace ArmPilot
namespace Lang

/-- Whether the language reads a name as that of a variable: it is proper, and no word of the language. -/
def isReadable (name : String) : Bool :=
  isProperName name.toList && (Keyword.ofText? name).isNone && !isReservedWord name

theorem isNamePart_of_isNameStart {c : Char} (h : isNameStart c = true) : isNamePart c = true := by
  simp [isNamePart, h]

/-- A proper name begins with a letter or an underscore, and goes on with parts of names. -/
theorem isNamePart_of_isProperName {cs : List Char} (h : isProperName cs = true) : ∀ c ∈ cs, isNamePart c = true := by
  induction cs with
  | nil => exact nofun
  | cons c rest ih =>
    rw [isProperName] at h
    split at h
    · rename_i hc
      subst hc
      exact List.forall_mem_cons.2 ⟨rfl, ih h⟩
    · rw [Bool.and_eq_true, List.all_eq_true] at h
      exact List.forall_mem_cons.2 ⟨isNamePart_of_isNameStart h.1, h.2⟩

theorem head_of_isProperName {c : Char} {cs : List Char} (h : isProperName (c :: cs) = true) :
    isNameStart c = true ∨ c = '_' := by
  rw [isProperName] at h
  split at h
  · exact .inr ‹_›
  · exact .inl (Bool.and_eq_true_iff.1 h).1

/-- What can be the name of a variable begins with a letter or an underscore, and goes on with parts of names. -/
theorem isIdentifier_iff {name : String} :
    isIdentifier name = true ↔ ∃ c cs, name.toList = c :: cs ∧ (isNameStart c = true ∨ c = '_') ∧
      ∀ d ∈ cs, isNamePart d = true := by
  rw [isIdentifier]
  cases name.toList with
  | nil => simp
  | cons c cs => simp

/-- A letter or an underscore is neither a digit nor the end of a line. -/
theorem ne_of_nameHead {c : Char} (h : isNameStart c = true ∨ c = '_') : Text.isDigit c = false ∧ c ≠ '\n' := by
  obtain h | rfl := h
  · simp only [isNameStart, Bool.or_eq_true, Bool.and_eq_true, decide_eq_true_eq] at h
    constructor
    · simp only [Text.isDigit, Bool.and_eq_false_iff, decide_eq_false_iff_not]
      omega
    · rintro rfl
      revert h
      decide
  · decide

theorem isNamePart_of_isIdentifier {name : String} (h : isIdentifier name = true) :
    ∀ c ∈ name.toList, isNamePart c = true := by
  obtain ⟨c, cs, hname, hhead, hparts⟩ := isIdentifier_iff.1 h
  rw [hname]
  refine List.forall_mem_cons.2 ⟨?_, hparts⟩
  obtain hc | rfl := hhead
  · exact isNamePart_of_isNameStart hc
  · rfl

/-- A name that is read as that of a variable can be given to one. -/
theorem isIdentifier_of_isReadable {name : String} (h : isReadable name = true) : isIdentifier name = true := by
  simp only [isReadable, Bool.and_eq_true] at h
  have hproper := h.1.1
  cases hname : name.toList with
  | nil => rw [hname] at hproper; cases hproper
  | cons c cs =>
    rw [hname] at hproper
    exact isIdentifier_iff.2 ⟨c, cs, hname, head_of_isProperName hproper,
      (List.forall_mem_cons.1 (isNamePart_of_isProperName hproper)).2⟩

/-- A name is not proper if only digits, or nothing, stand behind its underscores. -/
theorem isProperName_eq_false_iff {name : String} (h : isIdentifier name = true) :
    isProperName name.toList = false ↔ ∀ c ∈ (name.toList.dropWhile (· = '_')).head?, Text.isDigit c = true := by
  have hparts := isNamePart_of_isIdentifier h
  generalize name.toList = cs at hparts
  induction cs with
  | nil => simp [isProperName]
  | cons c rest ih =>
    obtain ⟨hc, hrest⟩ := List.forall_mem_cons.1 hparts
    rw [isProperName]
    by_cases hunderscore : c = '_'
    · rw [if_pos hunderscore, List.dropWhile_cons_of_pos (by simpa using hunderscore)]
      exact ih hrest
    · rw [if_neg hunderscore, List.dropWhile_cons_of_neg (by simpa using hunderscore), List.all_eq_true.2 hrest]
      cases hstart : isNameStart c with
      | true => simp [(ne_of_nameHead (.inl hstart)).1]
      | false => simpa [isNamePart, hunderscore, hstart] using hc

/-! ## Words -/

theorem Keyword.text_of_ofText? {name : String} {k : Keyword} (h : ofText? name = some k) : k.text = name := by
  unfold ofText? at h
  split at h <;> first | cases h; rfl | cases h

theorem reservedToken_cases (s : String) : (∃ w, reservedToken s = .reserved w) ∨ ∃ f, reservedToken s = .fault f := by
  unfold reservedToken
  split
  · exact .inr ⟨_, rfl⟩
  · split
    · exact .inr ⟨_, rfl⟩
    · exact .inl ⟨_, rfl⟩

/-- What a word is read as. -/
theorem wordToken_cases (name : String) :
    (∃ k, wordToken name.toList = .word k ∧ Keyword.ofText? name = some k) ∨
      (wordToken name.toList = .identifier name ∧ isReadable name = true) ∨
      ((∃ w, wordToken name.toList = .reserved w) ∨ ∃ f, wordToken name.toList = .fault f) ∧
        isReadable name = false ∧ Keyword.ofText? name = none := by
  cases hkeyword : Keyword.ofText? name with
  | some k =>
    refine .inl ⟨k, ?_, rfl⟩
    simp only [wordToken, String.ofList_toList, hkeyword]
    cases k <;> rfl
  | none =>
    simp only [wordToken, String.ofList_toList, hkeyword, isReadable, Option.isNone_none, Bool.and_true]
    cases isReservedWord name with
    | true => exact .inr (.inr ⟨reservedToken_cases name, by simp⟩)
    | false =>
      cases isProperName name.toList with
      | true => exact .inr (.inl ⟨rfl, rfl⟩)
      | false => exact .inr (.inr ⟨.inr ⟨_, rfl⟩, by simp⟩)

theorem wordToken_of_isReadable {name : String} (h : isReadable name = true) :
    wordToken name.toList = .identifier name := by
  obtain ⟨k, -, hkeyword⟩ | ⟨hword, -⟩ | ⟨-, hunreadable, -⟩ := wordToken_cases name
  · simp [isReadable, hkeyword] at h
  · exact hword
  · rw [hunreadable] at h
    cases h

theorem wordToken_ne_ended (name : String) : (wordToken name.toList == .ended) = false := by
  obtain ⟨k, h, -⟩ | ⟨h, -⟩ | ⟨⟨w, h⟩ | ⟨f, h⟩, -⟩ := wordToken_cases name <;> rw [h] <;> rfl

/-- A name is read up to the first character that is no part of one. -/
theorem readToken_identifier (limit : Nat) (signed : Bool) (fuel : Nat) {name : String} (h : isIdentifier name = true)
    (rest : List Char) (hrest : ∀ c ∈ rest.head?, isNamePart c = false) (p : Position) :
    readToken limit signed (fuel + 1) ⟨name.toList ++ rest, p⟩ =
      (wordToken name.toList, p.advance, ⟨rest, ⟨p.line, p.column + name.length⟩⟩, false) := by
  obtain ⟨c, cs, hname, hhead, -⟩ := isIdentifier_iff.1 h
  have hparts := isNamePart_of_isIdentifier h
  have htake : (name.toList ++ rest).takeWhile isNamePart = name.toList := by
    rw [List.takeWhile_append_of_pos hparts]
    cases rest with
    | nil => exact List.append_nil _
    | cons d rest => rw [List.takeWhile_cons_of_neg (by simp [hrest d rfl]), List.append_nil]
  have hdrop : (name.toList ++ rest).dropWhile isNamePart = rest := by
    rw [List.dropWhile_append_of_pos hparts]
    cases rest with
    | nil => rfl
    | cons d rest => exact List.dropWhile_cons_of_neg (by simp [hrest d rfl])
  obtain ⟨hdigit, hline⟩ := ne_of_nameHead hhead
  have hscan : Scan.takeWhile ⟨name.toList ++ rest, p⟩ isNamePart =
      (name.toList, ⟨rest, ⟨p.line, p.column + name.length⟩⟩) := by
    rw [Scan.takeWhile, htake, hdrop, Scan.goTo]
    simp [String.length_toList]
  rw [readToken.eq_def]
  simp only [hname, List.cons_append, hline, hdigit, hhead, Bool.false_eq_true, if_true, if_false] at hscan ⊢
  rw [hscan]

/-- A token outside of all texts is followed by those of the rest. -/
theorem tokensFrom_cons {limit fuel : Nat} {signed : Bool} {s s' : Scan} {t : Token} {p : Position}
    (h : readToken limit signed (s.rest.length + 1) s = (t, p, s', false)) (ht : (t == .ended) = false) :
    tokensFrom limit (fuel + 1) signed [] false s = (t, p) :: tokensFrom limit fuel t.precedesSign [] false s' := by
  rw [tokensFrom, if_neg Bool.false_ne_true, h]
  dsimp only
  rw [ht, if_neg Bool.false_ne_true, if_neg Bool.false_ne_true]
  cases t with
  | mark m => cases m <;> rfl
  | _ => rfl

/-- The last token says that nothing is left. -/
theorem tokensFrom_nil (limit fuel : Nat) (signed : Bool) (p : Position) :
    tokensFrom limit (fuel + 1) signed [] false ⟨[], p⟩ = [(.ended, p.advance)] := rfl

/-- A text that can be a name has one word as its only token. -/
theorem tokenize_identifier (limit : Nat) {name : String} (h : isIdentifier name = true) :
    tokenize limit name = [(wordToken name.toList, ⟨1, 1⟩), (.ended, ⟨1, name.length + 1⟩)] := by
  have hread := readToken_identifier limit true name.toList.length h [] (by simp) Position.start
  rw [List.append_nil] at hread
  rw [tokenize, tokensFrom_cons hread (wordToken_ne_ended name), tokensFrom_nil]
  simp [Position.start, Position.advance]

/-! ## Expressions -/

/-- **An expression that consists of a name is the variable of that name.** -/
theorem Bounds.parseExpression_name (b : Bounds) (first : Nat) {name : String} (h : isReadable name = true) :
    b.parseExpression first name = .ok ⟨[.expr (.var name false (some ⟨1, 1⟩))], first, []⟩ := by
  have hcursor : b.cursor name =
      ⟨[(.identifier name, ⟨1, 1⟩), (.ended, ⟨1, name.length + 1⟩)], [], 0, [], true, []⟩ := by
    rw [cursor, tokenize_identifier _ (isIdentifier_of_isReadable h), wordToken_of_isReadable h]
  rw [parseExpression, hcursor]
  -- the nesting of the parser is checked against the bound before a token is read
  obtain ⟨depth, _, _, _, _⟩ := b
  cases depth with
  | zero => rfl
  | succ _ => rfl

/-- What an expression that consists of a name is, if it can be read: a variable, or a truth value. -/
def nameExpr? (name : String) (p : Place) : Option Expr :=
  if isReadable name then some (.var name false p)
  else if name = "true" then some (.const (.bool true) p)
  else if name = "false" then some (.const (.bool false) p)
  else none

namespace Parse

variable {α β : Type} {m : Parse α} {f : α → Parse β} {c c' : Cursor}

/-- A parser refuses what is in front of it. -/
def Refuses (m : Parse α) (c : Cursor) : Prop := (m.run c).toOption = none

namespace Refuses

theorem refuse (r : Refusal) (p : Position) : Refuses (Parse.refuse r p : Parse α) c := rfl

theorem bind (h : Refuses m c) : Refuses (m >>= f) c := by
  unfold Refuses at h ⊢
  rw [StateT.run_bind]
  cases hm : m.run c with
  | error e => rfl
  | ok r =>
    rw [hm] at h
    cases h

theorem bind_of_ok {a : α} (hm : m.run c = .ok (a, c')) (h : Refuses (f a) c') : Refuses (m >>= f) c := by
  unfold Refuses at h ⊢
  rw [StateT.run_bind, hm]
  exact h

end Refuses
end Parse

/-- A reserved word alone is no operand: even those that may be called need their arguments. -/
theorem Grammar.operand_refuses_reserved (g : Grammar) {s : Setting} (hs : s.inFunction = false) (w : String)
    (p q : Position) : Parse.Refuses (g.operand s) ⟨[(.reserved w, p), (.ended, q)], [], 0, [], true, []⟩ := by
  have huncalled : ¬ (isCallableWord w && (Token.ended == .mark .leftParen || Token.ended == .mark .bang ||
      Token.ended == .mark .unit)) = true := by
    rw [Bool.and_eq_true, not_and_or]
    exact .inr (by decide)
  unfold operand
  -- the word is looked at and taken, and the end of the text is looked at
  refine .bind_of_ok rfl (.bind_of_ok rfl (.bind_of_ok rfl ?_))
  simp only [List.headD_cons]
  rw [if_neg huncalled]
  split
  · rw [if_neg (by simp [hs])]
    exact .refuse ..
  · exact .refuse ..

theorem Bounds.expression_refuses_reserved (b : Bounds) (n : Nat) (w : String) (p q : Position) :
    Parse.Refuses (b.expression (grammar (n + 3))) ⟨[(.reserved w, p), (.ended, q)], [], 0, [], true, []⟩ := by
  have hoperand (s : Setting) (hs : s.inFunction = false) :=
    ((grammar n).operand_refuses_reserved hs w p q).bind (f := fun e => (grammar n).postfixed e { s with pos := p })
  obtain ⟨depth, _, _, _, _⟩ := b
  cases depth with
  | zero | succ _ =>
    -- down the levels of the grammar to the operand
    refine .bind (.bind_of_ok rfl (.bind_of_ok rfl ?_))
    exact .bind (.bind_of_ok rfl (.bind_of_ok rfl (hoperand _ rfl)))

/-- A text that is one word is refused if the parser refuses the word. -/
theorem Bounds.parseExpression_refuses {b : Bounds} {name : String} {c : Cursor} (hc : b.cursor name = c)
    (h : Parse.Refuses (b.expression (grammar (fuel c))) c) (first : Nat) :
    (b.parseExpression first name).toOption = none := by
  unfold Parse.Refuses at h
  rw [parseExpression, hc]
  cases hr : (b.expression (grammar (fuel c))).run c with
  | error e => rfl
  | ok r =>
    rw [hr] at h
    cases h

/-- **How an expression is read that consists of a name.** -/
theorem Bounds.parseExpression_identifier (b : Bounds) (first : Nat) {name : String} (h : isIdentifier name = true) :
    (b.parseExpression first name).toOption =
      (nameExpr? name (some ⟨1, 1⟩)).map fun e => ⟨[.expr e], first, []⟩ := by
  obtain ⟨k, hword, hkeyword⟩ | ⟨-, hreadable⟩ | ⟨hword, hunreadable, hkeyword⟩ := wordToken_cases name
  · have hcursor : b.cursor name = ⟨[(.word k, ⟨1, 1⟩), (.ended, ⟨1, name.length + 1⟩)], [], 0, [], true, []⟩ := by
      rw [cursor, tokenize_identifier _ h, hword]
    have hname := Keyword.text_of_ofText? hkeyword
    have hunreadable : isReadable name = false := by simp [isReadable, hkeyword]
    rw [parseExpression, hcursor, nameExpr?, hunreadable]
    subst hname
    obtain ⟨depth, _, _, _, _⟩ := b
    rcases depth with _ | _ | _ | _ | depth <;> cases k <;> rfl
  · rw [b.parseExpression_name first hreadable, nameExpr?, if_pos hreadable]
    rfl
  · have hother : name ≠ "true" ∧ name ≠ "false" := by
      constructor
      all_goals
        rintro rfl
        cases hkeyword
    rw [nameExpr?, hunreadable, if_neg Bool.false_ne_true, if_neg hother.1, if_neg hother.2]
    have hcursor (t : Token) (ht : wordToken name.toList = t) :
        b.cursor name = ⟨[(t, ⟨1, 1⟩), (.ended, ⟨1, name.length + 1⟩)], [], 0, [], true, []⟩ := by
      rw [cursor, tokenize_identifier _ h, ht]
    obtain ⟨w, hw⟩ | ⟨f, hf⟩ := hword
    · exact parseExpression_refuses (hcursor _ hw) (b.expression_refuses_reserved _ w _ _) first
    · rw [parseExpression, hcursor _ hf]
      obtain ⟨depth, _, _, _, _⟩ := b
      rcases depth with _ | depth <;> rfl

end Lang
end ArmPilot
