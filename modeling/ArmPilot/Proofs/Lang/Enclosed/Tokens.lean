import ArmPilot.Proofs.Lang.Enclosed.Basic
import ArmPilot.Proofs.Lang.Names
import ArmPilot.Proofs.Lang.Progress

/-!
# The tokens of a comparison

A comparison of a name with a text between parentheses has the tokens of its parts (`tokenize_comparison`).  Blanks stand
for what is in front of a part, so that its tokens keep their positions.
-/

namespace ArmPilot
namespace Lang

/-- So many blanks. -/
def blanks (n : Nat) : String := String.ofList (List.replicate n ' ')

/-- A text behind so many characters of a line has the same tokens between parentheses as alone.  It does not if a comment
swallows the closing parenthesis. -/
def KeepsTokens (limit column : Nat) (text : String) : Prop :=
  ∃ p ts, tokenize limit (blanks column ++ "(" ++ text ++ ")") = (.mark .leftParen, p) :: ts ∧
    Enclosed (tokenize limit (blanks (column + 1) ++ text)) ts

/-- Whether a mark compares two values. -/
def Mark.compares : Mark → Bool
  | .equalsTo | .notEquals | .less | .lessEq | .greater | .greaterEq => true
  | _ => false

/-- A name, a comparison and a text between parentheses. -/
def comparison (name : String) (op : Mark) (text : String) : String := name ++ " " ++ op.text ++ " (" ++ text ++ ")"

/-- The tokens of what is left of a script, outside of all texts. -/
def tokensAt (limit : Nat) (signed : Bool) (s : Scan) : List (Token × Position) :=
  tokensFrom limit (s.rest.length + 1) signed [] false s

variable {limit : Nat} {signed : Bool}

theorem tokenize_eq (limit : Nat) (text : String) :
    tokenize limit text = tokensAt limit true ⟨text.toList, Position.start⟩ :=
  (tokensFrom_of_le limit true [] false (Nat.lt_succ_self _) (by dsimp only; omega)).symm

/-- The token that stands next is followed by those of the rest. -/
theorem tokensAt_cons {s s' : Scan} {t : Token} {p : Position}
    (h : readToken limit signed (s.rest.length + 1) s = (t, p, s', false)) (ht : (t == .ended) = false) :
    tokensAt limit signed s = (t, p) :: tokensAt limit t.precedesSign s' := by
  have hshorter : s'.rest.length + 1 ≤ s.rest.length := by
    obtain hended | hlt := read_ended_or_lt limit signed false s h
    · exact absurd hended (Bool.eq_false_iff.1 ht)
    · exact hlt
  rw [tokensAt, tokensFrom_cons h ht, tokensAt]
  exact congrArg _ (tokensFrom_of_le limit _ _ _ (Nat.lt_succ_self _) hshorter).symm

theorem tokensAt_blank (rest : List Char) (p : Position) :
    tokensAt limit signed ⟨' ' :: rest, p⟩ = tokensAt limit signed ⟨rest, p.advance⟩ := by
  have hread : readToken limit signed (rest.length + 1 + 1) ⟨' ' :: rest, p⟩ =
      readToken limit signed (rest.length + 1) ⟨rest, p.advance⟩ := rfl
  have hfuel : tokensFrom limit (rest.length + 1) signed [] false ⟨rest, p.advance⟩ =
      tokensFrom limit (rest.length + 1 + 1) signed [] false ⟨rest, p.advance⟩ :=
    tokensFrom_of_le limit signed [] false (Nat.lt_succ_self _) (Nat.le_succ _)
  rw [tokensAt, tokensAt, hfuel]
  show tokensFrom limit (rest.length + 1 + 1) signed [] false _ = _
  rw [tokensFrom, tokensFrom]
  simp only [if_neg Bool.false_ne_true, List.length_cons, hread]

theorem tokensAt_blanks (n : Nat) (rest : List Char) (p : Position) :
    tokensAt limit signed ⟨List.replicate n ' ' ++ rest, p⟩ = tokensAt limit signed ⟨rest, ⟨p.line, p.column + n⟩⟩ := by
  induction n generalizing p with
  | zero => rfl
  | succ n ih =>
    rw [List.replicate_succ, List.cons_append, tokensAt_blank, ih]
    simp only [Position.advance, Nat.add_right_comm p.column 1 n, Nat.add_assoc]

theorem tokensAt_operator {op : Mark} (hop : op.compares = true) (rest : List Char) (p : Position) :
    tokensAt limit false ⟨op.text.toList ++ ' ' :: rest, p⟩ =
      (.mark op, p.advance) :: tokensAt limit true ⟨rest, ⟨p.line, p.column + op.text.length + 1⟩⟩ := by
  have hread : ∀ fuel, readToken limit false (fuel + 1) ⟨op.text.toList ++ ' ' :: rest, p⟩ =
      (.mark op, p.advance, ⟨' ' :: rest, ⟨p.line, p.column + op.text.length⟩⟩, false) := by
    intro fuel
    cases op <;> first | rfl | cases hop
  have hsign : (Token.mark op).precedesSign = true := by cases op <;> first | rfl | cases hop
  rw [tokensAt_cons (hread _) rfl, hsign, tokensAt_blank]
  rfl

theorem tokensAt_name {name : String} (h : isReadable name = true) (rest : List Char) (p : Position) :
    tokensAt limit signed ⟨name.toList ++ ' ' :: rest, p⟩ =
      (.identifier name, p.advance) :: tokensAt limit false ⟨rest, ⟨p.line, p.column + name.length + 1⟩⟩ := by
  have hidentifier := isIdentifier_of_isReadable h
  have hread := readToken_identifier limit signed (name.toList ++ ' ' :: rest).length hidentifier (' ' :: rest)
    (by rintro _ ⟨⟩; rfl) p
  rw [tokensAt_cons hread (wordToken_ne_ended name), wordToken_of_isReadable h]
  exact congrArg _ (tokensAt_blank _ _)

/-- **A comparison has the tokens of its parts**, if the text between its parentheses keeps its tokens. -/
theorem tokenize_comparison {name text : String} {op : Mark} (hname : isReadable name = true) (hop : op.compares = true)
    (htext : KeepsTokens limit (name.length + op.text.length + 2) text) :
    ∃ p ts, tokenize limit (comparison name op text) =
      (.identifier name, ⟨1, 1⟩) :: (.mark op, ⟨1, name.length + 2⟩) :: (.mark .leftParen, p) :: ts ∧
      Enclosed (tokenize limit (blanks (name.length + op.text.length + 3) ++ text)) ts := by
  obtain ⟨p, ts, hparen, htokens⟩ := htext
  refine ⟨p, ts, ?_, htokens⟩
  have hparts : (comparison name op text).toList =
      name.toList ++ ' ' :: (op.text.toList ++ ' ' :: ('(' :: (text.toList ++ [')']))) := by
    simp [comparison]
  have hblanks : (blanks (name.length + op.text.length + 2) ++ "(" ++ text ++ ")").toList =
      List.replicate (name.length + op.text.length + 2) ' ' ++ ('(' :: (text.toList ++ [')'])) := by
    simp [blanks]
  rw [tokenize_eq, hblanks, tokensAt_blanks] at hparen
  have hoperator : 0 + name.length + 1 + 1 = name.length + 2 := by omega
  have hcolumn : 0 + name.length + 1 + op.text.length + 1 = 0 + (name.length + op.text.length + 2) := by omega
  rw [tokenize_eq, hparts, tokensAt_name hname, tokensAt_operator hop]
  simp only [Position.start, Position.advance, hcolumn] at hparen ⊢
  rw [hparen, hoperator]

end Lang
end ArmPilot
