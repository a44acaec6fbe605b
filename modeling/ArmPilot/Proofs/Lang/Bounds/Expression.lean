import ArmPilot.Proofs.Lang.Bounds.Basic

/-!
# Expressions under wider bounds
-/

namespace ArmPilot
namespace Lang
namespace Grammar

variable {E : Refusal → Prop} {g g' : Grammar} (hg : g.Follows E g') {s : Setting} {w : Bounds}

include hg

theorem arguments_follows (name : String) (empty : Bool) (hs : s.Narrows E w) :
    Parse.Follows E Eq (g.arguments name empty s) (g'.arguments name empty (s.within w)) := by
  unfold arguments
  split
  · exact .refl _
  refine .bind (.refl _) fun t => ?_
  split
  · exact .refl _
  · exact .refl _
  · exact .refl _
  refine .bind_deeper hs fun s hs => .iterate (fun args => .bind ?_ fun args => .refl _) []
  refine .bind (.refl _) fun t => ?_
  split
  · exact .refl _
  · exact (hg.expression hs).bind fun _ => .refl _

theorem parenthesized_follows (hs : s.Narrows E w) : Parse.Follows E Eq (g.parenthesized s) (g'.parenthesized (s.within w)) := by
  unfold parenthesized
  refine .bind (.refl _) fun t => .bind_deeperAt hs t.2 fun s hs => ?_
  exact (hg.expression hs).bind fun _ => .refl _

theorem arrayLiteral_follows (hs : s.Narrows E w) : Parse.Follows E Eq (g.arrayLiteral s) (g'.arrayLiteral (s.within w)) := by
  unfold arrayLiteral
  refine .bind (.refl _) fun t => .bind_deeperAt hs t.2 fun s hs => ?_
  refine .bind (.iterate (fun items => .limited hs.array hs.tooManyItems ?_) []) fun _ => .refl _
  refine .bind (.refl _) fun t => ?_
  split
  · exact .refl _
  · exact .refl _
  · exact .bind_deeper hs fun s hs => (hg.expression hs).bind fun _ => .refl _

theorem mapLiteral_follows (hs : s.Narrows E w) : Parse.Follows E Eq (g.mapLiteral s) (g'.mapLiteral (s.within w)) := by
  unfold mapLiteral
  refine .bind (.refl _) fun t => .bind_deeperAt hs t.2 fun s hs => ?_
  refine .bind (.iterate (fun members => .bind (.refl _) fun t => ?_) []) fun _ => .refl _
  split
  · exact .refl _
  · exact .refl _
  · refine .bind (.refl _) fun name => .bind (.refl _) fun _ => .limited hs.map hs.tooManyMembers ?_
    exact .bind_deeper hs fun s hs => (hg.expression hs).bind fun _ => .refl _

theorem indexLinks_follows (root : Expr) (optional : Bool) (p : Position) (hs : s.Narrows E w) :
    Parse.Follows E Eq (g.indexLinks root optional p s) (g'.indexLinks root optional p (s.within w)) := by
  unfold indexLinks
  refine .iterate_of (R := fun a b => b = (a.1, a.2.1, a.2.2.1, a.2.2.2.within w) ∧ a.2.2.2.Narrows E w) ?_ ⟨rfl, hs⟩
  rintro ⟨links, optional, p, s⟩ _ ⟨rfl, hs⟩
  refine .bind_deeper hs fun t ht => (hg.expression ht).bind fun index => ?_
  split
  all_goals try split
  · exact .throw_bind _
  all_goals
    refine .bind (.refl _) fun _ => .bind (.refl _) fun t => ?_
    split
    · exact .bind (.refl _) fun _ => .bind_deeperAt hs _ fun s hs => .pure (.inl ⟨rfl, hs⟩)
    · exact .bind (.refl _) fun _ => .bind_deeperAt hs _ fun s hs => .pure (.inl ⟨rfl, hs⟩)
    · exact .pure (.inr rfl)

theorem dotted_follows (e : Expr) (optional : Bool) (p : Position) (hs : s.Narrows E w) :
    Parse.Follows E Eq (postfixed.dotted g s e optional p) (postfixed.dotted g' (s.within w) e optional p) := by
  unfold postfixed.dotted
  have hrest : ∀ {s : Setting}, s.Narrows E w → Parse.Follows E Eq
      (do
        let rhs ← g.primary { s with behindDot := true }
        return .inl (addLinks e (← dotLinks rhs ⟨optional, some p⟩) p) : Parse (Expr ⊕ Expr))
      (do
        let rhs ← g'.primary { s.within w with behindDot := true }
        return .inl (addLinks e (← dotLinks rhs ⟨optional, some p⟩) p)) :=
    fun hs => .bind (hg.primary { hs with }) fun _ => .refl _
  refine .bind (.refl _) fun _ => .bind (.refl _) fun t => ?_
  split
  · exact .bind (.refl _) fun _ => .bind_deeperAt hs p fun _ hs => hrest hs
  · exact .ite .rfl (.throw_bind _) (.bind_deeperAt hs p fun _ hs => hrest hs)
  · exact .throw_bind _

theorem indexed_follows (e : Expr) (optional : Bool) (p : Position) (hs : s.Narrows E w) :
    Parse.Follows E Eq (postfixed.indexed g s e optional p) (postfixed.indexed g' (s.within w) e optional p) := by
  unfold postfixed.indexed
  refine .bind (.refl _) fun _ => .bind_deeperAt hs p fun s hs => ?_
  exact (indexLinks_follows hg e optional p hs).bind fun _ => .refl _

theorem postfixed_follows (e : Expr) (hs : s.Narrows E w) : Parse.Follows E Eq (g.postfixed e s) (g'.postfixed e (s.within w)) := by
  unfold postfixed
  refine .iterate (fun e => .bind (.refl _) fun t => .ite .rfl (.refl _) ?_) e
  split
  · exact dotted_follows hg _ _ _ hs
  · exact dotted_follows hg _ _ _ hs
  · exact indexed_follows hg _ _ _ hs
  · exact indexed_follows hg _ _ _ hs
  · exact .bind (.refl _) fun _ => .bind (arguments_follows hg _ _ { hs with }) fun _ => .refl _
  · exact .bind (.refl _) fun _ => .bind (arguments_follows hg _ _ { hs with }) fun _ => .refl _
  · exact .bind (.refl _) fun _ => .bind (arguments_follows hg _ _ { hs with }) fun _ => .refl _
  · exact .bind (.refl _) fun _ => .bind (arguments_follows hg _ _ { hs with }) fun _ => .refl _
  · refine .bind (.refl _) fun _ => .bind (.refl _) fun u => ?_
    split
    · exact .bind (arguments_follows hg _ _ { hs with }) fun _ => .refl _
    · exact .refl _
    · exact .refl _
  · exact .refl _
  · exact .refl _
  · exact .refl _
  · exact .refl _

theorem expressionStatement_follows (hs : s.Narrows E w) :
    Parse.Follows E Eq (g.expressionStatement s) (g'.expressionStatement (s.within w)) := by
  unfold expressionStatement
  refine .bind_deeper hs fun s hs => .bind (.refl _) fun t => .bind (hg.expression { hs with }) fun target => ?_
  refine .bind (.refl _) fun u => ?_
  split
  · exact .bind (.refl _) fun _ => .bind (hg.expression { hs with }) fun _ => .refl _
  · split
    · exact .bind (.refl _) fun _ => .bind (hg.expression { hs with }) fun _ => .refl _
    · exact .refl _
  · exact .refl _

theorem block_follows (hs : s.Narrows E w) : Parse.Follows E Eq (g.block s) (g'.block (s.within w)) := by
  unfold block
  refine .bind_deeper hs fun s hs => .bind (.refl _) fun t => .ite .rfl (.missing_bind _ _ _ _) ?_
  refine .ite .rfl (.bind (expressionStatement_follows hg { hs with }) fun _ => .refl _) ?_
  refine .bind (.refl _) fun c => .bind (.refl _) fun _ => .bind (.iterate (fun stmts => ?_) []) fun _ => .refl _
  refine .bind (.refl _) fun u => ?_
  split
  · exact .refl _
  · exact .refl _
  · exact .bind_deeper { hs with } fun s hs => (hg.statement hs).bind fun _ => .refl _

theorem condition_follows (hs : s.Narrows E w) : Parse.Follows E Eq (g.condition s) (g'.condition (s.within w)) := by
  unfold condition
  refine .bind (.refl _) fun _ => .bind_deeper hs fun s hs => ?_
  exact (hg.expression hs).bind fun _ => .refl _

theorem conditional_follows (hs : s.Narrows E w) : Parse.Follows E Eq (g.conditional s) (g'.conditional (s.within w)) := by
  unfold conditional
  refine .bind_deeper hs fun s hs => .bind (.refl _) fun t => .bind (condition_follows hg { hs with }) fun cond => ?_
  refine .bind (block_follows hg { hs with }) fun body => .bind (.refl _) fun hasElse => .ite .rfl ?_ (.refl _)
  refine .bind (.refl _) fun u => ?_
  split
  · exact .bind (hg.statement { hs with }) fun _ => .refl _
  · exact .bind (block_follows hg { hs with }) fun _ => .refl _

theorem caseValues_follows (hs : s.Narrows E w) : Parse.Follows E Eq (g.caseValues s) (g'.caseValues (s.within w)) := by
  unfold caseValues
  refine .iterate (fun values => .bind (.refl _) fun c => ?_) []
  have hvalue : Parse.Follows E Eq
      (do g.expression (← { s with stopsAtPipe := true }.deeper) : Parse Expr)
      (do g'.expression (← { s.within w with stopsAtPipe := true }.deeper)) :=
    .bind_deeper (s := { s with stopsAtPipe := true }) { hs with } fun _ ht => hg.expression ht
  obtain ⟨e, h, he⟩ | ⟨e, h, h'⟩ | ⟨v, _, c', h, h', rfl⟩ := hvalue c
  · rw [h]
    exact .barred (hs.noLiteral ⟨_, he⟩) _
  · rw [h, h']
    exact .refl _
  · rw [h, h']
    exact .refl _

theorem switching_follows (hs : s.Narrows E w) : Parse.Follows E Eq (g.switching s) (g'.switching (s.within w)) := by
  unfold switching
  refine .bind_deeper hs fun s hs => .bind (.refl _) fun t => .bind_deeper { hs with } fun v hv => ?_
  refine .bind (hg.expression hv) fun value => .bind (.refl _) fun _ => .bind (.iterate ?_ _) fun _ => .refl _
  rintro ⟨cases, default, ranged⟩
  refine .bind (.refl _) fun u => ?_
  split
  · exact .refl _
  · exact .refl _
  refine .bind ?_ fun x => .bind (.refl _) fun _ => .bind ?_ fun _ => .refl _
  · split
    · exact .refl _
    · exact .refl _
    · refine .bind (caseValues_follows hg { hs with }) fun values => .bind (.refl _) fun hasCondition => .ite .rfl ?_ (.refl _)
      exact .bind (condition_follows hg { hs with }) fun _ => .refl _
  · refine .ite .rfl ?_ ?_
    · exact .bind_deeper { hs with } fun _ ht => .bind (hg.statement ht) fun _ => .refl _
    · exact .bind_deeper { hs with } fun _ ht => .bind (hg.expression ht) fun _ => .refl _

theorem closure_follows (hs : s.Narrows E w) : Parse.Follows E Eq (g.closure s) (g'.closure (s.within w)) := by
  unfold closure
  refine .bind_deeper hs fun s hs => .bind (.refl _) fun t => .bind (.refl _) fun parameters => ?_
  refine .bind (.refl _) fun outer => .bind (.refl _) fun _ => .bind (hg.statement { hs with }) fun body => .refl _

theorem interpolated_follows (hs : s.Narrows E w) :
    Parse.Follows E Eq (g.interpolated s) (g'.interpolated (s.within w)) := by
  unfold interpolated
  refine .bind (.refl _) fun t => .bind (.iterate (fun parts => ?_) _) fun _ => .refl _
  exact .bind (block_follows hg hs) fun _ => .refl _

theorem operand_follows (hs : s.Narrows E w) : Parse.Follows E Eq (g.operand s) (g'.operand (s.within w)) := by
  unfold operand
  refine .bind (.refl _) ?_
  rintro ⟨t, p⟩
  dsimp only
  split
  case h_9 => exact parenthesized_follows hg { hs with }
  case h_10 => exact arrayLiteral_follows hg { hs with }
  case h_11 => exact mapLiteral_follows hg { hs with }
  case h_12 => exact interpolated_follows hg { hs with }
  case h_13 => exact .bind (conditional_follows hg { hs with }) fun _ => .refl _
  case h_14 => exact .bind (switching_follows hg { hs with }) fun _ => .refl _
  case h_15 => exact closure_follows hg { hs with }
  case h_16 => exact closure_follows hg { hs with }
  case h_17 => exact .ite .rfl (.bind (block_follows hg { hs with }) fun _ => .refl _) (.refl _)
  case h_18 | h_19 | h_20 | h_21 => exact .ite .rfl (.bind (hg.statement { hs with }) fun _ => .refl _) (.refl _)
  all_goals exact .refl _

theorem primaryWith_follows (hs : s.Narrows E w) :
    Parse.Follows E Eq (g.primaryWith s) (g'.primaryWith (s.within w)) := by
  unfold primaryWith
  refine .bind (.refl _) fun t => .ite .rfl (.throw_bind _) ?_
  exact .bind (operand_follows hg hs) fun e => postfixed_follows hg e { hs with }

theorem unaryWith_follows (hs : s.Narrows E w) : Parse.Follows E Eq (g.unaryWith s) (g'.unaryWith (s.within w)) := by
  unfold unaryWith
  refine .bind (.refl _) fun t => .ite .rfl (.throw_bind _) ?_
  split
  case h_6 | h_7 | h_8 => exact .refl _
  case h_9 => exact hg.primary { hs with }
  all_goals exact .bind (.refl _) fun _ => .bind_deeperAt hs _ fun _ ht => .bind (hg.unary ht) fun _ => .refl _

theorem secondOperand_follows (op : Token) (hs : s.Narrows E w) :
    Parse.Follows E Eq (g.secondOperand op s) (g'.secondOperand op (s.within w)) := by
  unfold secondOperand
  refine .bind (.refl _) ?_
  rintro ⟨t, p⟩
  dsimp only
  split
  · exact .ite .rfl (.refl _) (hg.unary hs)
  · exact .ite .rfl (.refl _) (hg.unary hs)
  · exact .bind (hg.statement hs) fun _ => .refl _
  · exact .bind (hg.statement hs) fun _ => .refl _
  · exact .bind (hg.statement hs) fun _ => .refl _
  · exact .bind (hg.statement hs) fun _ => .refl _
  · exact hg.unary hs

theorem binaryWith_follows (strength : Nat) (e : Expr) (hs : s.Narrows E w) :
    Parse.Follows E Eq (g.binaryWith strength e s) (g'.binaryWith strength e (s.within w)) := by
  unfold binaryWith
  refine .iterate_of (R := fun a b => b = (a.1, a.2.within w) ∧ a.2.Narrows E w) ?_ ⟨rfl, { hs with }⟩
  rintro ⟨root, s⟩ _ ⟨rfl, hs⟩
  refine .bind (.refl _) fun t => .ite .rfl (.pure (.inr rfl)) ?_
  split
  · exact .throw_bind _
  refine .ite .rfl (.pure (.inr rfl)) (.bind (.refl _) fun _ => .bind_deeper hs fun s hs => ?_)
  refine .bind (secondOperand_follows hg _ { hs with }) fun rhs => .bind (.refl _) ?_
  rintro ⟨u, q⟩
  dsimp only
  split
  · exact .throw_bind _
  refine .bind (.ite .rfl (hg.binary _ _ { hs with }) (.refl _)) fun rhs => .bind (.refl _) fun e => ?_
  exact .pure (.inl ⟨rfl, { hs with }⟩)

theorem expressionWith_follows (hs : s.Narrows E w) :
    Parse.Follows E Eq (g.expressionWith s) (g'.expressionWith (s.within w)) := by
  unfold expressionWith
  refine .bind (.refl _) fun t => .bind_deeperAt hs _ fun s hs => ?_
  exact .bind (hg.unary { hs with }) fun e => hg.binary 1 e { hs with }

end Grammar
end Lang
end ArmPilot
