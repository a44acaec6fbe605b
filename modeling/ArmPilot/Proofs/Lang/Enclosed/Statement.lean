import ArmPilot.Proofs.Lang.Enclosed.Expression

/-!
# Statements in front of a closing parenthesis

However deep code is nested, it is read in front of a closing parenthesis as at the end of a script (`grammar_agree`).
-/

namespace ArmPilot
namespace Lang

open Cursor Parse

namespace Grammar

variable {same : Bool}

theorem closing_reads (purpose : String) : Reads same (closing purpose) (closing purpose) := by
  unfold closing
  refine .accept_bind (fun _ => Token.eq_mark_of_beq) nofun (.behind (.ite (fun h => by cases h) fun _ => .pure _)) ?_ ?_
  · exact .fails (.behind fun _ => .refuse _ _) _
  · exact fun _ => (Fails.behind fun _ => .refuse _ _).atEnd

theorem loopVariables_reads : Reads same loopVariables loopVariables := by
  unfold loopVariables
  refine .bind (.acceptMark nofun) fun _ => .ite (fun _ => .bind .variableName fun name => ?_) fun _ => ?_
  · refine .bind (.acceptMark nofun) fun _ => .ite (fun _ => .fails (.behind fun _ => .bind (.refuse _ _) _) _) fun _ => ?_
    refine .bind .variableName fun counter => .ite (fun _ => .fails (.bind (.refuse _ _) _) _) fun _ => ?_
    exact .bind (closing_reads _) fun _ => .pure _
  · exact .bind .variableName fun _ => .pure _

theorem name_reads (t : Token) (p : Position) : Reads same (functionName.name t p) (functionName.name t p) := by
  unfold functionName.name
  split
  · exact .pure _
  · exact .fails (.refuse _ _) _
  · exact .fails (.refuse _ _) _

theorem functionName_reads : Reads same functionName functionName := by
  unfold functionName
  refine .next_bind ?_ fun p => ?_
  · rintro ⟨t, p⟩
    refine .behind (.peek_bind ?_ fun q r => ?_)
    · rintro ⟨u, q⟩
      dsimp only
      split
      · refine .take_bind (.behind (.next_bind (fun v => .behind (.bind (name_reads _ _) fun _ => .pure _)) fun p => ?_))
        exact ((Fails.refuse _ _).bind _).atEnd
      · refine .take_bind (.behind (.next_bind (fun v => .behind (.bind (name_reads _ _) fun _ => .pure _)) fun p => ?_))
        exact ((Fails.refuse _ _).bind _).atEnd
      · exact .fails (.behind fun _ => .refuse _ _) _
      · exact .any (.bind (name_reads _ _) fun _ => .pure _)
    · cases t with
      | string type => exact .fails (.behind fun _ => .refuse _ _) _
      | _ => exact .atEnd (.bind (name_reads _ _) fun _ => .pure _)
  · exact .peek_bind fun q => ((Fails.refuse _ _).bind _).atEnd

variable {g g' : Grammar} (hg : g.Agree g') {s : Setting} {level limit : Nat} {pos : Position} {t : Token × Position}

include hg

theorem declaration_reads (readOnly : Bool) (hs : s.Leaves level limit) :
    ReadsAt same t (g.declaration readOnly s) (g'.declaration readOnly (s.moved level limit pos)) := by
  unfold declaration
  refine .deeper_bind hs fun s level hs => .take_bind (.behind (.bind .variableName fun name => ?_))
  refine .bind (R := Beside same) ?_ fun _ => .bind (.redeclare _ _) fun _ => .pure _
  refine .bind (.acceptMark nofun) fun _ => .ite (fun _ => ?_) fun _ => .pure _
  exact .deeper_bind (s := { s with pos := t.2 }) hs fun s level hs => hg.expression hs

theorem whileLoop_reads (hs : s.Leaves level limit) :
    ReadsAt same t (g.whileLoop s) (g'.whileLoop (s.moved level limit pos)) := by
  unfold whileLoop
  refine .deeper_bind hs fun s level hs => .take_bind (.behind (.bind (R := Beside same) ?_ fun cond => ?_))
  · exact .ite (fun _ => .map _ (condition_reads hg hs)) fun _ => .pure _
  · exact .bind (block_reads hg hs) fun _ => .pure _

theorem doLoop_reads (hs : s.Leaves level limit) :
    ReadsAt same t (g.doLoop s) (g'.doLoop (s.moved level limit pos)) := by
  unfold doLoop
  refine .deeper_bind hs fun s level hs => .take_bind (.behind (.bind (block_reads hg hs) fun body => ?_))
  refine .bind (R := Beside same) ?_ fun negated => .bind (condition_reads hg hs) fun _ => .pure _
  refine .next_bind (fun u => .behind ?_) fun p => (Fails.refuse _ _).atEnd
  split
  · exact .pure _
  · exact .pure _
  · exact .fails (.refuse _ _) _

theorem forLoop_reads (hs : s.Leaves level limit) :
    ReadsAt same t (g.forLoop s) (g'.forLoop (s.moved level limit pos)) := by
  unfold forLoop
  refine .deeper_bind hs fun s level hs => .take_bind (.behind (.bind loopVariables_reads fun names => ?_))
  refine .next_bind ?_ fun p => ((Fails.missing .ended p "in" _).bind _).atEnd
  rintro ⟨u, q⟩
  refine .ite (fun _ => .fails (.bind (.missing _ _ _ _) _) _) fun _ => .behind (.bind (.refuseBlock _) fun _ => ?_)
  refine .deeper_bind (s := { s with pos := t.2 }) hs fun _ _ ht => .bind (hg.expression ht) fun e => ?_
  refine .bind (.asIterable _) fun source => .get_bind ?_
  rintro c _ ⟨htokens, houtside⟩
  refine .seen (P := Beside same) ?_ ⟨htokens, houtside⟩
  split
  · refine .bind (.declare _ _) fun _ => .bind (.declare _ _) fun _ => ?_
    exact .bind (block_reads hg hs) fun _ => .bind (.forget _) fun _ => .pure _
  · exact .bind (.declare _ _) fun _ => .bind (block_reads hg hs) fun _ => .bind (.forget _) fun _ => .pure _

theorem tryBlock_reads (hs : s.Leaves level limit) :
    ReadsAt same t (g.tryBlock s) (g'.tryBlock (s.moved level limit pos)) := by
  unfold tryBlock
  refine .deeper_bind hs fun s level hs => .take_bind (.behind (.bind (block_reads hg hs) fun body => ?_))
  refine .bind (.acceptWord _) fun _ => .ite (fun _ => .fails (.behind fun _ => .bind (.refuse _ _) _) _) fun _ => ?_
  refine .get_bind ?_
  rintro c _ ⟨htokens, houtside⟩
  refine .seen (P := Beside same) (.bind (R := Beside same) ?_ fun name => ?_) ⟨htokens, houtside⟩
  · refine .bind (.acceptMark nofun) fun _ => .ite (fun _ => .bind .variableName fun name => ?_) fun _ => .pure _
    exact .bind (closing_reads _) fun _ => .bind (.declare _ _) fun _ => .pure _
  · exact .bind (block_reads hg hs) fun _ => .bind (.forget _) fun _ => .pure _

theorem function_reads (p : Position) :
    Reads same (g.function p s) (g'.function p (s.moved level limit pos)) := by
  unfold function
  refine .get_bind ?_
  rintro outer _ ⟨htokens, houtside⟩
  refine .bind (R := Beside true) (.set_of ⟨htokens, fun _ => rfl⟩) fun _ => .bind functionName_reads fun name => ?_
  refine .bind (R := Beside true) ?_ fun parameters => ?_
  · refine .bind (.acceptMark nofun) fun _ => .ite (fun _ => .pure _) fun _ => ?_
    refine .bind (.acceptMark nofun) fun _ => .ite (fun _ => ?_) fun _ => .fails (.behind fun _ => .refuse _ _) _
    exact (parameterNames_reads _ _ _ _).giving_of_le fun _ _ h => h.1
  refine .bind (R := Beside true) (.modify_of fun _ _ ⟨htokens, houtside⟩ => ⟨htokens, houtside⟩) fun _ => ?_
  refine .peek_bind (fun t => ?_) fun p q => .fails (.refuse _ _) _
  split
  · refine .any (.bind (block_reads hg ?_) fun body => .get_bind ?_)
    · exact (Nat.eq_zero_or_pos s.functionLimit).imp id fun h => ⟨h, Nat.le_refl _⟩
    rintro c _ ⟨hbody, hsame⟩
    refine .seen (P := Beside true) (.ite (fun _ => .fails (.bind (.refuse _ _) _) _) fun _ => ?_) ⟨hbody, hsame⟩
    exact .bind (R := Beside same) (.modify_of fun _ _ ⟨htokens, _⟩ => ⟨htokens, houtside⟩) fun _ => .pure _
  · exact .fails (.refuse _ _) _

theorem leavingValue_reads (hs : s.Leaves level limit) :
    Reads same (g.leavingValue s) (g'.leavingValue (s.moved level limit pos)) := by
  unfold leavingValue
  refine .peek_bind (fun t => .any (.ite (fun _ => ?_) fun _ => .pure _)) fun p q => .atEnd (.pure _)
  exact .deeper_bind hs fun s level hs => .bind (hg.expression hs) fun _ => .pure _

theorem statementWith_reads (hs : s.Leaves level limit) : Echoes (BeforeEnd same) (g.statementWith s)
    (g'.statementWith (s.moved level limit pos)) (Giving (Beside same)) := by
  unfold statementWith
  refine .peek_bind_beforeEnd ?_
  rintro ⟨t, p⟩
  dsimp only
  split
  case h_1 => exact fun _ _ _ _ h => absurd rfl h.2.1
  case h_2 => exact .take_bind (.behind (.pure _))
  case h_3 => exact .any (.bind (block_reads hg hs) fun _ => .pure _)
  case h_4 =>
    exact .ite (fun _ => .fails (.bind (.refuse _ _) _) _) fun _ => .take_bind (.behind (function_reads hg _))
  case h_5 =>
    refine .take_bind (.behind (.next_bind (fun u => .behind ?_) fun p => ((Fails.refuse _ _).bind _).atEnd))
    exact .ite (fun _ => .fails (.bind (.refuse _ _) _) _) fun _ => function_reads hg _
  case h_6 => exact conditional_reads hg hs
  case h_7 => exact switching_reads hg hs
  case h_8 | h_9 => exact whileLoop_reads hg hs
  case h_10 => exact doLoop_reads hg hs
  case h_11 => exact forLoop_reads hg hs
  case h_12 => exact tryBlock_reads hg hs
  case h_13 | h_14 => exact declaration_reads hg _ hs
  case h_15 => exact .ite (fun _ => .fails (.bind (.refuse _ _) _) _) fun _ => .take_bind (.behind (.pure _))
  case h_16 =>
    refine .ite (fun _ => .fails (.bind (.refuse _ _) _) _) fun _ => .take_bind (.behind ?_)
    exact .bind (leavingValue_reads hg hs) fun _ => .pure _
  case h_17 | h_18 => exact .take_bind (.behind (.bind (leavingValue_reads hg hs) fun _ => .pure _))
  case h_19 => exact .any (expressionStatement_reads hg hs)

omit hg in
theorem statementWith_atEnd (s : Setting) : IdlesAtEnd (g.statementWith s) := by
  unfold statementWith
  exact .peek_bind fun p => .pure _

end Grammar

/-- However deep code is nested, it is read in front of a closing parenthesis as at the end of a script. -/
theorem grammar_agree : ∀ {depth depth' : Nat}, depth ≤ depth' → (grammar depth).Agree (grammar depth')
  | 0, _, _ =>
    have hdeep {α : Type} : Fails (do Parse.refuse .tooDeep (← Parse.peek).2 : Parse α) := .behind fun _ => .refuse _ _
    { expression := fun _ => .fails hdeep _
      unary := fun _ => .fails hdeep _
      primary := fun _ => .fails hdeep _
      binary := fun _ _ _ _ _ _ _ _ => .fails hdeep _
      statement := fun _ => .fails hdeep _
      expression_atEnd := fun _ => hdeep.atEnd
      unary_atEnd := fun _ => hdeep.atEnd
      statement_atEnd := fun _ => hdeep.atEnd.idles }
  | _ + 1, _ + 1, h =>
    have ih := grammar_agree (Nat.le_of_succ_le_succ h)
    { expression := Grammar.expressionWith_reads ih
      unary := Grammar.unaryWith_reads ih
      primary := Grammar.primaryWith_reads ih
      binary := fun strength e _ _ _ _ _ hs => Grammar.binaryWith_reads ih strength e hs
      statement := Grammar.statementWith_reads ih
      expression_atEnd := Grammar.expressionWith_atEnd ih
      unary_atEnd := Grammar.unaryWith_atEnd
      statement_atEnd := Grammar.statementWith_atEnd }

end Lang
end ArmPilot
