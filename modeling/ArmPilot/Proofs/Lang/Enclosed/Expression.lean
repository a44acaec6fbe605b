import ArmPilot.Proofs.Lang.Enclosed.Basic

/-!
# Expressions in front of a closing parenthesis
-/

namespace ArmPilot
namespace Lang

open Cursor Parse

namespace Grammar

theorem ends_ended (s : Setting) : ends s .ended = false := Bool.and_false _

theorem ends_rightParen (s : Setting) : ends s (.mark .rightParen) = false := Bool.and_false _

/-- Operators end in front of a token that is none. -/
theorem isNoOperator (t : Token) (hzero : t.precedence = 0) (hright : t.bindsRight = false) (strength : Nat) :
    t.precedence < strength ∨ t.precedence = strength ∧ (!t.bindsRight) = true := by
  rw [hzero, hright]
  exact (Nat.eq_zero_or_pos strength).symm.imp id fun h => ⟨h.symm, rfl⟩

variable {g g' : Grammar} (hg : g.Agree g') {same : Bool} {s : Setting} {level limit : Nat} {pos : Position}

include hg

theorem arguments_reads (name : String) (empty : Bool) (hs : s.Leaves level limit) :
    Reads same (g.arguments name empty s) (g'.arguments name empty (s.moved level limit pos)) := by
  unfold arguments
  refine .ite (fun _ => .pure _) fun _ => .peek_bind (fun t => ?_) fun p q => .fails (.refuse _ _) _
  split
  · exact .fails (.refuse _ _) _
  · exact .fails (.refuse _ _) _
  · exact .take_bind (.behind (.pure _))
  refine .any (.deeper_bind hs fun s level hs => .iterate (fun args => .bind (R := Beside same) ?_ fun args => ?_) [])
  · refine .peek_bind (fun t => ?_) fun p q => .failsAtEnd (.bind (hg.expression_atEnd _) _) _
    split
    · exact .any (.pure _)
    · exact .any (.bind (hg.expression hs) fun _ => .pure _)
  · refine .peek_bind (fun t => ?_) fun p q => .fails (.refuse _ _) _
    split
    · exact .take_bind (.behind (.pure _))
    · exact .take_bind (.behind (.pure _))
    · exact .fails (.refuse _ _) _
    · exact .fails (.missing _ _ _ _) _

variable {t : Token × Position}

theorem parenthesized_reads (hs : s.Leaves level limit) :
    ReadsAt same t (g.parenthesized s) (g'.parenthesized (s.moved level limit pos)) := by
  unfold parenthesized
  refine .take_bind (.behind (.deeperAt_bind hs _ _ fun s level hs => .bind (hg.expression hs) fun e => ?_))
  exact .bind (.expectMark _ _) fun _ => .pure _

theorem arrayLiteral_reads (hs : s.Leaves level limit) :
    ReadsAt same t (g.arrayLiteral s) (g'.arrayLiteral (s.moved level limit pos)) := by
  unfold arrayLiteral
  refine .take_bind (.behind (.deeperAt_bind hs _ _ fun s level hs => ?_))
  refine .bind (.iterate (fun items => ?_) []) fun _ => .pure _
  refine .ite (fun _ => .fails (.behind fun _ => .bind (.refuse _ _) _) _) fun _ => ?_
  refine .peek_bind (fun t => ?_) fun p q => .fails (.refuse _ _) _
  split
  · exact .take_bind (.behind (.pure _))
  · exact .fails (.refuse _ _) _
  refine .any (.deeper_bind hs fun s level hs => .bind (hg.expression hs) fun e => ?_)
  refine .peek_bind (fun t => ?_) fun p q => .fails (.refuse _ _) _
  split
  · exact .take_bind (.behind (.pure _))
  · exact .any (.pure _)
  · exact .fails (.refuse _ _) _
  · exact .fails (.missing _ _ _ _) _

omit hg in
theorem memberName_reads (members : List (String × Expr)) : Reads same (memberName members) (memberName members) := by
  unfold memberName
  refine .next_bind (fun t => .behind ?_) fun p => (Fails.refuse _ _).atEnd
  split
  · exact .ite (fun _ => .fails (.refuse _ _) _) fun _ => .pure _
  · exact .ite (fun _ => .fails (.refuse _ _) _) fun _ => .pure _
  · exact .fails (.refuse _ _) _
  · refine .ite (fun _ => .fails (.refuse _ _) _) fun _ => ?_
    exact .ite (fun _ => .fails (.refuse _ _) _) fun _ => .fails (.refuse _ _) _
  · exact .fails (.refuse _ _) _
  · exact .fails (.refuse _ _) _
  · exact .ite (fun _ => .fails (.refuse _ _) _) fun _ => .fails (.refuse _ _) _

theorem mapLiteral_reads (hs : s.Leaves level limit) :
    ReadsAt same t (g.mapLiteral s) (g'.mapLiteral (s.moved level limit pos)) := by
  unfold mapLiteral
  refine .take_bind (.behind (.deeperAt_bind hs _ _ fun s level hs => ?_))
  refine .bind (.iterate (fun members => ?_) []) fun _ => .pure _
  refine .peek_bind (fun t => ?_) fun p q => .fails (.refuse _ _) _
  split
  · exact .take_bind (.behind (.pure _))
  · exact .fails (.refuse _ _) _
  refine .any (.bind (memberName_reads _) fun name => .bind (.expectMark _ _) fun _ => ?_)
  refine .ite (fun _ => .fails (.behind fun _ => .bind (.refuse _ _) _) _) fun _ => ?_
  refine .deeper_bind hs fun s level hs => .bind (hg.expression hs) fun e => ?_
  refine .peek_bind (fun t => ?_) fun p q => .fails (.missing _ _ _ _) _
  split
  · exact .take_bind (.behind (.pure _))
  · exact .any (.pure _)
  · exact .fails (.refuse _ _) _
  · exact .fails (.missing _ _ _ _) _

theorem indexLinks_reads (root : Expr) (optional : Bool) (p : Position) (hs : s.Leaves level limit) :
    Reads same (g.indexLinks root optional p s) (g'.indexLinks root optional p (s.moved level limit pos)) := by
  unfold indexLinks
  refine .iterate_related (R := fun a a' => ∃ level pos, a' = (a.1, a.2.1, a.2.2.1, a.2.2.2.moved level limit pos) ∧
    a.2.2.2.Leaves level limit) ?_ ⟨level, pos, rfl, hs⟩
  rintro ⟨links, optional, p, s⟩ _ ⟨level, pos, rfl, hs⟩
  refine .deeper_bind hs fun t tlevel ht => .bind (hg.expression ht) fun index => ?_
  dsimp only
  split
  all_goals try split
  · exact .fails (.bind (.throw _) _) _
  all_goals
    refine .bind (.expectMark _ _) fun _ => .peek_bind (fun t => ?_) fun p q =>
      .atEnd (.pure_of fun _ _ h => ⟨.inr rfl, h⟩)
    split
    · exact .take_bind (.behind (.deeperAt_bind hs _ _ fun s level hs => .pure_of fun _ _ h => ⟨.inl ⟨_, _, rfl, hs⟩, h⟩))
    · exact .take_bind (.behind (.deeperAt_bind hs _ _ fun s level hs => .pure_of fun _ _ h => ⟨.inl ⟨_, _, rfl, hs⟩, h⟩))
    · exact .any (.pure_of fun _ _ h => ⟨.inr rfl, h⟩)

omit hg in
theorem dotLinks_reads (rhs : Expr) (joint : Joint) : Reads same (dotLinks rhs joint) (dotLinks rhs joint) := by
  unfold dotLinks
  dsimp only
  split
  · exact .pure _
  all_goals
    refine .bind (R := Beside same) ?_ fun _ => .pure _
    split
    · exact .pure _
    · exact .pure _
    · exact .fails (.throw _) _
    · exact .fails (.throw _) _

theorem dotted_reads (e : Expr) (optional : Bool) (p : Position) (hs : s.Leaves level limit) :
    ReadsAt same t (postfixed.dotted g s e optional p) (postfixed.dotted g' (s.moved level limit pos) e optional p) := by
  unfold postfixed.dotted
  have hrest : ∀ (s : Setting) (level : Nat), s.Leaves level limit → Reads same
      (do
        let rhs ← g.primary { s with behindDot := true }
        return .inl (addLinks e (← dotLinks rhs ⟨optional, some p⟩) p) : Parse (Expr ⊕ Expr))
      (do
        let rhs ← g'.primary { s.moved level limit p with behindDot := true }
        return .inl (addLinks e (← dotLinks rhs ⟨optional, some p⟩) p)) :=
    fun s level hs => .bind (hg.primary (s := { s with behindDot := true }) hs) fun _ =>
      .bind (dotLinks_reads _ _) fun _ => .pure _
  refine .take_bind (.behind (.peek_bind (fun t => ?_) fun q r => .fails (.bind (.refuse _ _) _) _))
  split
  · exact .any (.bind (.modify_captures _) fun _ => .deeperAt_bind hs _ _ hrest)
  · exact .ite (fun _ => .fails (.bind (.refuse _ _) _) _) fun _ => .any (.deeperAt_bind hs _ _ hrest)
  · exact .fails (.bind (.refuse _ _) _) _

theorem indexed_reads (e : Expr) (optional : Bool) (p : Position) (hs : s.Leaves level limit) :
    ReadsAt same t (postfixed.indexed g s e optional p) (postfixed.indexed g' (s.moved level limit pos) e optional p) := by
  unfold postfixed.indexed
  refine .take_bind (.behind (.deeperAt_bind hs _ _ fun s level hs => ?_))
  exact .bind (indexLinks_reads hg _ _ _ hs) fun _ => .pure _

theorem postfixed_reads (e : Expr) (hs : s.Leaves level limit) :
    Reads same (g.postfixed e s) (g'.postfixed e (s.moved level limit pos)) := by
  unfold postfixed
  refine .iterate (fun e => .peek_bind ?_ fun p q => ?_) e
  · rintro ⟨t, p⟩
    refine .ite (fun _ => .any (.pure _)) fun _ => ?_
    dsimp only
    split
    · exact dotted_reads hg _ _ _ hs
    · exact dotted_reads hg _ _ _ hs
    · exact indexed_reads hg _ _ _ hs
    · exact indexed_reads hg _ _ _ hs
    · exact .take_bind (.behind (.bind (arguments_reads hg (s := { s with pos := _ }) _ _ hs) fun _ => .pure _))
    · exact .take_bind (.behind (.bind (arguments_reads hg (s := { s with pos := _ }) _ _ hs) fun _ => .pure _))
    · exact .take_bind (.behind (.bind (arguments_reads hg (s := { s with pos := _ }) _ _ hs) fun _ => .pure _))
    · exact .take_bind (.behind (.bind (arguments_reads hg (s := { s with pos := _ }) _ _ hs) fun _ => .pure _))
    · refine .take_bind (.behind (.next_bind (fun u => ?_) fun p => (Fails.refuse _ _).atEnd))
      split
      · exact .behind (.bind (arguments_reads hg (s := { s with pos := _ }) _ _ hs) fun _ => .pure _)
      · exact .behind (.pure _)
      · exact .fails (.refuse _ _) _
    · exact .take_bind (.fails (.behind fun _ => .ite (.refuse _ _) (.refuse _ _)) _)
    · exact .take_bind (.behind (.bind .variableName fun _ => .pure _))
    · exact .take_bind (.behind (.bind .variableName fun _ => .pure _))
    · exact .any (.pure _)
  · dsimp only
    rw [ends_ended, ends_rightParen, if_neg Bool.false_ne_true]
    exact .atEnd (.pure _)

omit hg in
theorem assign_reads (op : Option Mark) (target value : Expr) (p : Position) :
    Reads same (expressionStatement.assign op target value p) (expressionStatement.assign op target value p) := by
  unfold expressionStatement.assign
  dsimp only
  split
  · exact .pure _
  · refine .get_bind ?_
    rintro c _ ⟨htokens, houtside⟩
    exact .seen (.ite (fun _ => .fails (.throw _) _) fun _ => .pure _) ⟨htokens, houtside⟩
  · exact .pure _
  · exact .pure _
  · split
    · exact .fails (.throw _) _
    · split
      · exact .pure _
      · exact .pure _
      · exact .pure _
      · exact .fails (.throw _) _
  · exact .ite (fun _ => .fails (.refuse _ _) _) fun _ => .fails (.throw _) _
  · exact .ite (fun _ => .fails (.refuse _ _) _) fun _ => .fails (.throw _) _
  · exact .ite (fun _ => .fails (.refuse _ _) _) fun _ => .fails (.throw _) _
  · exact .ite (fun _ => .fails (.throw _) _) fun _ => .fails (.throw _) _

theorem expressionStatement_reads (hs : s.Leaves level limit) :
    Reads same (g.expressionStatement s) (g'.expressionStatement (s.moved level limit pos)) := by
  unfold expressionStatement
  refine .deeper_bind hs fun s level hs => .look_bind fun t t' => .bind (hg.expression hs) fun target => ?_
  have hassigned : ∀ (op : Option Mark) (p : Position) {t : Token × Position}, ReadsAt same t
      (do
        let _ ← Parse.next
        let value ← g.expression { s with pos := p }
        expressionStatement.assign op target value p)
      (do
        let _ ← Parse.next
        let value ← g'.expression (s.moved level limit p)
        expressionStatement.assign op target value p) :=
    fun op p _ => .take_bind (.behind (.bind (hg.expression hs) fun _ => assign_reads _ _ _ _))
  refine .peek_bind (fun u => ?_) fun p q => .atEnd (.pure _)
  split
  · exact hassigned _ _
  · split
    · exact hassigned _ _
    · exact .any (.pure _)
  · exact .any (.pure _)

theorem block_reads (hs : s.Leaves level limit) : Reads same (g.block s) (g'.block (s.moved level limit pos)) := by
  unfold block
  refine .deeper_bind hs fun s level hs => .next_bind ?_ fun p => ?_
  · rintro ⟨t, p⟩
    refine .ite (fun _ => .fails (.bind (.missing _ _ _ _) _) _) fun _ => .behind ?_
    refine .ite (fun _ => .bind (expressionStatement_reads hg hs) fun _ => ?_) fun _ => ?_
    · refine .bind (R := Beside same) ?_ fun _ => .pure _
      unfold block.Parse.expectClose
      refine .next_bind (fun u => .ite (fun _ => .behind (.pure _)) fun _ => .fails (.missing _ _ _ _) _) fun p => ?_
      exact (Fails.missing .ended p _ _).atEnd
    refine .get_bind ?_
    rintro c _ ⟨htokens, houtside⟩
    refine .seen (P := Beside same) ?_ ⟨htokens, houtside⟩
    refine .bind (R := Beside same) (.modify_of fun _ _ ⟨htokens, houtside⟩ => ⟨htokens, houtside⟩) fun _ => ?_
    refine .bind (R := Beside same) (.iterate (fun stmts => ?_) []) fun _ => ?_
    · refine .peek_bind (fun u => ?_) fun p q => .fails (.refuse _ _) _
      split
      · exact .take_bind (.behind (.pure _))
      · exact .fails (.refuse _ _) _
      refine .before (.deeper_bind (s := { s with pos := p, outermost := false }) hs fun s level hs => ?_)
      refine .bind (hg.statement hs) fun stmt => ?_
      refine .ite (fun _ => .pure _) fun _ => .peek_bind (fun v => ?_) fun p q => ?_
      · split
        · exact .take_bind (.behind (.pure _))
        · exact .take_bind (.behind (.pure _))
        · exact .ite (fun _ => .any (.pure _)) fun _ => .fails (.missing _ _ _ _) _
      · exact .ite (fun _ => .atEnd (.pure _)) fun _ => .fails (.missing _ _ _ _) _
    · refine .get_bind ?_
      rintro c _ ⟨htokens, houtside⟩
      refine .seen (P := Beside same) (.bind (.forget _) fun _ => ?_) ⟨htokens, houtside⟩
      exact .bind (R := Beside same) (.modify_of fun _ _ ⟨htokens, houtside⟩ => ⟨htokens, houtside⟩) fun _ => .pure _
  · exact ((Fails.missing .ended p _ _).bind _).atEnd

theorem condition_reads (hs : s.Leaves level limit) :
    Reads same (g.condition s) (g'.condition (s.moved level limit pos)) := by
  unfold condition
  refine .bind (.refuseBlock _) fun _ => .deeper_bind hs fun s level hs => .bind (hg.expression hs) fun e => ?_
  exact .bind (.asCondition _) fun _ => .bind .refuseAssignment fun _ => .pure _

theorem conditional_reads (hs : s.Leaves level limit) :
    ReadsAt same t (g.conditional s) (g'.conditional (s.moved level limit pos)) := by
  unfold conditional
  refine .deeper_bind hs fun s level hs => .take_bind (.behind (.bind (condition_reads hg hs) fun cond => ?_))
  refine .bind (block_reads hg hs) fun body => .bind (.acceptWord _) fun _ => .ite (fun _ => ?_) fun _ => .pure _
  refine .peek_bind (fun u => ?_) fun p q => .atEnd (.bind (block_reads hg hs) fun _ => .pure _)
  split
  · exact .before (.bind (hg.statement hs) fun _ => .pure _)
  · exact .any (.bind (block_reads hg hs) fun _ => .pure _)

theorem caseValues_reads (hs : s.Leaves level limit) :
    Reads same (g.caseValues s) (g'.caseValues (s.moved level limit pos)) := by
  unfold caseValues
  refine .iterate (fun values => .get_bind fun c c' hc => ?_) []
  have hvalue : Reads same (do g.expression (← { s with stopsAtPipe := true }.deeper))
      (do g'.expression (← { s.moved level limit pos with stopsAtPipe := true }.deeper)) :=
    .deeper_bind (s := { s with stopsAtPipe := true }) hs fun _ _ hs => hg.expression hs
  split
  · exact .fails (.throw _) _
  · rename_i e d hr
    obtain ⟨_, d', hr', rfl, hd⟩ := hvalue c c' _ _ hc hr
    rw [hr']
    refine .bind (.set_of hd) fun _ => .bind (.acceptMark nofun) fun _ => ?_
    exact .ite (fun _ => .pure _) fun _ => .pure _

omit hg in
theorem literalCases_reads : ∀ (es : List Expr) (ranged : Bool), Reads same (literalCases ranged es) (literalCases ranged es)
  | [], _ => .pure _
  | e :: rest, ranged => by
    have ih := literalCases_reads rest
    unfold literalCases
    split
    · exact .fails (.throw _) _
    · exact .bind (ih _) fun _ => .pure _
    · exact .ite (fun _ => .fails (.bind (.throw _) _) _) fun _ => .bind (ih _) fun _ => .pure _

omit hg in
theorem literalCases_idles : ∀ (es : List Expr) (ranged : Bool), IdlesAtEnd (literalCases ranged es)
  | [], _ => .pure _
  | e :: rest, ranged => by
    have ih := literalCases_idles rest
    unfold literalCases
    split
    · exact (Fails.throw _).atEnd.idles
    · exact .bind (ih _) fun _ => .pure _
    · exact .ite ((Fails.throw _).bind _).atEnd.idles (.bind (ih _) fun _ => .pure _)

theorem switching_reads (hs : s.Leaves level limit) :
    ReadsAt same t (g.switching s) (g'.switching (s.moved level limit pos)) := by
  unfold switching
  refine .deeper_bind hs fun s level hs => .take_bind (.behind ?_)
  refine .deeper_bind (s := { s with pos := t.2 }) hs fun _ _ hv => .bind (hg.expression hv) fun value => ?_
  refine .bind (.expectMark _ _) fun _ => .bind (.iterate ?_ _) fun _ => .pure _
  rintro ⟨cases, default, ranged⟩
  refine .peek_bind ?_ fun p q => .fails (.refuse _ _) _
  rintro ⟨u, p⟩
  dsimp only
  split
  · exact .take_bind (.behind (.pure _))
  · exact .fails (.refuse _ _) _
  refine .bind (R := Beside same) ?_ fun x => .bind (.expectMark _ _) fun _ => ?_
  · split
    · exact .fails (.refuse _ _) _
    · refine .take_bind (.behind (.peek_bind (fun v => ?_) fun p q => .atEnd (.pure _)))
      split
      · exact .fails (.refuse _ _) _
      · exact .any (.pure _)
    · refine .any (.bind (caseValues_reads hg hs) fun values => .bind (.acceptWord _) fun _ => ?_)
      exact .ite (fun _ => .bind (condition_reads hg hs) fun _ => .pure _) fun _ => .pure _
  -- at the end of a script an empty statement may follow the arrow, but no more
  refine .beforeEnd (.bind (R := Beside same) ?_ fun y => .bind (literalCases_reads _ _) fun z => ?_) ?_
  · refine .ite (fun _ => ?_) fun _ => ?_
    · exact .deeper_bind (s := { s with pos := t.2 }) hs fun _ _ hs => .bind (hg.statement hs) fun _ => .pure _
    · refine .deeper_bind (s := { s with pos := t.2 }) hs fun _ _ hs => .bind ?_ fun _ => .pure _
      exact (hg.expression hs).of_le fun _ _ h => h.1
  · refine .peek_bind (fun v => ?_) fun p q => .fails (.refuse _ _) _
    split
    · exact .take_bind (.behind (.pure _))
    · exact .any (.pure _)
    · exact .fails (.refuse _ _) _
    · exact .fails (.refuse _ _) _
    · exact .ite (fun _ => .any (.pure _)) fun _ => .fails (.refuse _ _) _
  · refine .behind (.ite ?_ ?_) fun y => .behind (literalCases_idles _ _) fun z =>
      .peek_bind fun p => (Fails.refuse _ _).atEnd
    · exact .deeper_bind _ fun _ => .bind (hg.statement_atEnd _) fun _ => .pure _
    · exact .deeper_bind _ fun _ => .bind (hg.expression_atEnd _).idles fun _ => .pure _

omit hg in
theorem parameterName_reads (close : Mark) (owner : String) :
    Reads same (parameterName close owner) (parameterName close owner) := by
  unfold parameterName
  refine .next_bind (fun t => .behind ?_) fun p => (Fails.refuse _ _).atEnd
  split
  · exact .pure _
  · exact .fails (.refuse _ _) _
  · exact .fails (.refuse _ _) _
  · exact .ite (fun _ => .fails (.refuse _ _) _) fun _ => .fails (.refuse _ _) _

omit hg in
theorem parameterName_fails (close : Mark) (owner : String) : FailsAtEnd (parameterName close owner) := by
  unfold parameterName
  exact .next_bind fun p => (Fails.refuse _ _).atEnd

omit hg in
/-- Behind a list of parameters stands the mark that closes it. -/
theorem parameterNames_reads (function : String) (close : Mark) (owner separated : String) :
    Echoes (Beside same) (parameterNames function close owner separated) (parameterNames function close owner separated)
      (Giving (Cursor.Behind same (.mark close))) := by
  unfold parameterNames
  refine (Echoes.iterate_of (I := Giving (Beside same)) ?_ (fun _ _ _ _ h => h.2) [] []).of_le fun _ _ h => ⟨rfl, h⟩
  refine fun names _ => .of_eq ?_
  rintro rfl
  refine .accept_bind (fun _ => Token.eq_mark_of_beq) nofun ?_ ?_ ?_
  · exact .pure_of fun _ _ h => .inr ⟨rfl, h⟩
  · refine .bind (parameterName_reads _ _) fun name => .ite (fun _ => .fails (.bind (.refuse _ _) _) _) fun _ => ?_
    refine .next_bind ?_ fun p => ?_
    · rintro ⟨t, p⟩
      dsimp only
      split
      · exact .behind (.pure_of fun _ _ h => .inl ⟨rfl, h⟩)
      · rename_i u q _ heq
        cases heq
        refine .ite (fun ht => ?_) fun _ => .fails (.missing _ _ _ _) _
        exact Token.eq_mark_of_beq ht ▸ .pure_of fun _ _ h => .inr ⟨rfl, h⟩
    · exact (Fails.missing .ended p "," _).atEnd
  · exact fun _ => .bind (parameterName_fails _ _) _

theorem closure_reads (hs : s.Leaves level limit) :
    ReadsAt same t (g.closure s) (g'.closure (s.moved level limit pos)) := by
  unfold closure
  refine .deeper_bind hs fun s level hs => .take_bind ?_
  obtain ⟨t, p⟩ := t
  dsimp only
  -- a bar stands in front of the body
  refine .bind (R := BeforeEnd same) (.ite (fun ht => ?_) fun _ => ?_) fun parameters => ?_
  · exact .pure_of fun _ _ h => ⟨rfl, h.1, h.2 (Token.eq_mark_of_beq ht ▸ rfl)⟩
  · exact .behind ((parameterNames_reads _ _ _ _).giving_of_le fun _ _ h => ⟨h.1, h.2 rfl⟩)
  refine .get_bind ?_
  rintro outer _ ⟨⟨htokens, houtside⟩, hleft⟩
  refine .bind (R := BeforeEnd true) (.set_of ⟨⟨htokens, fun _ => rfl⟩, hleft⟩) fun _ =>
    .bind (hg.statement hs) fun body => ?_
  refine .get_bind ?_
  rintro inner _ ⟨hinner, hsame⟩
  obtain rfl := hsame rfl
  refine .bind (R := Beside same) (.set_of ⟨hinner, houtside⟩) fun _ => ?_
  refine .bind (.forIn _ (fun x _ => .bind (.access _ _) fun _ => .pure _) _) fun _ => ?_
  exact .bind (R := Beside same) (.modify_of fun _ _ ⟨htokens, houtside⟩ => ⟨htokens, houtside⟩) fun _ => .pure _

theorem interpolated_reads (hs : s.Leaves level limit) :
    ReadsAt same t (g.interpolated s) (g'.interpolated (s.moved level limit pos)) := by
  unfold interpolated
  refine .take_bind (.behind (.bind (.iterate (fun parts => ?_) _) fun _ => .ite (fun _ => .pure _) fun _ => .pure _))
  refine .bind (block_reads hg hs) fun body => .next_bind (fun u => .behind ?_) fun p => (Fails.throw _).atEnd
  split
  · exact .pure _
  · exact .pure _
  · exact .fails (.refuse _ _) _
  · exact .fails (.throw _) _

theorem operand_reads (hs : s.Leaves level limit) :
    Reads same (g.operand s) (g'.operand (s.moved level limit pos)) := by
  unfold operand
  refine .peek_bind ?_ fun p q => .fails (.refuse _ _) _
  rintro ⟨t, p⟩
  dsimp only
  split
  case h_9 => exact parenthesized_reads hg hs
  case h_10 => exact arrayLiteral_reads hg hs
  case h_11 => exact mapLiteral_reads hg hs
  case h_12 => exact interpolated_reads hg hs
  case h_13 => exact .bind (conditional_reads hg hs) fun _ => .pure _
  case h_14 => exact .bind (switching_reads hg hs) fun _ => .pure _
  case h_15 | h_16 => exact closure_reads hg hs
  case h_17 =>
    exact .ite (fun _ => .any (.bind (block_reads hg hs) fun _ => .pure _)) fun _ => .fails (.refuse _ _) _
  case h_18 | h_19 | h_20 | h_21 =>
    exact .ite (fun _ => .before (.bind (hg.statement hs) fun _ => .pure _)) fun _ => .fails (.refuse _ _) _
  case h_22 =>
    refine .take_bind (.behind (.peek_bind (fun u => ?_) fun p q => .atEnd (.bind (.access _ _) fun _ => .pure _)))
    split
    · exact .any (.bind (.modify_captures _) fun _ => .pure _)
    · exact .any (.bind (.modify_captures _) fun _ => .pure _)
    · exact .any (.bind (.modify_captures _) fun _ => .pure _)
    · exact .ite (fun _ => .fails (.bind (.refuse _ _) _) _) fun _ => .any (.bind (.modify_captures _) fun _ => .pure _)
    · exact .any (.bind (.access _ _) fun _ => .pure _)
  case h_23 =>
    have hword : ∀ w p, Reads same (if w = "this" then (if s.inFunction then return .this (some p)
        else Parse.refuse (.lexical (.improper "'this' can only be used in functions")) p)
        else Parse.refuse (.reservedWord w) p : Parse Expr) (if w = "this" then (if s.inFunction then return .this (some p)
        else Parse.refuse (.lexical (.improper "'this' can only be used in functions")) p)
        else Parse.refuse (.reservedWord w) p) := fun w p =>
      .ite (fun _ => .ite (fun _ => .pure _) fun _ => .fails (.refuse _ _) _) fun _ => .fails (.refuse _ _) _
    refine .take_bind (.behind (.peek_bind (fun u => ?_) fun p q => ?_))
    · exact .ite (fun _ => .any (.pure _)) fun _ => .any (hword _ _)
    · exact .ite (fun _ => .atEnd (.pure _)) fun _ => .atEnd (hword _ _)
  case h_1 | h_24 | h_25 => exact .fails (.refuse _ _) _
  all_goals exact .take_bind (.behind (.pure _))

theorem primaryWith_reads (hs : s.Leaves level limit) :
    Reads same (g.primaryWith s) (g'.primaryWith (s.moved level limit pos)) := by
  unfold primaryWith
  refine .peek_bind (fun t => .ite (fun _ => .fails (.bind (.refuse _ _) _) _) fun _ => .any ?_) fun p q => ?_
  · exact .bind (operand_reads hg hs) fun e => postfixed_reads hg _ hs
  · dsimp only
    rw [ends_ended, ends_rightParen, if_neg Bool.false_ne_true]
    exact .atEnd (.bind (operand_reads hg hs) fun e => postfixed_reads hg _ hs)

theorem unaryWith_reads (hs : s.Leaves level limit) :
    Reads same (g.unaryWith s) (g'.unaryWith (s.moved level limit pos)) := by
  unfold unaryWith
  refine .peek_bind ?_ fun p q => .fails (.ite (.bind (.refuse _ _) _) (.refuse _ _)) _
  rintro ⟨t, p⟩
  refine .ite (fun _ => .fails (.bind (.refuse _ _) _) _) fun _ => ?_
  dsimp only
  split
  case h_6 | h_7 => exact .any (.pure _)
  case h_8 => exact .fails (.refuse _ _) _
  case h_9 => exact .any (hg.primary hs)
  all_goals
    refine .take_bind (.behind (.deeperAt_bind hs _ _ fun s level hs => .bind (hg.unary hs) fun e => ?_))
    repeat' split
    all_goals exact .pure _

omit hg in
theorem unaryWith_atEnd (s : Setting) : FailsAtEnd (g.unaryWith s) := by
  unfold unaryWith
  exact .peek_bind fun p => (Fails.ite (.bind (.refuse _ _) _) (.refuse _ _)).atEnd

omit hg in
theorem join_reads (op : Token) (l r : Expr) (p : Position) : Reads same (join op l r p) (join op l r p) := by
  unfold join
  split
  · exact .bind (.asCondition _) fun _ => .bind (.asCondition _) fun _ => .pure _
  · exact .bind (.asCondition _) fun _ => .bind (.asCondition _) fun _ => .pure _
  all_goals exact .pure _

/-- A range may be open in front of a parenthesis, but not at the end of a script. -/
theorem secondOperand_reads (op : Token) (hs : s.Leaves level limit) :
    Reads same (g.secondOperand op s) (g'.secondOperand op (s.moved level limit pos)) := by
  unfold secondOperand
  refine .peek_bind ?_ fun p q => .failsAtEnd ?_ _
  · rintro ⟨t, p⟩
    dsimp only
    split
    · exact .any (.ite (fun _ => .pure _) fun _ => hg.unary hs)
    · exact .any (.ite (fun _ => .pure _) fun _ => hg.unary hs)
    · exact .before (.bind (hg.statement hs) fun _ => .pure _)
    · exact .before (.bind (hg.statement hs) fun _ => .pure _)
    · exact .before (.bind (hg.statement hs) fun _ => .pure _)
    · exact .before (.bind (hg.statement hs) fun _ => .pure _)
    · exact .any (hg.unary hs)
  · dsimp only
    split
    · exact hg.unary_atEnd _
    · exact hg.unary_atEnd _
    all_goals first | exact hg.unary_atEnd _ | (rename_i h; cases h)

theorem binaryWith_reads (strength : Nat) (e : Expr) (hs : s.Leaves level limit) :
    Reads same (g.binaryWith strength e s) (g'.binaryWith strength e (s.moved level limit pos)) := by
  unfold binaryWith
  refine .iterate_related (R := fun a a' => ∃ level pos, a' = (a.1, a.2.moved level limit pos) ∧ a.2.Leaves level limit) ?_
    ⟨level, _, rfl, hs⟩
  rintro ⟨root, s⟩ _ ⟨level, pos, rfl, hs⟩
  refine .peek_bind (fun t => ?_) fun p q => ?_
  · refine .ite (fun _ => .any (.pure_of fun _ _ h => ⟨.inr rfl, h⟩)) fun _ => ?_
    split
    · exact .fails (.bind (.refuse _ _) _) _
    refine .ite (fun _ => .any (.pure_of fun _ _ h => ⟨.inr rfl, h⟩)) fun _ => .take_bind (.behind ?_)
    refine .deeper_bind hs fun s level hs => .bind (secondOperand_reads hg _ hs) fun rhs => ?_
    have hjoin : ∀ (rhs : Expr), Echoes (Beside same)
        (do return .inl (← join t.1 root rhs t.2, { s with pos := t.2 }) : Parse (Expr × Setting ⊕ Expr))
        (do return .inl (← join t.1 root rhs t.2, s.moved level limit t.2))
        fun r r' c c' => Sum.LiftRel (fun a a' => ∃ level pos, a' = (a.1, a.2.moved level limit pos) ∧
          a.2.Leaves level limit) (fun b b' => b' = b) r r' ∧ Beside same c c' := fun rhs =>
      .bind (join_reads _ _ _ _) fun e => .pure_of fun _ _ h => ⟨.inl ⟨_, _, rfl, hs⟩, h⟩
    refine .peek_bind ?_ fun p q => ?_
    · rintro ⟨u, q⟩
      dsimp only
      split
      · exact .fails (.bind (.refuse _ _) _) _
      exact .any (.bind (R := Beside same) (.ite (fun _ => hg.binary _ _ hs) fun _ => .pure _) hjoin)
    · dsimp only [reservedSymbol?]
      exact .atEnd (.bind (R := Beside same) (.ite (fun _ => hg.binary _ _ hs) fun _ => .pure _) hjoin)
  · dsimp only [reservedSymbol?]
    rw [ends_ended, ends_rightParen, if_neg Bool.false_ne_true, if_neg Bool.false_ne_true,
      if_pos (isNoOperator .ended rfl rfl strength), if_pos (isNoOperator (.mark .rightParen) rfl rfl strength)]
    exact .atEnd (.pure_of fun _ _ h => ⟨.inr rfl, h⟩)

theorem expressionWith_reads (hs : s.Leaves level limit) :
    Reads same (g.expressionWith s) (g'.expressionWith (s.moved level limit pos)) := by
  unfold expressionWith
  refine .look_bind fun t t' => .deeperAt_bind hs _ _ fun s level hs => ?_
  exact .bind (hg.unary (s := { s with behindDot := false }) hs) fun e => hg.binary _ _ hs

theorem expressionWith_atEnd (s : Setting) : FailsAtEnd (g.expressionWith s) := by
  unfold expressionWith
  exact .peek_bind fun p => .deeper_bind _ fun s => .bind (hg.unary_atEnd _) _

end Grammar
end Lang
end ArmPilot
