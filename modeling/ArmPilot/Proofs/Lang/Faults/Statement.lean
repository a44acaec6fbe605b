import ArmPilot.Proofs.Lang.Faults.Expression

/-!
# Scripts and faults

A script with a fault among its tokens is refused (`Bounds.parseScript_faulty`).
-/

namespace ArmPilot
namespace Lang
namespace Grammar

open Tokens

theorem closing_stays (purpose : String) : Parse.Stays Faulty (closing purpose) := by
  unfold closing
  exact .bind (.acceptMark _) fun _ => .ite (fun _ => .peek_bind fun _ => .refuse _ _) fun _ => .pure _

theorem loopVariables_stays : Parse.Stays Faulty loopVariables := by
  unfold loopVariables
  refine .bind (.acceptMark _) fun _ => .ite (fun _ => .bind .variableName fun name => ?_) fun _ => ?_
  · refine .bind (.acceptMark _) fun _ => .ite (fun _ => .peek_bind fun _ => .refuse_bind _ _ _) fun _ => ?_
    refine .bind .variableName fun counter => .ite (fun _ => .refuse_bind _ _ _) fun _ => ?_
    exact .bind (closing_stays _) fun _ => .pure _
  · exact .bind .variableName fun _ => .pure _

theorem name_stays (t : Token) (p : Position) : Parse.Stays (Behind (t, p)) (functionName.name t p) := by
  unfold functionName.name
  split
  · exact .behind rfl (.pure _)
  · exact .refuse _ _
  · exact .refuse _ _

theorem functionName_stays : Parse.Stays Faulty functionName := by
  unfold functionName
  refine .next_bind ?_
  rintro ⟨t, p⟩
  dsimp only
  cases ht : t.isFault with
  | true =>
    -- a fault is no name
    cases t <;> cases ht
    exact .look_bind fun u => .refuse_bind _ _ _
  | false =>
    refine .behind ht (.peek_bind ?_)
    rintro ⟨u, q⟩
    dsimp only
    split
    · exact .ahead rfl (.take_bind fun _ => .next_bind fun v => .bind (name_stays _ _) fun _ => .pure _)
    · exact .ahead rfl (.take_bind fun _ => .next_bind fun v => .bind (name_stays _ _) fun _ => .pure _)
    · exact .look_bind fun _ => .refuse _ _
    · exact .next (.bind ((name_stays _ _).weaken fun _ h _ => h) fun _ => .pure _)

variable {g : Grammar} (hg : g.Careful)

include hg

theorem declaration_stays (readOnly : Bool) (s : Setting) : Parse.Stays Ahead (g.declaration readOnly s) := by
  unfold declaration
  refine .deeper_bind _ fun s => .take_bind fun t => .bind .variableName fun name => .bind ?_ fun _ => ?_
  · refine .bind (.acceptMark _) fun _ => .ite (fun _ => ?_) fun _ => .pure _
    exact .deeper_bind _ fun s => hg.expression _
  · exact .bind (.redeclare _ _) fun _ => .pure _

theorem whileLoop_stays (s : Setting) : Parse.Stays Ahead (g.whileLoop s) := by
  unfold whileLoop
  refine .deeper_bind _ fun s => .take_bind fun t => .bind ?_ fun cond => .bind (block_stays hg _) fun _ => .pure _
  exact .ite (fun _ => .map _ (condition_stays hg _)) fun _ => .pure _

theorem doLoop_stays (s : Setting) : Parse.Stays Ahead (g.doLoop s) := by
  unfold doLoop
  refine .deeper_bind _ fun s => .take_bind fun t => .bind (block_stays hg _) fun body => .bind ?_ fun negated => ?_
  · refine .next_bind fun u => ?_
    split
    · exact .behind rfl (.pure _)
    · exact .behind rfl (.pure _)
    · exact .refuse _ _
  · exact .bind (condition_stays hg _) fun _ => .pure _

theorem forLoop_stays (s : Setting) : Parse.Stays Ahead (g.forLoop s) := by
  unfold forLoop
  refine .deeper_bind _ fun s => .take_bind fun t => .bind loopVariables_stays fun names => .next_bind ?_
  rintro ⟨u, q⟩
  refine .ite (fun _ => .missing_bind _ _ _ _ _) fun hu => ?_
  refine .behind (Token.isFault_of_beq_word (by simpa [bne] using hu)) (.bind (.refuseBlock _) fun _ => ?_)
  refine .deeper_bind _ fun s => .bind (hg.expression _) fun e => .bind (.asIterable _) fun source => ?_
  refine .get_bind fun c hc => .weaken ?_ fun _ h => h ▸ hc
  split
  · refine .bind (.declare _ _) fun _ => .bind (.declare _ _) fun _ => .bind (block_stays hg _) fun _ => ?_
    exact .bind (.forget _) fun _ => .pure _
  · refine .bind (.declare _ _) fun _ => .bind (block_stays hg _) fun _ => .bind (.forget _) fun _ => .pure _

theorem tryBlock_stays (s : Setting) : Parse.Stays Ahead (g.tryBlock s) := by
  unfold tryBlock
  refine .deeper_bind _ fun s => .take_bind fun t => .bind (block_stays hg _) fun body => .bind (.acceptWord _) fun _ => ?_
  refine .ite (fun _ => .peek_bind fun _ => .refuse_bind _ _ _) fun _ => .get_bind fun c hc => .weaken ?_ fun _ h => h ▸ hc
  refine .bind ?_ fun name => .bind (block_stays hg _) fun _ => .bind (.forget _) fun _ => .pure _
  refine .bind (.acceptMark _) fun _ => .ite (fun _ => .bind .variableName fun name => ?_) fun _ => .pure _
  exact .bind (closing_stays _) fun _ => .bind (.declare _ _) fun _ => .pure _

theorem function_stays (p : Position) (s : Setting) : Parse.Stays Faulty (g.function p s) := by
  unfold function
  refine .get_bind fun outer houter => .bind (.set_stays houter) fun _ => .bind functionName_stays fun name => ?_
  refine .bind (.bind (.acceptMark _) fun _ => .ite (fun _ => .pure _) fun _ => ?_) fun parameters => ?_
  · refine .bind (.acceptMark _) fun _ => .ite (fun _ => parameterNames_stays _ _ _ _) fun _ => ?_
    exact .peek_bind fun _ => .refuse _ _
  refine .bind (.modify_stays fun _ => rfl) fun _ => .peek_bind fun t => ?_
  split
  · refine .next (.bind (block_stays hg _) fun body => .get_bind fun c hc => .weaken ?_ fun _ h => h ▸ hc)
    refine .ite (fun _ => .refuse_bind _ _ _) fun _ => .bind (.modify_stays fun _ => rfl) fun _ => .pure _
  · exact .refuse _ _

theorem leavingValue_stays (s : Setting) : Parse.Stays Faulty (g.leavingValue s) := by
  unfold leavingValue
  refine .peek_bind fun t => .next (.ite (fun _ => .deeper_bind _ fun s => ?_) fun _ => .pure _)
  exact .bind (hg.expression _) fun _ => .pure _

theorem statementWith_stays (s : Setting) : Parse.Stays Faulty (g.statementWith s) := by
  unfold statementWith
  refine .peek_bind ?_
  rintro ⟨t, p⟩
  dsimp only
  split
  case h_1 => exact .next (.pure _)
  case h_2 => exact .ahead rfl (.take_bind fun _ => .pure _)
  case h_3 => exact .next (.bind (block_stays hg _) fun _ => .pure _)
  case h_4 => exact .ite (fun _ => .refuse_bind _ _ _) fun _ => .ahead rfl (.take_bind fun _ => function_stays hg _ _)
  case h_5 =>
    refine .ahead rfl (.take_bind fun _ => .next_bind fun u => .ite (fun _ => .refuse_bind _ _ _) fun hu => ?_)
    exact .behind (Token.isFault_of_beq_word (by simpa [bne] using hu)) (function_stays hg _ _)
  case h_6 => exact .ahead rfl (conditional_stays hg _)
  case h_7 => exact .ahead rfl (switching_stays hg _)
  case h_8 | h_9 => exact .ahead rfl (whileLoop_stays hg _)
  case h_10 => exact .ahead rfl (doLoop_stays hg _)
  case h_11 => exact .ahead rfl (forLoop_stays hg _)
  case h_12 => exact .ahead rfl (tryBlock_stays hg _)
  case h_13 | h_14 => exact .ahead rfl (declaration_stays hg _ _)
  case h_15 => exact .ite (fun _ => .refuse_bind _ _ _) fun _ => .ahead rfl (.take_bind fun _ => .pure _)
  case h_16 =>
    refine .ite (fun _ => .refuse_bind _ _ _) fun _ => .ahead rfl (.take_bind fun _ => ?_)
    exact .bind (leavingValue_stays hg _) fun _ => .pure _
  case h_17 | h_18 => exact .ahead rfl (.take_bind fun _ => .bind (leavingValue_stays hg _) fun _ => .pure _)
  case h_19 => exact .next (expressionStatement_stays hg _)

end Grammar

/-- However deep code is nested, no fault is passed over. -/
theorem grammar_careful : ∀ depth, (grammar depth).Careful
  | 0 =>
    { expression := fun _ => .peek_bind fun _ => .refuse _ _
      unary := fun _ => .peek_bind fun _ => .refuse _ _
      primary := fun _ => .peek_bind fun _ => .refuse _ _
      binary := fun _ _ _ => .peek_bind fun _ => .refuse _ _
      statement := fun _ => .peek_bind fun _ => .refuse _ _ }
  | depth + 1 =>
    have ih := grammar_careful depth
    { expression := Grammar.expressionWith_stays ih
      unary := Grammar.unaryWith_stays ih
      primary := Grammar.primaryWith_stays ih
      binary := Grammar.binaryWith_stays ih
      statement := Grammar.statementWith_stays ih }

/-- A fault among tokens stands in front of their end. -/
def Tokens.End (ts : Tokens) : Prop := ∀ f p, (.fault f, p) ∈ ts → Faulty ts

theorem Tokens.End.cons {t : Token} {p : Position} {ts : Tokens} (ht : ¬(t == .ended) = true) (h : ts.End) :
    Tokens.End ((t, p) :: ts) := fun f q hmem => by
  rcases List.mem_cons.1 hmem with heq | hmem
  · cases heq
    exact .here rfl
  · exact .there (fun heq => ht (by rw [heq]; rfl)) (h f q hmem)

/-- The tokens of a script end in the one that says so. -/
theorem end_tokensFrom (l : Nat) :
    ∀ fuel signed open_ inText s, Tokens.End (tokensFrom l fuel signed open_ inText s)
  | 0, _, _, _, _ => fun f p h => by
    rw [tokensFrom, List.mem_singleton] at h
    cases h
  | fuel + 1, signed, open_, inText, s => by
    have ih := end_tokensFrom l fuel
    rw [tokensFrom]
    generalize (if inText then readTextPart l s else readToken l signed (s.rest.length + 1) s) = r
    obtain ⟨t, p, s', embedded⟩ := r
    dsimp only
    by_cases ht : (t == .ended) = true
    · rw [if_pos ht]
      intro f q h
      rw [List.mem_singleton] at h
      cases h
      cases ht
    rw [if_neg ht]
    split
    · exact .cons ht (ih _ _ _ _)
    split
    all_goals exact .cons ht (ih _ _ _ _)

namespace Bounds

variable {b : Bounds} {text : String}

/-- The statements in front of a fault do not end. -/
theorem statements_stays (b : Bounds) {g : Grammar} (hg : g.Careful) :
    Parse.Stays Faulty (b.statements g) fun _ => False := by
  unfold statements
  refine .iterate_on (fun stmts => .peek_bind fun t => ?_) []
  split
  · exact .ended
  refine .next (.bind (hg.statement _) fun stmt => .ite (fun _ => .pure_of rfl) fun _ => .peek_bind fun u => ?_)
  split
  · exact .ended
  · exact .ite (fun _ => .ahead rfl (.take_bind fun _ => .pure_of rfl)) fun _ => .next (.pure_of rfl)
  · exact .ite (fun _ => .next (.pure_of rfl)) fun _ => .missing _ _ _ _

theorem expression_stays (b : Bounds) {g : Grammar} (hg : g.Careful) :
    Parse.Stays Faulty (b.expression g) fun _ => False := by
  unfold expression
  refine .bind (hg.expression _) fun e => .peek_bind fun t => ?_
  split
  · exact .ended
  · exact .refuse _ _

/-- **A script with a fault among its tokens is refused.** -/
theorem parseScript_faulty {f : LexFault} {p : Position} (h : (.fault f, p) ∈ tokenize b.maxString text) (first : Nat) :
    ∃ e, b.parseScript first text = .error e := by
  unfold parseScript
  dsimp only
  have hc : Faulty (b.cursor text).tokens := end_tokensFrom _ _ _ _ _ _ _ _ h
  cases hr : (b.statements (grammar (fuel (b.cursor text)))).run (b.cursor text) with
  | error e => exact ⟨e, rfl⟩
  | ok r => exact (statements_stays b (grammar_careful _) _ _ _ hc hr).2.elim

theorem parseExpression_faulty {f : LexFault} {p : Position} (h : (.fault f, p) ∈ tokenize b.maxString text)
    (first : Nat) : ∃ e, b.parseExpression first text = .error e := by
  unfold parseExpression
  dsimp only
  have hc : Faulty (b.cursor text).tokens := end_tokensFrom _ _ _ _ _ _ _ _ h
  cases hr : (b.expression (grammar (fuel (b.cursor text)))).run (b.cursor text) with
  | error e => exact ⟨e, rfl⟩
  | ok r => exact (expression_stays b (grammar_careful _) _ _ _ hc hr).2.elim

end Bounds

end Lang
end ArmPilot
