import CalExport.Proofs.Kinship.Expression
import CalExport.Proofs.Statement.Writing

namespace CalExport.Rule

open Statement (isCounter)

variable {K : Kinship}

theorem keeps_recoverStatement {e e' : Fault} (h : K.Blames e e') (start : Nat) (reason : String) :
    Keeps K Eq (recoverStatement e start reason) (recoverStatement e' start reason) := by
  refine (keeps_report h).bind_eq fun _ => ?_
  refine keeps_skipStatement.bind_eq fun _ => ?_
  refine keeps_peekKind.bind_eq fun κ => ?_
  refine (keeps_passedSince start).bind_eq fun passed => ?_
  split
  · refine keeps_advance.bind fun _ _ _ => ?_
    exact keeps_recordSkipped start reason
  · exact Keeps.pure rfl

theorem keeps_separator (ends : Kind → Bool) : Keeps K Eq (separator ends) (separator ends) := by
  refine (keeps_accept .semicolon).bind_eq fun found => ?_
  split
  · refine keeps_peek.bind fun t t' ht => ?_
    rw [K.kind_eq ht]
    split
    · exact keeps_report (.missing ";" ht)
    · exact Keeps.pure rfl
  · exact Keeps.pure rfl

theorem keeps_assignmentOrCall :
    RuleKeeps K (Under (Statement.mapText K.text)) assignmentOrCall assignmentOrCall := by
  refine keeps_here.step_eq fun start => ?_
  refine keeps_operand.bind fun target target' htarget => ?_
  refine keeps_peekKind.step_eq fun κ => ?_
  cases assignOp? κ with
  | none =>
      apply RuleKeeps.pure
      simp only [Under, Statement.mapText, htarget, Expr.span_eq htarget]
  | some op =>
      refine keeps_advance.step fun _ _ _ => ?_
      refine keeps_expression.bind fun right right' hright => ?_
      refine (keeps_spanFrom start).step_eq fun span => ?_
      apply RuleKeeps.pure
      cases hbinary : op.binary? with
      | none => simp only [Under, Statement.mapText, htarget, hright]
      | some binary =>
          simp only [Under, Statement.mapText, Expr.join, Expr.mapText, htarget, hright, Expr.span_eq htarget,
            Expr.span_eq hright]

theorem keeps_exitValue : RuleKeeps K (Under (Option.map (Expr.mapText K.text))) exitValue exitValue := by
  refine (keeps_accept .leftParen).step_eq fun found => ?_
  split
  · refine (keeps_accept .rightParen).step_eq fun found => ?_
    split
    · exact RuleKeeps.pure rfl
    · refine keeps_expression.bind fun value value' hvalue => ?_
      refine keeps_expect_then fun _ _ _ _ => ?_
      exact RuleKeeps.pure (congrArg some hvalue)
  · exact RuleKeeps.pure rfl

theorem keeps_exitStatement : RuleKeeps K (Under (Statement.mapText K.text)) exitStatement exitStatement := by
  refine keeps_here.step_eq fun start => ?_
  refine keeps_expect_then fun _ _ _ _ => ?_
  refine keeps_exitValue.bind fun value value' hvalue => ?_
  refine (keeps_spanFrom start).step_eq fun span => ?_
  apply RuleKeeps.pure
  simp only [Under, Statement.mapText, hvalue]

theorem isCounter_mapText (f : String → String) (e : Expr) : isCounter (e.mapText f) = isCounter e := by
  cases e with
  | member object name qualified span => cases qualified <;> rfl
  | _ => rfl

theorem counter_eq :
    counter = operand >>= fun target =>
      if isCounter target then pure target
      else liftM (report (.invalidForTarget target.span)) >>= fun _ => pure (.placeholder target.span) := by
  unfold counter
  congr 1
  funext target
  cases target with
  | member object name qualified span => cases qualified <;> rfl
  | _ => rfl

/-- Whether an expression may count is told from its shape. -/
theorem keeps_counter : RuleKeeps K (Under (Expr.mapText K.text)) counter counter := by
  rw [counter_eq]
  refine keeps_operand.bind fun target target' htarget => ?_
  have hcounter : isCounter target' = isCounter target := by
    rw [← isCounter_mapText K.text target, htarget, isCounter_mapText]
  rw [hcounter, ← Expr.span_eq htarget]
  split
  · exact RuleKeeps.pure htarget
  · refine (keeps_report (.refl _)).step_eq fun _ => ?_
    exact RuleKeeps.pure rfl

theorem keeps_direction : RuleKeeps K Eq direction direction := by
  refine (keeps_accept (.keyword .to)).step_eq fun found => ?_
  split
  · exact RuleKeeps.pure rfl
  · refine (keeps_accept (.keyword .downTo)).step_eq fun found => ?_
    split
    · exact RuleKeeps.pure rfl
    · refine keeps_peek.step fun t t' ht => ?_
      exact RuleKeeps.throw (.expected _ ht)

section

variable {statement statement' : Rule Statement}
  (hsub : RuleKeeps K (Under (Statement.mapText K.text)) statement statement')

include hsub

theorem keeps_listRound {found found' : Array Statement}
    (hfound : Under (Array.map (Statement.mapText K.text)) found found') :
    Keeps K (Kinship.Round (Under (Array.map (Statement.mapText K.text)))) (listRound statement found)
      (listRound statement' found') := by
  refine keeps_peek.bind fun t t' ht => ?_
  rw [K.kind_eq ht]
  split
  · exact Keeps.pure hfound
  · split
    · refine keeps_advance.bind fun _ _ _ => ?_
      rw [K.span_eq ht]
      exact Keeps.pure (under_push hfound rfl)
    · refine keeps_here.bind_eq fun start => ?_
      apply hsub.recover
      · intro s s' hs
        refine (keeps_separator endsList).bind_eq fun _ => ?_
        exact Keeps.pure (under_push hfound hs)
      · intro e e' he
        refine (keeps_recoverStatement he start _).bind_eq fun _ => ?_
        exact Keeps.pure hfound

theorem keeps_listWith :
    Keeps K (Under (List.map (Statement.mapText K.text))) (listWith statement) (listWith statement') := by
  refine Keeps.bind (keeps_loop (fun _ _ h => keeps_listRound hsub h) rfl) fun found found' hfound => ?_
  exact Keeps.pure (under_toList hfound)

theorem keeps_bodyWith :
    RuleKeeps K (Under (List.map (Statement.mapText K.text))) (bodyWith statement) (bodyWith statement') := by
  refine keeps_expect_then fun _ _ _ _ => ?_
  refine (keeps_listWith hsub).step fun statements statements' hstatements => ?_
  refine keeps_expect_then fun _ _ _ _ => ?_
  exact RuleKeeps.pure hstatements

theorem keeps_blockWith : RuleKeeps K (Under (Statement.mapText K.text)) (blockWith statement) (blockWith statement') := by
  refine keeps_here.step_eq fun start => ?_
  refine (keeps_bodyWith hsub).bind fun statements statements' hstatements => ?_
  refine (keeps_spanFrom start).step_eq fun span => ?_
  apply RuleKeeps.pure
  simp only [Under, Statement.mapText, Statement.mapTexts_eq, hstatements]

theorem keeps_branchWith :
    RuleKeeps K (Under (Statement.mapText K.text)) (branchWith statement) (branchWith statement') := by
  refine keeps_peek.step fun t t' ht => ?_
  rw [K.kind_eq ht, K.span_eq ht]
  split
  · exact RuleKeeps.pure rfl
  · exact hsub

theorem keeps_elseWith :
    RuleKeeps K (Under (Option.map (Statement.mapText K.text))) (elseWith statement) (elseWith statement') := by
  refine (keeps_accept (.keyword .else_)).step_eq fun found => ?_
  split
  · exact (keeps_branchWith hsub).map fun _ _ h => congrArg some h
  · exact RuleKeeps.pure rfl

theorem keeps_ifWith : RuleKeeps K (Under (Statement.mapText K.text)) (ifWith statement) (ifWith statement') := by
  refine keeps_here.step_eq fun start => ?_
  refine keeps_expect_then fun _ _ _ _ => ?_
  refine keeps_expression.bind fun condition condition' hcondition => ?_
  refine keeps_expect_then fun _ _ _ _ => ?_
  refine (keeps_branchWith hsub).bind fun thenBranch thenBranch' hthen => ?_
  refine (keeps_elseWith hsub).bind fun elseBranch elseBranch' helse => ?_
  refine (keeps_spanFrom start).step_eq fun span => ?_
  apply RuleKeeps.pure
  simp only [Under, Statement.mapText, Statement.mapElse_eq, hcondition, hthen, helse]

theorem keeps_whileWith : RuleKeeps K (Under (Statement.mapText K.text)) (whileWith statement) (whileWith statement') := by
  refine keeps_here.step_eq fun start => ?_
  refine keeps_expect_then fun _ _ _ _ => ?_
  refine keeps_expression.bind fun condition condition' hcondition => ?_
  refine keeps_expect_then fun _ _ _ _ => ?_
  refine (keeps_branchWith hsub).bind fun body body' hbody => ?_
  refine (keeps_spanFrom start).step_eq fun span => ?_
  apply RuleKeeps.pure
  simp only [Under, Statement.mapText, hcondition, hbody]

theorem keeps_repeatWith :
    RuleKeeps K (Under (Statement.mapText K.text)) (repeatWith statement) (repeatWith statement') := by
  refine keeps_here.step_eq fun start => ?_
  refine keeps_expect_then fun _ _ _ _ => ?_
  refine (keeps_listWith hsub).step fun body body' hbody => ?_
  refine keeps_expect_then fun _ _ _ _ => ?_
  refine keeps_expression.bind fun condition condition' hcondition => ?_
  refine (keeps_spanFrom start).step_eq fun span => ?_
  apply RuleKeeps.pure
  simp only [Under, Statement.mapText, Statement.mapTexts_eq, hcondition, hbody]

theorem keeps_forWith : RuleKeeps K (Under (Statement.mapText K.text)) (forWith statement) (forWith statement') := by
  refine keeps_here.step_eq fun start => ?_
  refine keeps_expect_then fun _ _ _ _ => ?_
  refine keeps_counter.bind fun counter counter' hcounter => ?_
  refine keeps_expect_then fun _ _ _ _ => ?_
  refine keeps_expression.bind fun first first' hfirst => ?_
  refine keeps_direction.bind_eq fun direction => ?_
  refine keeps_expression.bind fun last last' hlast => ?_
  refine keeps_expect_then fun _ _ _ _ => ?_
  refine (keeps_branchWith hsub).bind fun body body' hbody => ?_
  refine (keeps_spanFrom start).step_eq fun span => ?_
  apply RuleKeeps.pure
  simp only [Under, Statement.mapText, hcounter, hfirst, hlast, hbody]

theorem keeps_withWith : RuleKeeps K (Under (Statement.mapText K.text)) (withWith statement) (withWith statement') := by
  refine keeps_here.step_eq fun start => ?_
  refine keeps_expect_then fun _ _ _ _ => ?_
  refine keeps_expression.bind fun record record' hrecord => ?_
  refine keeps_expect_then fun _ _ _ _ => ?_
  refine (keeps_branchWith hsub).bind fun body body' hbody => ?_
  refine (keeps_spanFrom start).step_eq fun span => ?_
  apply RuleKeeps.pure
  simp only [Under, Statement.mapText, hrecord, hbody]

theorem keeps_caseBranchWith :
    RuleKeeps K (Under (Statement.mapBranch K.text)) (caseBranchWith statement) (caseBranchWith statement') := by
  refine keeps_here.step_eq fun start => ?_
  refine (keeps_commaSeparated keeps_element).bind fun values values' hvalues => ?_
  refine keeps_expect_then fun _ _ _ _ => ?_
  refine (keeps_branchWith hsub).bind fun branch branch' hbranch => ?_
  refine (keeps_spanFrom start).step_eq fun span => ?_
  apply RuleKeeps.pure
  simp only [Under, Statement.mapBranch, hvalues, hbranch]

theorem keeps_caseBranchRound {found found' : Array CaseBranch}
    (hfound : Under (Array.map (Statement.mapBranch K.text)) found found') :
    Keeps K (Kinship.Round (Under (Array.map (Statement.mapBranch K.text)))) (caseBranchRound statement found)
      (caseBranchRound statement' found') := by
  refine keeps_peekKind.bind_eq fun κ => ?_
  split
  · exact Keeps.pure hfound
  · split
    · refine keeps_advance.bind fun _ _ _ => ?_
      exact Keeps.pure hfound
    · refine keeps_here.bind_eq fun start => ?_
      apply (keeps_caseBranchWith hsub).recover
      · intro branch branch' hbranch
        refine (keeps_separator endsBranches).bind_eq fun _ => ?_
        exact Keeps.pure (under_push hfound hbranch)
      · intro e e' he
        refine (keeps_recoverStatement he start _).bind_eq fun _ => ?_
        exact Keeps.pure hfound

theorem keeps_caseBranchesWith :
    Keeps K (Under (List.map (Statement.mapBranch K.text))) (caseBranchesWith statement) (caseBranchesWith statement') := by
  refine Keeps.bind (keeps_loop (fun _ _ h => keeps_caseBranchRound hsub h) rfl) fun found found' hfound => ?_
  exact Keeps.pure (under_toList hfound)

theorem keeps_otherwiseWith :
    Keeps K (Under (Option.map (List.map (Statement.mapText K.text)))) (otherwiseWith statement)
      (otherwiseWith statement') := by
  refine (keeps_accept (.keyword .else_)).bind_eq fun found => ?_
  split
  · exact (keeps_listWith hsub).map fun _ _ h => congrArg some h
  · exact Keeps.pure rfl

theorem keeps_caseWith : RuleKeeps K (Under (Statement.mapText K.text)) (caseWith statement) (caseWith statement') := by
  refine keeps_here.step_eq fun start => ?_
  refine keeps_expect_then fun _ _ _ _ => ?_
  refine keeps_expression.bind fun subject subject' hsubject => ?_
  refine keeps_expect_then fun _ _ _ _ => ?_
  refine (keeps_caseBranchesWith hsub).step fun branches branches' hbranches => ?_
  refine (keeps_otherwiseWith hsub).step fun otherwise otherwise' hotherwise => ?_
  refine keeps_expect_then fun _ _ _ _ => ?_
  refine (keeps_spanFrom start).step_eq fun span => ?_
  apply RuleKeeps.pure
  simp only [Under, Statement.mapText, Statement.mapBranches_eq, Statement.mapOtherwise_eq, hsubject, hbranches,
    hotherwise]

theorem keeps_statementWith :
    RuleKeeps K (Under (Statement.mapText K.text)) (statementWith statement) (statementWith statement') := by
  refine keeps_peek.step fun t t' ht => ?_
  rw [K.kind_eq ht, K.span_eq ht]
  split
  · exact keeps_blockWith hsub
  · exact keeps_ifWith hsub
  · exact keeps_whileWith hsub
  · exact keeps_repeatWith hsub
  · exact keeps_forWith hsub
  · exact keeps_caseWith hsub
  · exact keeps_exitStatement
  · exact keeps_withWith hsub
  · refine keeps_advance.step fun _ _ _ => ?_
    exact RuleKeeps.pure rfl
  · refine keeps_advance.step fun _ _ _ => ?_
    refine (keeps_report (.refl _)).step_eq fun _ => ?_
    exact RuleKeeps.pure rfl
  · split
    · exact RuleKeeps.throw (.expected _ ht)
    · exact keeps_assignmentOrCall
  · exact keeps_assignmentOrCall

end

theorem keeps_statementAt (n : Nat) :
    RuleKeeps K (Under (Statement.mapText K.text)) (statementAt n) (statementAt n) := by
  induction n with
  | zero => exact keeps_tooDeep
  | succ n ih => exact keeps_nested (keeps_statementWith ih)

theorem keeps_body : RuleKeeps K (Under (List.map (Statement.mapText K.text))) body body :=
  keeps_levels fun n => keeps_bodyWith (keeps_statementAt n)

end CalExport.Rule
