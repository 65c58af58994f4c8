import CalExport.Proofs.Simulation.Expression
import CalExport.Statement.Rule

namespace CalExport.Rule

variable {R : Simulation} {P : Parser → Prop} {k : Nat}

theorem may_of_not_endsList {κ : Kind} (h : ¬ endsList κ = true) : R.May κ := by
  refine ⟨?_, ?_⟩
  · rintro rfl
    exact h rfl
  · rintro rfl
    exact absurd rfl h

theorem agree_recoverStatement (fault : Fault) (start : Nat) (reason : String) :
    Agree R (Below k) Never (recoverStatement fault start reason)
      (recoverStatement fault (start + R.shift) reason) := by
  apply Agree.bind (Agree.report fault)
  intro _
  apply Agree.bind agree_skipStatement
  intro _
  apply Agree.peekKind
  intro κ
  apply Agree.passedSince
  intro passed
  split
  · rename_i hstuck
    have hκ : R.May κ := may_of_not_endsList (by simpa using hstuck.2)
    apply Agree.forget
    apply Agree.advance_kind hκ
    intro _
    exact Agree.recordSkipped start reason
  · exact Agree.pure id

/-- Behind a statement that began in front of a token of the list. -/
theorem recoverStatement_passes (fault : Fault) (reason : String) {s t : Parser} (h : Forward s t)
    (hlist : ¬ endsList s.peek.kind = true) : (recoverStatement fault s.position reason t).2.left < s.left := by
  have hreport : Forward s (report fault t).2 := h.trans (forward_record _ t)
  have hskip : Forward s (skipStatement (report fault t).2).2 := hreport.trans (steady_skipStatement _)
  simp only [recoverStatement, bind_apply, peekKind, passedSince, look_apply]
  generalize (skipStatement (report fault t).2).2 = u at hskip ⊢
  show ((if u.position - s.position = 0 ∧ (!endsList u.peek.kind) = true then
    Rule.advance >>= fun _ => recordSkipped s.position reason else pure () : Parse Unit) u).2.left < s.left
  split
  · rename_i hstuck
    have hmay : Simulation.same.May u.peek.kind := may_of_not_endsList (by simpa using hstuck.2)
    have hlt := left_advance_lt hmay.1
    have hle := (forward_recordSkipped s.position reason (advance u).2).left_le
    exact Nat.lt_of_le_of_lt hle (Nat.lt_of_lt_of_le hlt hskip.left_le)
  · rename_i hfree
    have hp : u.position ≠ s.position := by
      intro hp
      apply hfree
      rw [hskip.peek_eq hp]
      exact ⟨by omega, by simpa using hlist⟩
    exact hskip.left_lt_iff.2 (Nat.lt_of_le_of_ne hskip.position (Ne.symm hp))

theorem endsBranches_of_endsList {κ : Kind} (h : endsList κ = true) : endsBranches κ = true := by
  unfold endsBranches
  split
  · rfl
  · exact h

theorem agree_separator (ends : Kind → Bool) : Agree R (Below k) Never (separator ends) (separator ends) := by
  refine Agree.accept_bind ⟨nofun, nofun⟩ fun found => ?_
  split
  · apply Agree.peek
    intro next
    split
    · exact Agree.report _
    · exact Agree.pure id
  · exact Agree.pure id

theorem agree_assignmentOrCall : RuleAgree R (Below k) Always assignmentOrCall assignmentOrCall := by
  apply RuleAgree.here
  intro start
  apply RuleAgree.andThen agree_operand
  intro target
  apply RuleAgree.peekKind
  intro κ
  cases hop : assignOp? κ with
  | none => exact RuleAgree.pure id
  | some op =>
      apply RuleAgree.advance_kind (may_of_operator _ rfl rfl hop)
      intro _
      apply RuleAgree.bind agree_expression.never
      intro right
      apply RuleAgree.spanFrom
      intro span
      exact RuleAgree.pure id

theorem agree_exitValue : RuleAgree R (Below k) Never exitValue exitValue := by
  refine RuleAgree.accept_ite ⟨nofun, nofun⟩ ?_ ?_
  · refine RuleAgree.accept_ite ⟨nofun, nofun⟩ ?_ ?_
    · exact RuleAgree.pure id
    · apply RuleAgree.bind agree_expression.never
      intro value
      refine RuleAgree.expect_then ⟨nofun, nofun⟩ fun _ => ?_
      exact RuleAgree.pure id
  · exact RuleAgree.pure id

theorem agree_exitStatement : RuleAgree R (Below k) Always exitStatement exitStatement := by
  apply RuleAgree.here
  intro start
  refine RuleAgree.expect_then ⟨nofun, nofun⟩ fun _ => ?_
  apply RuleAgree.bind agree_exitValue
  intro value
  apply RuleAgree.spanFrom
  intro span
  exact RuleAgree.pure id

theorem agree_counter : RuleAgree R (Below k) Never counter counter := by
  apply RuleAgree.bind agree_operand.never
  intro target
  split
  case h_3 =>
    apply RuleAgree.step (Agree.report _)
    intro _
    exact RuleAgree.pure id
  all_goals exact RuleAgree.pure id

theorem agree_direction : RuleAgree R (Below k) Never direction direction := by
  refine RuleAgree.accept_ite ⟨nofun, nofun⟩ ?_ ?_
  · exact RuleAgree.pure id
  · refine RuleAgree.accept_ite ⟨nofun, nofun⟩ ?_ ?_
    · exact RuleAgree.pure id
    · apply RuleAgree.peek
      intro t
      exact RuleAgree.throw _

section

variable {statement statement' : Rule Statement} (hsub : RuleAgree R (Below k) Always statement statement')

include hsub

theorem agree_listRound (found : Array Statement) :
    Agree R (Below k) Yields (listRound statement found) (listRound statement' found) := by
  apply Agree.peek
  intro t
  split
  · exact Agree.pure id
  · rename_i hlist
    split
    · rename_i hkind
      apply Agree.advance_token (R.may_of_eq hkind ⟨nofun, nofun⟩)
      intro _
      exact Agree.pure id
    · apply Agree.start
      intro start
      apply Agree.recover (k := k) (fun s hs => hs.1.1) (hsub.of_below fun s hs => hs.1.1)
      · intro a
        apply Agree.bind (agree_separator endsList)
        intro _
        exact Agree.pure id
      · intro fault
        apply Agree.forget
        apply Agree.bind (agree_recoverStatement fault start _)
        intro _
        exact Agree.pure id
      · rintro fault s u ⟨⟨-, rfl⟩, rfl⟩ h _
        simp only [bind_apply, pure_apply]
        exact recoverStatement_passes fault _ h hlist

theorem agree_listWith : Agree R (Below k) Never (listWith statement) (listWith statement') := by
  apply Agree.bind (Agree.loop (agree_listRound hsub) #[])
  intro found
  exact Agree.pure id

theorem agree_bodyWith : RuleAgree R (Below (k + 1)) Always (bodyWith statement) (bodyWith statement') := by
  refine RuleAgree.expect_then ⟨nofun, nofun⟩ fun _ => ?_
  apply RuleAgree.step (agree_listWith hsub)
  intro statements
  refine RuleAgree.expect_then ⟨nofun, nofun⟩ fun _ => ?_
  exact RuleAgree.pure id

theorem agree_blockWith : RuleAgree R (Below (k + 1)) Always (blockWith statement) (blockWith statement') := by
  apply RuleAgree.here
  intro start
  apply RuleAgree.andThen (agree_bodyWith hsub)
  intro statements
  apply RuleAgree.spanFrom
  intro span
  exact RuleAgree.pure id

theorem agree_branchWith : RuleAgree R (Below k) Never (branchWith statement) (branchWith statement') := by
  apply RuleAgree.peek
  intro next
  split
  · exact RuleAgree.pure id
  · exact hsub.never.forget

theorem agree_elseWith : RuleAgree R (Below k) Never (elseWith statement) (elseWith statement') := by
  refine RuleAgree.accept_ite ⟨nofun, nofun⟩ ?_ ?_
  · exact ((agree_branchWith hsub).le (Nat.sub_le k 1)).map fun _ h => h.elim
  · exact RuleAgree.pure id

theorem agree_ifWith : RuleAgree R (Below (k + 1)) Always (ifWith statement) (ifWith statement') := by
  apply RuleAgree.here
  intro start
  refine RuleAgree.expect_then ⟨nofun, nofun⟩ fun _ => ?_
  apply RuleAgree.bind agree_expression.never
  intro condition
  refine RuleAgree.expect_then ⟨nofun, nofun⟩ fun _ => ?_
  apply RuleAgree.bind ((agree_branchWith hsub).le (Nat.sub_le _ 1))
  intro thenBranch
  apply RuleAgree.bind ((agree_elseWith hsub).le (Nat.sub_le _ 1))
  intro elseBranch
  apply RuleAgree.spanFrom
  intro span
  exact RuleAgree.pure id

theorem agree_whileWith : RuleAgree R (Below (k + 1)) Always (whileWith statement) (whileWith statement') := by
  apply RuleAgree.here
  intro start
  refine RuleAgree.expect_then ⟨nofun, nofun⟩ fun _ => ?_
  apply RuleAgree.bind agree_expression.never
  intro condition
  refine RuleAgree.expect_then ⟨nofun, nofun⟩ fun _ => ?_
  apply RuleAgree.bind ((agree_branchWith hsub).le (Nat.sub_le _ 1))
  intro body
  apply RuleAgree.spanFrom
  intro span
  exact RuleAgree.pure id

theorem agree_repeatWith : RuleAgree R (Below (k + 1)) Always (repeatWith statement) (repeatWith statement') := by
  apply RuleAgree.here
  intro start
  refine RuleAgree.expect_then ⟨nofun, nofun⟩ fun _ => ?_
  apply RuleAgree.step (agree_listWith hsub)
  intro body
  refine RuleAgree.expect_then ⟨nofun, nofun⟩ fun _ => ?_
  apply RuleAgree.bind agree_expression.never
  intro condition
  apply RuleAgree.spanFrom
  intro span
  exact RuleAgree.pure id

theorem agree_forWith : RuleAgree R (Below (k + 1)) Always (forWith statement) (forWith statement') := by
  apply RuleAgree.here
  intro start
  refine RuleAgree.expect_then ⟨nofun, nofun⟩ fun _ => ?_
  apply RuleAgree.bind agree_counter
  intro counter
  refine RuleAgree.expect_then ⟨nofun, nofun⟩ fun _ => ?_
  apply RuleAgree.bind agree_expression.never
  intro first
  apply RuleAgree.bind agree_direction
  intro direction
  apply RuleAgree.bind agree_expression.never
  intro last
  refine RuleAgree.expect_then ⟨nofun, nofun⟩ fun _ => ?_
  apply RuleAgree.bind ((agree_branchWith hsub).le (by omega))
  intro body
  apply RuleAgree.spanFrom
  intro span
  exact RuleAgree.pure id

theorem agree_withWith : RuleAgree R (Below (k + 1)) Always (withWith statement) (withWith statement') := by
  apply RuleAgree.here
  intro start
  refine RuleAgree.expect_then ⟨nofun, nofun⟩ fun _ => ?_
  apply RuleAgree.bind agree_expression.never
  intro record
  refine RuleAgree.expect_then ⟨nofun, nofun⟩ fun _ => ?_
  apply RuleAgree.bind ((agree_branchWith hsub).le (Nat.sub_le _ 1))
  intro body
  apply RuleAgree.spanFrom
  intro span
  exact RuleAgree.pure id

theorem agree_caseBranchWith :
    RuleAgree R (Below (k + 1)) Always (caseBranchWith statement) (caseBranchWith statement') := by
  apply RuleAgree.here
  intro start
  apply RuleAgree.bind (agree_commaSeparated agree_element.never)
  intro values
  refine RuleAgree.expect_then ⟨nofun, nofun⟩ fun _ => ?_
  apply RuleAgree.bind (agree_branchWith hsub)
  intro branch
  apply RuleAgree.spanFrom
  intro span
  exact RuleAgree.pure id

theorem agree_caseBranchRound (found : Array CaseBranch) :
    Agree R (Below (k + 1)) Yields (caseBranchRound statement found) (caseBranchRound statement' found) := by
  apply Agree.peekKind
  intro κ
  split
  · exact Agree.pure id
  · rename_i hbranch
    split
    · rename_i hkind
      apply Agree.advance_kind (hkind.symm ▸ ⟨nofun, nofun⟩)
      intro _
      exact Agree.pure id
    · apply Agree.start
      intro start
      apply Agree.recover (k := k + 1) (fun s hs => hs.1.1) ((agree_caseBranchWith hsub).of_below fun s hs => hs.1.1)
      · intro branch
        apply Agree.bind (agree_separator endsBranches)
        intro _
        exact Agree.pure id
      · intro fault
        apply Agree.forget
        apply Agree.bind (agree_recoverStatement fault start _)
        intro _
        exact Agree.pure id
      · rintro fault s u ⟨⟨-, rfl⟩, rfl⟩ h _
        simp only [bind_apply, pure_apply]
        exact recoverStatement_passes fault _ h (mt endsBranches_of_endsList hbranch)

theorem agree_caseBranchesWith :
    Agree R (Below (k + 1)) Never (caseBranchesWith statement) (caseBranchesWith statement') := by
  apply Agree.bind (Agree.loop (agree_caseBranchRound hsub) #[])
  intro found
  exact Agree.pure id

theorem agree_otherwiseWith :
    Agree R (Below (k + 1)) Never (otherwiseWith statement) (otherwiseWith statement') := by
  refine Agree.accept_ite ⟨nofun, nofun⟩ ?_ ?_
  · exact (agree_listWith hsub).map
  · exact Agree.pure id

theorem agree_caseWith : RuleAgree R (Below (k + 1)) Always (caseWith statement) (caseWith statement') := by
  apply RuleAgree.here
  intro start
  refine RuleAgree.expect_then ⟨nofun, nofun⟩ fun _ => ?_
  apply RuleAgree.bind agree_expression.never
  intro subject
  refine RuleAgree.expect_then ⟨nofun, nofun⟩ fun _ => ?_
  apply RuleAgree.step ((agree_caseBranchesWith hsub).le (by omega))
  intro branches
  apply RuleAgree.step ((agree_otherwiseWith hsub).le (by omega))
  intro otherwise
  refine RuleAgree.expect_then ⟨nofun, nofun⟩ fun _ => ?_
  apply RuleAgree.spanFrom
  intro span
  exact RuleAgree.pure id

theorem agree_statementWith :
    RuleAgree R (Below (k + 1)) Always (statementWith statement) (statementWith statement') := by
  apply RuleAgree.peek
  intro t
  split
  · exact (agree_blockWith hsub).forget
  · exact (agree_ifWith hsub).forget
  · exact (agree_whileWith hsub).forget
  · exact (agree_repeatWith hsub).forget
  · exact (agree_forWith hsub).forget
  · exact (agree_caseWith hsub).forget
  · exact agree_exitStatement.forget
  · exact (agree_withWith hsub).forget
  · rename_i hkind
    apply RuleAgree.advance_token (R.may_of_eq hkind ⟨nofun, nofun⟩)
    intro _
    exact RuleAgree.pure id
  · rename_i hkind
    apply RuleAgree.advance_token (R.may_of_eq hkind ⟨nofun, nofun⟩)
    intro _
    apply RuleAgree.step (Agree.report _)
    intro _
    exact RuleAgree.pure id
  · split
    · exact RuleAgree.throw _
    · exact agree_assignmentOrCall.forget
  · exact agree_assignmentOrCall.forget

end

theorem agree_statementAt (n k : Nat) : RuleAgree R (Below k) Always (statementAt n) (statementAt n) := by
  induction n generalizing k with
  | zero => exact RuleAgree.tooDeep
  | succ n ih => exact RuleAgree.nested ((agree_statementWith (ih k)).le (Nat.le_succ k))

theorem agree_body : RuleAgree R (Below k) Always body body :=
  RuleAgree.of_levels fun n => (agree_bodyWith (agree_statementAt n k)).le (Nat.le_succ k)

end CalExport.Rule
