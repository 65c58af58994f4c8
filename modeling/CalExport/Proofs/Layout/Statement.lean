import CalExport.Proofs.Layout.Expression
import CalExport.Statement.Rule

namespace CalExport.Rule

open Text

variable {F : Fence} {m : Nat}

theorem lays_skipStatement : Lays F m skipStatement fun _ _ => True := by
  apply Lays.here
  apply Lays.bind (R := fun _ _ => True)
  · apply Lays.loop (I := fun _ _ => True) fun _ => trivial
    intro _ k _ _
    apply Lays.peekKind
    split
    · exact Lays.pure fun _ => trivial
    · rename_i hgo
      apply Lays.advance
      · apply F.lets_of_test (c := fun κ => !(κ == .eof || isStatementBoundary κ))
        · simpa using hgo
        · exact forall_fences rfl rfl rfl rfl rfl
      · exact fun _ => Lays.pure fun _ => trivial
  · exact fun _ k _ _ => (Lays.skipped m _).mono fun _ _ _ _ _ => trivial

theorem lets_of_not_endsList (h : ¬ endsList (F.tokenAt m).kind = true) : F.Lets m := by
  apply F.lets_of_test (c := fun κ => !endsList κ)
  · simpa using h
  · exact forall_fences rfl rfl rfl rfl rfl

theorem lays_recoverStatement {fault : Fault} (start : Nat) (reason : String)
    (h : F.InOrder → Bounded F.toCursor fault.span) :
    Lays F m (recoverStatement fault start reason) fun _ _ => True := by
  apply Lays.report h
  apply Lays.bind lays_skipStatement
  intro _ k _ _
  apply Lays.peekKind
  apply Lays.look
  intro passed
  split
  · rename_i hstuck
    apply Lays.advance (lets_of_not_endsList (by simpa using hstuck.2))
    exact fun _ => (Lays.skipped start reason).mono fun _ _ _ _ _ => trivial
  · exact Lays.pure fun _ => trivial

theorem lays_separator (ends : Kind → Bool) : Lays F m (separator ends) fun _ _ => True := by
  apply Lays.accept (F.passes rfl)
  · exact fun _ _ => Lays.pure fun _ => trivial
  · apply Lays.peek
    split
    · exact (Lays.reported fun _ => .token F.toCursor m).mono fun _ _ _ _ _ => trivial
    · exact Lays.pure fun _ => trivial

theorem builds_assignmentOrCall : Builds F Statement.outline assignmentOrCall := by
  intro m
  apply RuleLays.here
  apply RuleLays.bind (builds_operand m)
  intro target k hk htarget
  apply RuleLays.peekKind
  cases hop : assignOp? (F.tokenAt k).kind with
  | none =>
      refine RuleLays.pure fun hc => ?_
      have h := (htarget hc).around
      rw [Expr.span_outline] at h
      simpa [Statement.outline] using h
  | some op =>
      apply RuleLays.advance (lets_of_operator (forall_fences rfl rfl rfl rfl rfl) hop)
      intro _
      apply RuleLays.bind (builds_expression (k + 1))
      intro right j hj hright
      apply RuleLays.spanFrom
      intro hsize span hspan
      refine RuleLays.pure fun hc => ?_
      have hassign : ∀ value : Expr, Solid F.toCursor m j value.outline →
          Solid F.toCursor m j (Statement.assign target op value span).outline := by
        intro value hvalue
        simp only [Statement.outline]
        apply Solid.node (by omega) hsize (hspan hc)
        have htarget' := (htarget hc).row.mono (Nat.le_refl m) (show k ≤ j by omega)
        exact List.forall_mem_cons.2 ⟨htarget', List.forall_mem_singleton.2 hvalue.row⟩
      apply hassign
      have hbehind := (hright hc).mono (Nat.le_succ k) (Nat.le_refl j)
      -- The target stands in front of the value once more when the assignment is compound.
      cases op.binary? with
      | none => exact hbehind.mono hk (Nat.le_refl j)
      | some binary => exact Solid.join hc binary (htarget hc) hbehind

theorem lays_exitValue :
    RuleLays F m exitValue fun value k => Row F.toCursor m k (value.toList.map Expr.outline) := by
  apply RuleLays.accept (F.passes rfl)
  · intro _ _
    apply RuleLays.accept (F.passes rfl)
    · exact fun _ _ => RuleLays.pure fun _ => .nil
    · apply RuleLays.bind (builds_expression (m + 1))
      intro value k _ hvalue
      apply RuleLays.expect (F.passes rfl)
      intro _ _
      exact RuleLays.pure fun hc => (hvalue hc).row.mono (Nat.le_succ m) (Nat.le_succ k)
  · exact RuleLays.pure fun _ => .nil

theorem builds_exitStatement : Builds F Statement.outline exitStatement := by
  intro m
  apply RuleLays.here
  apply RuleLays.expect (F.passes rfl)
  intro _ _
  apply RuleLays.bind lays_exitValue
  intro value k hk hvalue
  apply RuleLays.spanFrom
  intro hsize span hspan
  refine RuleLays.pure fun hc => ?_
  simp only [Statement.outline]
  apply Solid.node (by omega) hsize (hspan hc)
  have hrow := (hvalue hc).mono (Nat.le_succ m) (Nat.le_refl k)
  simp [hrow]

theorem builds_counter : Builds F Expr.outline counter := by
  intro m
  apply RuleLays.bind (builds_operand m)
  intro target k hk htarget
  split
  case h_3 =>
    apply RuleLays.report
    · intro hc
      have hbounded := (htarget hc).bounded
      rwa [Expr.span_outline] at hbounded
    · refine RuleLays.pure fun hc => ?_
      have h := (htarget hc).bare
      rwa [Expr.span_outline] at h
  all_goals exact RuleLays.pure htarget

theorem lays_direction : RuleLays F m direction fun _ _ => True := by
  apply RuleLays.accept (F.passes rfl)
  · exact fun _ _ => RuleLays.pure fun _ => trivial
  · apply RuleLays.accept (F.passes rfl)
    · exact fun _ _ => RuleLays.pure fun _ => trivial
    · exact RuleLays.peek (RuleLays.expected _)

section

variable {statement : Rule Statement} (hsub : Builds F Statement.outline statement)

include hsub

theorem lays_listRound {k : Nat} {found : Array Statement} (hk : m ≤ k)
    (hfound : F.InOrder → Row F.toCursor m k (found.toList.map Statement.outline)) :
    Lays F k (listRound statement found) fun r j => Row F.toCursor m j ((payload r).toList.map Statement.outline) := by
  have hpush : F.InOrder → ∀ s j, k ≤ j → Solid F.toCursor k j s.outline →
      Row F.toCursor m j ((found.push s).toList.map Statement.outline) := by
    intro hc s j hj hs
    rw [Array.toList_push, List.map_append]
    exact (hfound hc).append hs.row hk hj
  apply Lays.peek
  split
  · exact Lays.pure hfound
  · rename_i hlist
    split
    · apply Lays.advance (lets_of_not_endsList hlist)
      intro hlt
      refine Lays.pure fun hc => hpush hc _ _ (Nat.le_succ k) ?_
      simpa using Solid.token (Nat.lt_of_lt_of_le hlt F.limit_le)
    · apply Lays.here
      apply Lays.attempt (hsub k)
      · intro s j hj hs
        apply Lays.bind (lays_separator endsList)
        intro _ i hi _
        refine Lays.pure fun hc => hpush hc s i (by omega) ((hs hc).mono (Nat.le_refl k) hi)
      · intro fault j hj hfault
        apply Lays.bind (lays_recoverStatement k _ hfault)
        intro _ i hi _
        exact Lays.pure fun hc => (hfound hc).mono (Nat.le_refl m) (by omega)

theorem lays_listWith :
    Lays F m (listWith statement) fun found k => Row F.toCursor m k (found.map Statement.outline) := by
  apply Lays.bind (R := fun found k => Row F.toCursor m k (found.toList.map Statement.outline))
  · exact Lays.loop (fun _ => .nil) fun found k hk hfound => lays_listRound hsub hk hfound
  · exact fun found k _ hfound => Lays.pure hfound

theorem lays_bodyWith : RuleLays F m (bodyWith statement) fun found k =>
    m < k ∧ Row F.toCursor m k (found.map Statement.outline) := by
  apply RuleLays.expect (F.passes rfl)
  intro _ _
  apply RuleLays.step (lays_listWith hsub)
  intro found k hk hfound
  apply RuleLays.expect (F.passes rfl)
  intro _ _
  exact RuleLays.pure fun hc => ⟨by omega, (hfound hc).mono (Nat.le_succ m) (Nat.le_succ k)⟩

theorem builds_blockWith : Builds F Statement.outline (blockWith statement) := by
  intro m
  apply RuleLays.here
  apply RuleLays.bind (lays_bodyWith hsub)
  intro found k hk hfound
  apply RuleLays.spanFrom
  intro hsize span hspan
  refine RuleLays.pure fun hc => ?_
  simp only [Statement.outline]
  apply Solid.node (hfound hc).1 hsize (hspan hc)
  simp [(hfound hc).2]

/-- A branch that is empty stands in front of the next token. -/
theorem lays_branchWith : RuleLays F m (branchWith statement) fun s k => Row F.toCursor m k [s.outline] := by
  apply RuleLays.peek
  split
  · refine RuleLays.pure fun _ => ?_
    rw [Statement.outline_empty]
    exact .point (Nat.le_refl m) (Nat.le_refl m) .nil
  · exact (hsub m).mono fun s k _ _ hs => hs.row

theorem lays_elseWith :
    RuleLays F m (elseWith statement) fun s k => Row F.toCursor m k (s.toList.map Statement.outline) := by
  apply RuleLays.accept (F.passes rfl)
  · intro _ _
    exact (lays_branchWith hsub).map fun s k _ _ hs => hs.mono (Nat.le_succ m) (Nat.le_refl k)
  · exact RuleLays.pure fun _ => .nil

theorem builds_ifWith : Builds F Statement.outline (ifWith statement) := by
  intro m
  apply RuleLays.here
  apply RuleLays.expect (F.passes rfl)
  intro _ _
  apply RuleLays.bind (builds_expression (m + 1))
  intro condition k hk hcondition
  apply RuleLays.expect (F.passes rfl)
  intro _ _
  apply RuleLays.bind (lays_branchWith hsub)
  intro thenBranch j hj hthen
  apply RuleLays.bind (lays_elseWith hsub)
  intro elseBranch i hi helse
  apply RuleLays.spanFrom
  intro hsize span hspan
  refine RuleLays.pure fun hc => ?_
  simp only [Statement.outline]
  apply Solid.node (by omega) hsize (hspan hc)
  have hcondition' := (hcondition hc).row.mono (Nat.le_succ m) (show k ≤ i by omega)
  have hthen' := (hthen hc).mono (show m ≤ k + 1 by omega) hi
  have helse' := (helse hc).mono (show m ≤ j by omega) (Nat.le_refl i)
  simp [hcondition', hthen', helse']

/-- A head between two keywords, and a body. -/
theorem builds_headed {first last : Keyword} {node : Expr → Statement → Span → Statement}
    (hfirst : fences (.keyword first) = false) (hlast : fences (.keyword last) = false)
    (hnode : ∀ e s span, (node e s span).outline = .node span [[e.outline], [s.outline]]) :
    Builds F Statement.outline (do
      let start ← here
      let _ ← expect (.keyword first)
      let head ← expression
      let _ ← expect (.keyword last)
      let body ← branchWith statement
      return node head body (← spanFrom start)) := by
  intro m
  apply RuleLays.here
  apply RuleLays.expect (F.passes hfirst)
  intro _ _
  apply RuleLays.bind (builds_expression (m + 1))
  intro head k hk hhead
  apply RuleLays.expect (F.passes hlast)
  intro _ _
  apply RuleLays.bind (lays_branchWith hsub)
  intro body j hj hbody
  apply RuleLays.spanFrom
  intro hsize span hspan
  refine RuleLays.pure fun hc => ?_
  rw [hnode]
  apply Solid.node (by omega) hsize (hspan hc)
  have hhead' := (hhead hc).row.mono (Nat.le_succ m) (show k ≤ j by omega)
  have hbody' := (hbody hc).mono (show m ≤ k + 1 by omega) (Nat.le_refl j)
  simp [hhead', hbody']

theorem builds_whileWith : Builds F Statement.outline (whileWith statement) :=
  builds_headed hsub rfl rfl fun _ _ _ => by simp [Statement.outline]

theorem builds_withWith : Builds F Statement.outline (withWith statement) :=
  builds_headed hsub rfl rfl fun _ _ _ => by simp [Statement.outline]

theorem builds_repeatWith : Builds F Statement.outline (repeatWith statement) := by
  intro m
  apply RuleLays.here
  apply RuleLays.expect (F.passes rfl)
  intro _ _
  apply RuleLays.step (lays_listWith hsub)
  intro body k hk hbody
  apply RuleLays.expect (F.passes rfl)
  intro _ _
  apply RuleLays.bind (builds_expression (k + 1))
  intro condition j hj hcondition
  apply RuleLays.spanFrom
  intro hsize span hspan
  refine RuleLays.pure fun hc => ?_
  simp only [Statement.outline]
  apply Solid.node (by omega) hsize (hspan hc)
  have hbody' := (hbody hc).mono (Nat.le_succ m) (show k ≤ j by omega)
  have hcondition' := (hcondition hc).row.mono (show m ≤ k + 1 by omega) (Nat.le_refl j)
  simp [hbody', hcondition']

theorem builds_forWith : Builds F Statement.outline (forWith statement) := by
  intro m
  apply RuleLays.here
  apply RuleLays.expect (F.passes rfl)
  intro _ _
  apply RuleLays.bind (builds_counter (m + 1))
  intro counter k₁ hk₁ hcounter
  apply RuleLays.expect (F.passes rfl)
  intro _ _
  apply RuleLays.bind (builds_expression (k₁ + 1))
  intro first k₂ hk₂ hfirst
  apply RuleLays.bind lays_direction
  intro direction k₃ hk₃ _
  apply RuleLays.bind (builds_expression k₃)
  intro last k₄ hk₄ hlast
  apply RuleLays.expect (F.passes rfl)
  intro _ _
  apply RuleLays.bind (lays_branchWith hsub)
  intro body k₅ hk₅ hbody
  apply RuleLays.spanFrom
  intro hsize span hspan
  refine RuleLays.pure fun hc => ?_
  simp only [Statement.outline]
  apply Solid.node (by omega) hsize (hspan hc)
  have hcounter' := (hcounter hc).row.mono (Nat.le_succ m) (show k₁ ≤ k₅ by omega)
  have hfirst' := (hfirst hc).row.mono (show m ≤ k₁ + 1 by omega) (show k₂ ≤ k₅ by omega)
  have hlast' := (hlast hc).row.mono (show m ≤ k₃ by omega) (show k₄ ≤ k₅ by omega)
  have hbody' := (hbody hc).mono (show m ≤ k₄ + 1 by omega) (Nat.le_refl k₅)
  simp [hcounter', hfirst', hlast', hbody']

theorem builds_caseBranchWith : Builds F Statement.branchOutline (caseBranchWith statement) := by
  intro m
  apply RuleLays.here
  apply RuleLays.bind (builds_commaSeparated builds_element m)
  intro values k hk hvalues
  apply RuleLays.expect (F.passes rfl)
  intro _ _
  apply RuleLays.bind (lays_branchWith hsub)
  intro branch j hj hbranch
  apply RuleLays.spanFrom
  intro hsize span hspan
  refine RuleLays.pure fun hc => ?_
  simp only [Statement.branchOutline]
  apply Solid.node (by omega) hsize (hspan hc)
  have hvalues' := (hvalues hc).mono (Nat.le_refl m) (show k ≤ j by omega)
  have hbranch' := (hbranch hc).mono (show m ≤ k + 1 by omega) (Nat.le_refl j)
  simp [hvalues', hbranch']

theorem lays_caseBranchRound {k : Nat} {found : Array CaseBranch} (hk : m ≤ k)
    (hfound : F.InOrder → Row F.toCursor m k (found.toList.map Statement.branchOutline)) :
    Lays F k (caseBranchRound statement found) fun r j =>
      Row F.toCursor m j ((payload r).toList.map Statement.branchOutline) := by
  apply Lays.peekKind
  split
  · exact Lays.pure hfound
  · split
    · rename_i hkind
      apply Lays.advance (F.lets_of_kind (by rw [hkind]; rfl))
      exact fun _ => Lays.pure fun hc => (hfound hc).mono (Nat.le_refl m) (Nat.le_succ k)
    · apply Lays.here
      apply Lays.attempt (builds_caseBranchWith hsub k)
      · intro branch j hj hbranch
        apply Lays.bind (lays_separator endsBranches)
        intro _ i hi _
        refine Lays.pure fun hc => ?_
        have hrow := (hbranch hc).row.mono (Nat.le_refl k) hi
        simpa [payload] using (hfound hc).append hrow hk (by omega)
      · intro fault j hj hfault
        apply Lays.bind (lays_recoverStatement k _ hfault)
        intro _ i hi _
        exact Lays.pure fun hc => (hfound hc).mono (Nat.le_refl m) (by omega)

theorem lays_caseBranchesWith : Lays F m (caseBranchesWith statement) fun found k =>
    Row F.toCursor m k (found.map Statement.branchOutline) := by
  apply Lays.bind (R := fun found k => Row F.toCursor m k (found.toList.map Statement.branchOutline))
  · exact Lays.loop (fun _ => .nil) fun found k hk hfound => lays_caseBranchRound hsub hk hfound
  · exact fun found k _ hfound => Lays.pure hfound

theorem lays_otherwiseWith : Lays F m (otherwiseWith statement) fun otherwise k =>
    Row F.toCursor m k ((otherwise.getD []).map Statement.outline) := by
  apply Lays.accept (F.passes rfl)
  · exact fun _ _ => (lays_listWith hsub).map fun found k _ _ h => h.mono (Nat.le_succ m) (Nat.le_refl k)
  · exact Lays.pure fun _ => .nil

theorem builds_caseWith : Builds F Statement.outline (caseWith statement) := by
  intro m
  apply RuleLays.here
  apply RuleLays.expect (F.passes rfl)
  intro _ _
  apply RuleLays.bind (builds_expression (m + 1))
  intro subject k₁ hk₁ hsubject
  apply RuleLays.expect (F.passes rfl)
  intro _ _
  apply RuleLays.step (lays_caseBranchesWith hsub)
  intro branches k₂ hk₂ hbranches
  apply RuleLays.step (lays_otherwiseWith hsub)
  intro otherwise k₃ hk₃ hotherwise
  apply RuleLays.expect (F.passes rfl)
  intro _ _
  apply RuleLays.spanFrom
  intro hsize span hspan
  refine RuleLays.pure fun hc => ?_
  simp only [Statement.outline]
  apply Solid.node (by omega) hsize (hspan hc)
  have hsubject' := (hsubject hc).row.mono (Nat.le_succ m) (show k₁ ≤ k₃ + 1 by omega)
  have hbranches' := (hbranches hc).mono (show m ≤ k₁ + 1 by omega) (show k₂ ≤ k₃ + 1 by omega)
  have hotherwise' := (hotherwise hc).mono (show m ≤ k₂ by omega) (show k₃ ≤ k₃ + 1 by omega)
  simp [hsubject', hbranches', hotherwise']

theorem builds_statementWith : Builds F Statement.outline (statementWith statement) := by
  intro m
  apply RuleLays.peek
  split
  · exact builds_blockWith hsub m
  · exact builds_ifWith hsub m
  · exact builds_whileWith hsub m
  · exact builds_repeatWith hsub m
  · exact builds_forWith hsub m
  · exact builds_caseWith hsub m
  · exact builds_exitStatement m
  · exact builds_withWith hsub m
  · rename_i hkind
    apply RuleLays.advance (F.lets_of_kind (by rw [hkind]; rfl))
    intro hlt
    refine RuleLays.pure fun _ => ?_
    simpa [Statement.outline] using Solid.token (Nat.lt_of_lt_of_le hlt F.limit_le)
  · rename_i hkind
    apply RuleLays.advance (F.lets_of_kind (by rw [hkind]; rfl))
    intro hlt
    apply RuleLays.report fun _ => .token F.toCursor m
    refine RuleLays.pure fun _ => ?_
    simpa using Solid.token (Nat.lt_of_lt_of_le hlt F.limit_le)
  · split
    · exact RuleLays.expected _
    · exact builds_assignmentOrCall m
  · exact builds_assignmentOrCall m

end

theorem builds_statementAt (n : Nat) : Builds F Statement.outline (statementAt n) := by
  induction n with
  | zero => exact fun m => RuleLays.tooDeep
  | succ n ih => exact fun m => RuleLays.nested (builds_statementWith ih m)

theorem lays_body :
    RuleLays F m body fun found k => m < k ∧ Row F.toCursor m k (found.map Statement.outline) :=
  RuleLays.of_levels fun n => lays_bodyWith (builds_statementAt n)

end CalExport.Rule
