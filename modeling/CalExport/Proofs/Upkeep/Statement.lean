import CalExport.Proofs.Upkeep.Expression
import CalExport.Proofs.Simulation.Statement

namespace CalExport.Rule

open Text

variable {U : Upkeep} {G : Growth U} {n : Nat}

namespace Growth

variable {m : SyntaxNode}

theorem fits_of_read {e : Expr} (h : G.grade (8 * n + 2) (.expr e)) : G.Fits n (.expr e) := G.mono h (Nat.le_succ _)

theorem fits_expression (G : Growth U) (n : Nat) : RuleServes U n Rule.expression fun e => G.Fits n (.expr e) :=
  (G.expression n).mono fun _ => fits_of_read

theorem fits_element (G : Growth U) (n : Nat) : RuleServes U n Rule.element fun e => G.Fits n (.expr e) :=
  (G.element n).mono fun _ => fits_of_read

theorem fits_empty (G : Growth U) (n : Nat) (span : Span) : G.Fits n (.statement (.empty span)) :=
  G.mono (G.statement (h := 0) (by simp [Statement.nodes])) (by omega)

end Growth

open Growth

def Growth.Suits (G : Growth U) (n : Nat) (nodes : List SyntaxNode) : Prop := ∀ m ∈ nodes, G.Fits n m

def Growth.Tops (G : Growth U) (n : Nat) (s : Statement) : Prop := G.Suits n s.nodes

theorem position_advance_le (s : Parser) : (advance s).2.position ≤ s.position + 1 := by
  show s.toCursor.next.position ≤ _
  unfold Cursor.next
  split <;> simp

theorem serves_recoverStatement (fault : Fault) (start : Nat) (reason : String) :
    Serves U n (recoverStatement fault start reason) Always := by
  apply Serves.report_then
  apply serves_skipStatement.bind
  intro _ _
  apply Serves.skip reason
  intro s
  show Skipped reason s ((ite (s.position - start = 0 ∧ (!endsList s.peek.kind) = true) _ _ : Parse Unit) s).2
  split
  · rename_i hforced
    refine ⟨(advance s).2, Moves.advance s, ?_⟩
    rcases Nat.lt_or_eq_of_le (show s.position ≤ start by omega) with hlt | rfl
    · left
      -- The token that is forced stands in front of the place to record from.
      have hposition : (advance s).2.position ≤ s.position + 1 := position_advance_le s
      show (recordSkipped start reason (advance s).2).2 = _
      rw [recordSkipped, if_pos (by omega)]
    · exact .inr rfl
  · exact ⟨s, .refl, .inl rfl⟩

theorem serves_separator (ends : Kind → Bool) : Serves U n (separator ends) Always := by
  apply (Serves.accept _).bind
  intro found _
  split
  · apply Serves.look
    intro next
    split
    · exact Serves.report _
    · exact Serves.pure trivial
  · exact Serves.pure trivial

theorem serves_assignmentOrCall : RuleServes U n assignmentOrCall (G.Tops n) := by
  apply RuleServes.look
  intro start
  apply (G.operand n).bind
  intro target htarget
  apply RuleServes.look
  intro κ
  split
  · exact RuleServes.pure (by simpa [Tops, Suits, Statement.nodes] using fits_of_read htarget)
  · rename_i op _
    apply RuleServes.advance
    intro _
    apply (G.expression n).bind
    intro right hright
    apply RuleServes.look
    intro span
    apply RuleServes.pure
    have hnodes : ∀ value, G.Fits n (op.node value) → G.Tops n (.assign target op value span) := by
      intro value hvalue
      simpa [Tops, Suits, Statement.nodes] using ⟨fits_of_read htarget, hvalue⟩
    apply hnodes
    unfold AssignOp.node
    cases op.binary? with
    | none => exact fits_of_read hright
    | some binary => exact G.compound htarget hright

theorem serves_exitValue : RuleServes U n exitValue fun value => ∀ e ∈ value, G.Fits n (.expr e) := by
  apply RuleServes.accept_ite
  · apply RuleServes.accept_ite
    · exact RuleServes.pure (by simp)
    · apply (G.fits_expression n).bind
      intro value hvalue
      apply RuleServes.expect
      intro _
      exact RuleServes.pure (by simpa using hvalue)
  · exact RuleServes.pure (by simp)

theorem serves_exitStatement : RuleServes U n exitStatement (G.Tops n) := by
  apply RuleServes.look
  intro start
  apply RuleServes.expect
  intro _
  apply serves_exitValue.bind
  intro value hvalue
  apply RuleServes.look
  intro span
  exact RuleServes.pure (by simpa [Tops, Suits, Statement.nodes] using hvalue)

theorem serves_counter : RuleServes U n counter fun e => G.Fits n (.expr e) := by
  apply (G.operand n).bind
  intro target htarget
  split
  case h_3 =>
    apply RuleServes.report
    exact RuleServes.pure (G.placeholder _ _)
  all_goals exact RuleServes.pure (fits_of_read htarget)

theorem serves_direction : RuleServes U n direction Always := by
  apply RuleServes.accept_ite
  · exact RuleServes.pure trivial
  · apply RuleServes.accept_ite
    · exact RuleServes.pure trivial
    · apply RuleServes.look
      intro t
      exact RuleServes.throw _

section

variable {statement : Rule Statement} (hsub : RuleServes U n statement fun s => G.Fits n (.statement s))

include hsub

theorem serves_listWith : Serves U n (listWith statement) fun ss => ∀ s ∈ ss, G.Fits n (.statement s) := by
  apply Serves.bind (R := fun (found : Array Statement) => ∀ s ∈ found, G.Fits n (.statement s))
  · apply Serves.loop (by simp)
    intro found hfound
    have hpush : ∀ s, G.Fits n (.statement s) → ∀ x ∈ found.push s, G.Fits n (.statement x) :=
      fun _ => forall_mem_push hfound
    apply Serves.look
    intro t
    split
    · exact Serves.pure hfound
    · split
      · apply Serves.advance.bind
        intro _ _
        exact Serves.pure (hpush _ (G.fits_empty n _))
      · apply Serves.look
        intro start
        apply Serves.attempt hsub
        · intro s hs
          apply (serves_separator _).bind
          intro _ _
          exact Serves.pure (hpush s hs)
        · intro fault
          apply (serves_recoverStatement fault start _).bind
          intro _ _
          exact Serves.pure hfound
  · intro found hfound
    exact Serves.pure fun s hs => hfound s (Array.mem_toList_iff.1 hs)

theorem serves_bodyWith : RuleServes U n (bodyWith statement) fun ss => ∀ s ∈ ss, G.Fits n (.statement s) := by
  apply RuleServes.expect
  intro _
  apply RuleServes.step (serves_listWith hsub)
  intro statements hstatements
  apply RuleServes.expect
  intro _
  exact RuleServes.pure hstatements

theorem serves_blockWith : RuleServes U n (blockWith statement) (G.Tops n) := by
  apply RuleServes.look
  intro start
  apply (serves_bodyWith hsub).bind
  intro statements hstatements
  apply RuleServes.look
  intro span
  exact RuleServes.pure (by simpa [Tops, Suits, Statement.nodes] using hstatements)

theorem serves_branchWith : RuleServes U n (branchWith statement) fun s => G.Fits n (.statement s) := by
  apply RuleServes.look
  intro next
  split
  · exact RuleServes.pure (G.fits_empty n _)
  · exact hsub

theorem serves_elseWith :
    RuleServes U n (elseWith statement) fun branch => ∀ s ∈ branch, G.Fits n (.statement s) := by
  apply RuleServes.accept_ite
  · exact (serves_branchWith hsub).map fun s hs => by simpa using hs
  · exact RuleServes.pure (by simp)

theorem serves_ifWith : RuleServes U n (ifWith statement) (G.Tops n) := by
  apply RuleServes.look
  intro start
  apply RuleServes.expect
  intro _
  apply (G.fits_expression n).bind
  intro condition hcondition
  apply RuleServes.expect
  intro _
  apply (serves_branchWith hsub).bind
  intro thenBranch hthen
  apply (serves_elseWith hsub).bind
  intro elseBranch helse
  apply RuleServes.look
  intro span
  exact RuleServes.pure (by simpa [Tops, Suits, Statement.nodes] using ⟨hcondition, hthen, helse⟩)

theorem serves_whileWith : RuleServes U n (whileWith statement) (G.Tops n) := by
  apply RuleServes.look
  intro start
  apply RuleServes.expect
  intro _
  apply (G.fits_expression n).bind
  intro condition hcondition
  apply RuleServes.expect
  intro _
  apply (serves_branchWith hsub).bind
  intro body hbody
  apply RuleServes.look
  intro span
  exact RuleServes.pure (by simpa [Tops, Suits, Statement.nodes] using ⟨hcondition, hbody⟩)

theorem serves_repeatWith : RuleServes U n (repeatWith statement) (G.Tops n) := by
  apply RuleServes.look
  intro start
  apply RuleServes.expect
  intro _
  apply RuleServes.step (serves_listWith hsub)
  intro body hbody
  apply RuleServes.expect
  intro _
  apply (G.fits_expression n).bind
  intro condition hcondition
  apply RuleServes.look
  intro span
  exact RuleServes.pure (by simpa [Tops, Suits, Statement.nodes] using ⟨hcondition, hbody⟩)

theorem serves_forWith : RuleServes U n (forWith statement) (G.Tops n) := by
  apply RuleServes.look
  intro start
  apply RuleServes.expect
  intro _
  apply serves_counter.bind
  intro counter hcounter
  apply RuleServes.expect
  intro _
  apply (G.fits_expression n).bind
  intro first hfirst
  apply serves_direction.bind
  intro direction _
  apply (G.fits_expression n).bind
  intro last hlast
  apply RuleServes.expect
  intro _
  apply (serves_branchWith hsub).bind
  intro body hbody
  apply RuleServes.look
  intro span
  exact RuleServes.pure (by simpa [Tops, Suits, Statement.nodes] using ⟨hcounter, hfirst, hlast, hbody⟩)

theorem serves_withWith : RuleServes U n (withWith statement) (G.Tops n) := by
  apply RuleServes.look
  intro start
  apply RuleServes.expect
  intro _
  apply (G.fits_expression n).bind
  intro record hrecord
  apply RuleServes.expect
  intro _
  apply (serves_branchWith hsub).bind
  intro body hbody
  apply RuleServes.look
  intro span
  exact RuleServes.pure (by simpa [Tops, Suits, Statement.nodes] using ⟨hrecord, hbody⟩)

theorem serves_caseBranchWith :
    RuleServes U n (caseBranchWith statement) fun branch => G.Suits n branch.nodes := by
  apply RuleServes.look
  intro start
  apply (serves_commaSeparated (G.fits_element n)).bind
  intro values hvalues
  apply RuleServes.expect
  intro _
  apply (serves_branchWith hsub).bind
  intro branch hbranch
  apply RuleServes.look
  intro span
  apply RuleServes.pure
  intro m hm
  rcases List.mem_append.1 hm with hm | hm
  · obtain ⟨e, he, rfl⟩ := List.mem_map.1 hm
    exact hvalues e he
  · obtain rfl := List.mem_singleton.1 hm
    exact hbranch

theorem serves_caseBranchesWith :
    Serves U n (caseBranchesWith statement) fun branches => ∀ b ∈ branches, G.Suits n b.nodes := by
  apply Serves.bind (R := fun (found : Array CaseBranch) => ∀ b ∈ found, G.Suits n b.nodes)
  · apply Serves.loop (by simp)
    intro found hfound
    apply Serves.look
    intro κ
    split
    · exact Serves.pure hfound
    · split
      · apply Serves.advance.bind
        intro _ _
        exact Serves.pure hfound
      · apply Serves.look
        intro start
        apply Serves.attempt (serves_caseBranchWith hsub)
        · intro branch hbranch
          apply (serves_separator _).bind
          intro _ _
          apply Serves.pure
          intro b hb
          rcases Array.mem_push.1 hb with hb | rfl
          · exact hfound b hb
          · exact hbranch
        · intro fault
          apply (serves_recoverStatement fault start _).bind
          intro _ _
          exact Serves.pure hfound
  · intro found hfound
    exact Serves.pure fun b hb => hfound b (Array.mem_toList_iff.1 hb)

theorem serves_otherwiseWith :
    Serves U n (otherwiseWith statement) fun otherwise => ∀ s ∈ otherwise.getD [], G.Fits n (.statement s) := by
  apply (Serves.accept _).bind
  intro found _
  split
  · exact (serves_listWith hsub).map fun ss hss => hss
  · exact Serves.pure (by simp)

theorem serves_caseWith : RuleServes U n (caseWith statement) (G.Tops n) := by
  apply RuleServes.look
  intro start
  apply RuleServes.expect
  intro _
  apply (G.fits_expression n).bind
  intro subject hsubject
  apply RuleServes.expect
  intro _
  apply RuleServes.step (serves_caseBranchesWith hsub)
  intro branches hbranches
  apply RuleServes.step (serves_otherwiseWith hsub)
  intro otherwise hotherwise
  apply RuleServes.expect
  intro _
  apply RuleServes.look
  intro span
  apply RuleServes.pure
  intro m hm
  rcases List.mem_cons.1 hm with rfl | hm
  · exact hsubject
  · rcases List.mem_append.1 hm with hm | hm
    · obtain ⟨b, hb, hm⟩ := List.mem_flatMap.1 hm
      exact hbranches b hb m hm
    · obtain ⟨s, hs, rfl⟩ := List.mem_map.1 hm
      exact hotherwise s hs

theorem serves_statementWith : RuleServes U n (statementWith statement) (G.Tops n) := by
  apply RuleServes.look
  intro t
  split
  · exact serves_blockWith hsub
  · exact serves_ifWith hsub
  · exact serves_whileWith hsub
  · exact serves_repeatWith hsub
  · exact serves_forWith hsub
  · exact serves_caseWith hsub
  · exact serves_exitStatement
  · exact serves_withWith hsub
  · apply RuleServes.advance
    intro _
    exact RuleServes.pure (List.forall_mem_nil _)
  · apply RuleServes.advance
    intro _
    apply RuleServes.report
    exact RuleServes.pure (List.forall_mem_nil _)
  · split
    · exact RuleServes.throw _
    · exact serves_assignmentOrCall
  · exact serves_assignmentOrCall

end

theorem serves_statementAt (G : Growth U) (n : Nat) :
    RuleServes U n (statementAt n) fun s => G.Fits n (.statement s) := by
  induction n with
  | zero => exact RuleServes.tooDeep
  | succ n ih =>
      apply RuleServes.nested
      exact (serves_statementWith ih).mono fun s hs => G.mono (G.statement hs) (by omega)

theorem serves_body (G : Growth U) (n : Nat) :
    RuleServes U n body fun ss => ∀ s ∈ ss, G.Fits n (.statement s) :=
  RuleServes.of_levels (x := fun n => bodyWith (statementAt n)) (serves_bodyWith (serves_statementAt G n))

end CalExport.Rule
