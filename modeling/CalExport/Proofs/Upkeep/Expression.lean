import CalExport.Proofs.SyntaxTree
import CalExport.Proofs.Upkeep.Leaf
import CalExport.Expr.Rule

namespace CalExport.Rule

open SyntaxNode

variable {α : Type} {U : Upkeep} {n h : Nat} {Q : α → Prop}

def BendsTo (U : Upkeep) (n : Nat) (x : Rule Expr) (h : Nat) : Prop := RuleServes U n x fun e => Bends h (.expr e)

theorem BendsTo.mono {x : Rule Expr} {k : Nat} (hx : BendsTo U n x h) (hk : h ≤ k) : BendsTo U n x k :=
  RuleServes.mono hx fun _ he => he.mono hk

theorem bendsTo_leftAssoc {operator? : Kind → Option BinaryOp} {operand : Rule Expr} {right : BinaryOp → Rule Expr}
    (hoperand : BendsTo U n operand h) (hright : ∀ op, BendsTo U n (right op) h) :
    BendsTo U n (leftAssoc operator? operand right) (h + 1) := by
  apply RuleServes.bind (hoperand.mono (Nat.le_succ h))
  intro left hleft
  apply RuleServes.tryLoop (I := fun e => Bends (h + 1) (.expr e)) hleft
  intro e he
  apply RuleServes.look
  intro κ
  split
  · exact RuleServes.pure he
  · apply RuleServes.advance
    intro _
    apply RuleServes.bind (hright _)
    intro right hr
    exact RuleServes.pure (he.join _ hr)

theorem serves_commaSeparated {item : Rule α} (hitem : RuleServes U n item Q) :
    RuleServes U n (commaSeparated item) fun items => ∀ a ∈ items, Q a := by
  apply RuleServes.bind (R := fun (items : Array α) => ∀ a ∈ items, Q a)
  · apply RuleServes.tryLoop (by simp)
    intro items hitems
    apply RuleServes.bind hitem
    intro next hnext
    have hpush : ∀ a ∈ items.push next, Q a := forall_mem_push hitems hnext
    apply RuleServes.accept_ite
    · exact RuleServes.pure hpush
    · exact RuleServes.pure hpush
  · intro items hitems
    exact RuleServes.pure fun a ha => hitems a (Array.mem_toList_iff.1 ha)

theorem serves_listUpTo (close : Kind) {item : Rule α} (hitem : RuleServes U n item Q) :
    RuleServes U n (listUpTo close item) fun items => ∀ a ∈ items, Q a := by
  apply RuleServes.look
  intro found
  split
  · exact RuleServes.pure (by simp)
  · exact serves_commaSeparated hitem

theorem serves_memberName (expected : String) : RuleServes U n (memberName expected) Always := by
  apply RuleServes.look
  intro t
  split
  case h_6 => exact RuleServes.throw _
  all_goals
    apply RuleServes.advance
    intro _
    exact RuleServes.pure trivial

theorem serves_literalOf (t : Token) : Serves U n (literalOf? t) Always := by
  unfold literalOf?
  split
  case h_1 => exact (serves_integerValue t).bind fun _ _ => Serves.pure trivial
  all_goals exact Serves.pure trivial

theorem bendsTo_wordOrLiteral (t : Token) : BendsTo U n (wordOrLiteral t) (h + 1) := by
  unfold wordOrLiteral
  split
  · apply RuleServes.advance
    intro _
    apply RuleServes.step (serves_literalOf t)
    intro value _
    cases value with
    | none => exact RuleServes.throw _
    | some value => exact RuleServes.pure (Bends.leaf rfl rfl)
  · split
    · split
      · exact RuleServes.throw _
      · apply RuleServes.advance
        intro _
        exact RuleServes.pure (Bends.leaf rfl rfl)
    · exact RuleServes.throw _

structure Deeper.BendsTo (U : Upkeep) (n : Nat) (sub : Deeper) (h : Nat) : Prop where
  expression : Rule.BendsTo U n sub.expression h
  unary : Rule.BendsTo U n sub.unary h

section

variable {sub : Deeper} (hsub : Deeper.BendsTo U n sub h)

include hsub

theorem bendsTo_elementWith : BendsTo U n (elementWith sub) (h + 1) := by
  apply RuleServes.look
  intro start
  apply RuleServes.accept_ite
  · apply RuleServes.bind hsub.expression
    intro last hlast
    apply RuleServes.look
    intro span
    exact RuleServes.pure (Bends.expr (by simp [Expr.spine]) (by simpa [Expr.branches] using hlast))
  · apply RuleServes.bind hsub.expression
    intro first hfirst
    apply RuleServes.accept_ite
    · have hend : RuleServes U n (rangeEndWith sub) fun last => ∀ e ∈ last, Bends h (.expr e) := by
        apply RuleServes.look
        intro κ
        split
        · exact RuleServes.map hsub.expression fun e he => by simpa using he
        · exact RuleServes.pure (by simp)
      apply hend.bind
      intro last hlast
      apply RuleServes.look
      intro span
      refine RuleServes.pure (Bends.expr (by simp [Expr.spine]) ?_)
      intro e he
      rcases List.mem_append.1 he with he | he
      · obtain rfl : e = first := by simpa using he
        exact hfirst
      · exact hlast e (Option.mem_toList.1 he)
    · exact RuleServes.pure (hfirst.mono (Nat.le_succ h))

theorem bendsTo_setLiteralWith : BendsTo U n (setLiteralWith sub) (h + 2) := by
  apply RuleServes.look
  intro start
  apply RuleServes.expect
  intro _
  apply RuleServes.bind (serves_listUpTo _ (bendsTo_elementWith hsub))
  intro elements helements
  apply RuleServes.expect
  intro _
  apply RuleServes.look
  intro span
  exact RuleServes.pure (Bends.expr (by simp [Expr.spine]) (by simpa [Expr.branches] using helements))

theorem bendsTo_parenthesizedWith : BendsTo U n (parenthesizedWith sub) h := by
  apply RuleServes.expect
  intro _
  apply RuleServes.bind hsub.expression
  intro inner hinner
  apply RuleServes.expect
  intro _
  exact RuleServes.pure hinner

theorem bendsTo_primaryWith : BendsTo U n (primaryWith sub) (h + 2) := by
  apply RuleServes.look
  intro t
  split
  · exact (bendsTo_parenthesizedWith hsub).mono (by omega)
  · exact bendsTo_setLiteralWith hsub
  case h_5 => exact bendsTo_wordOrLiteral t
  all_goals
    apply RuleServes.advance
    intro _
    exact RuleServes.pure (Bends.leaf rfl rfl)

/-- The operand in front of a trailer is its spine. -/
theorem bendsTo_trailerRound (start : Nat) {e : Expr} (he : Bends (h + 2) (.expr e)) :
    RuleServes U n (trailerRound sub start e) fun r => Bends (h + 2) (.expr (payload r)) := by
  have hmember : ∀ (name : String) (qualified : Bool) (span : Text.Span),
      Bends (h + 2) (.expr (.member e name qualified span)) := fun name qualified span =>
    Bends.trailer rfl he (List.forall_mem_nil _)
  have hitems : ∀ close, RuleServes U n (listUpTo close sub.expression) fun items =>
      ∀ x ∈ items, Bends (h + 1) (.expr x) := fun close =>
    serves_listUpTo close (hsub.expression.mono (Nat.le_succ h))
  apply RuleServes.look
  intro κ
  split
  · apply RuleServes.advance
    intro _
    apply (serves_memberName _).bind
    intro name _
    apply RuleServes.look
    intro span
    exact RuleServes.pure (hmember name false span)
  · apply RuleServes.advance
    intro _
    apply (serves_memberName _).bind
    intro name _
    apply RuleServes.look
    intro span
    exact RuleServes.pure (hmember name true span)
  · apply RuleServes.advance
    intro _
    apply (hitems _).bind
    intro arguments harguments
    apply RuleServes.expect
    intro _
    apply RuleServes.look
    intro span
    exact RuleServes.pure (Bends.trailer rfl he harguments)
  · apply RuleServes.advance
    intro _
    apply (hitems _).bind
    intro indices hindices
    apply RuleServes.expect
    intro _
    apply RuleServes.look
    intro span
    exact RuleServes.pure (Bends.trailer rfl he hindices)
  · exact RuleServes.pure he

theorem bendsTo_operandWith : BendsTo U n (operandWith sub) (h + 2) := by
  apply RuleServes.look
  intro start
  apply RuleServes.bind (bendsTo_primaryWith hsub)
  intro e he
  exact RuleServes.tryLoop (I := fun e => Bends (h + 2) (.expr e)) he fun e he => bendsTo_trailerRound hsub start he

theorem bendsTo_unaryWith : BendsTo U n (unaryWith sub) (h + 2) := by
  apply RuleServes.look
  intro t
  split
  · exact bendsTo_operandWith hsub
  · apply RuleServes.advance
    intro _
    apply RuleServes.bind (hsub.unary.mono (Nat.le_succ h))
    intro operand hoperand
    exact RuleServes.pure (Bends.expr (by simp [Expr.spine]) (by simpa [Expr.branches] using hoperand))

theorem bendsTo_productWith : BendsTo U n (productWith sub) (h + 3) :=
  bendsTo_leftAssoc (bendsTo_unaryWith hsub) fun _ => bendsTo_unaryWith hsub

theorem bendsTo_sumWith : BendsTo U n (sumWith sub) (h + 4) :=
  bendsTo_leftAssoc (bendsTo_productWith hsub) fun _ => bendsTo_productWith hsub

theorem bendsTo_relationRightWith (op : BinaryOp) : BendsTo U n (relationRightWith sub op) (h + 4) := by
  apply RuleServes.look
  intro found
  split
  · exact (bendsTo_setLiteralWith hsub).mono (by omega)
  · exact bendsTo_sumWith hsub

theorem bendsTo_relationWith : BendsTo U n (relationWith sub) (h + 5) :=
  bendsTo_leftAssoc (bendsTo_sumWith hsub) (bendsTo_relationRightWith hsub)

theorem bendsTo_equalityWith : BendsTo U n (equalityWith sub) (h + 6) :=
  bendsTo_leftAssoc (bendsTo_relationWith hsub) fun _ => bendsTo_relationWith hsub

theorem bendsTo_conjunctionWith : BendsTo U n (conjunctionWith sub) (h + 7) :=
  bendsTo_leftAssoc (bendsTo_equalityWith hsub) fun _ => bendsTo_equalityWith hsub

theorem bendsTo_disjunctionWith : BendsTo U n (disjunctionWith sub) (h + 8) :=
  bendsTo_leftAssoc (bendsTo_conjunctionWith hsub) fun _ => bendsTo_conjunctionWith hsub

theorem serves_ternaryWith : RuleServes U n (ternaryWith sub) Always := by
  apply RuleServes.expect
  intro t
  apply RuleServes.report
  apply RuleServes.bind (bendsTo_disjunctionWith hsub)
  intro _ _
  apply RuleServes.accept_ite
  · apply RuleServes.bind (bendsTo_disjunctionWith hsub)
    intro _ _
    exact RuleServes.pure trivial
  · exact RuleServes.pure trivial

theorem bendsTo_expressionWith : BendsTo U n (expressionWith sub) (h + 8) := by
  apply RuleServes.bind (bendsTo_disjunctionWith hsub)
  intro condition hcondition
  apply RuleServes.look
  intro found
  split
  · exact (serves_ternaryWith hsub).bind fun _ _ => RuleServes.pure hcondition
  · exact RuleServes.pure hcondition

end

/-- Each level adds its eight kinds of rules. -/
theorem bendsTo_deeper (n : Nat) : Deeper.BendsTo U n (deeper n) (8 * n) := by
  induction n with
  | zero => exact ⟨RuleServes.tooDeep, RuleServes.tooDeep⟩
  | succ n ih =>
      exact ⟨RuleServes.nested (bendsTo_expressionWith ih),
        RuleServes.nested ((bendsTo_unaryWith ih).mono (by omega))⟩

theorem bendsTo_expression (n : Nat) : BendsTo U n expression (8 * n) :=
  RuleServes.of_levels (x := fun n => (deeper n).expression) (bendsTo_deeper n).expression

theorem bendsTo_operand (n : Nat) : BendsTo U n operand (8 * n + 2) :=
  RuleServes.of_levels (x := fun n => operandWith (deeper n)) (bendsTo_operandWith (bendsTo_deeper n))

theorem bendsTo_element (n : Nat) : BendsTo U n element (8 * n + 1) :=
  RuleServes.of_levels (x := fun n => elementWith (deeper n)) (bendsTo_elementWith (bendsTo_deeper n))

/-- What the nodes of a tree are like, by grades: a statement or a type is of the next grade above what stands below
it, and the rules for expressions read expressions of a grade that the levels left allow. -/
structure Growth (U : Upkeep) where
  grade : Nat → SyntaxNode → Prop
  mono {h k : Nat} {m} : grade h m → h ≤ k → grade k m
  statement {h : Nat} {s} : (∀ child ∈ s.nodes, grade h child) → grade (h + 1) (.statement s)
  dataType {h : Nat} {t} : (∀ child ∈ (SyntaxNode.dataType t).branches, grade h child) → grade (h + 1) (.dataType t)
  placeholder (h : Nat) (span) : grade (h + 1) (.expr (.placeholder span))
  compound {h : Nat} {op left right} : grade h (.expr left) → grade h (.expr right) →
    grade (h + 1) (.compound (.join op left right))
  expression (n : Nat) : RuleServes U n Rule.expression fun e => grade (8 * n + 2) (.expr e)
  operand (n : Nat) : RuleServes U n Rule.operand fun e => grade (8 * n + 2) (.expr e)
  element (n : Nat) : RuleServes U n Rule.element fun e => grade (8 * n + 2) (.expr e)

def Growth.bends (U : Upkeep) : Growth U where
  grade := Bends
  mono := Bends.mono
  statement h := Bends.of_branches rfl h
  dataType h := Bends.of_branches rfl h
  placeholder _ _ := Bends.leaf rfl rfl
  compound hl hr := (Bends.join _ (hl.mono (Nat.le_succ _)) hr).compound
  expression n := (bendsTo_expression n).mono (Nat.le_add_right _ 2)
  operand n := bendsTo_operand n
  element n := (bendsTo_element n).mono (Nat.le_succ _)

def Growth.Fits (G : Growth U) (n : Nat) (m : SyntaxNode) : Prop := G.grade (8 * n + 3) m

end CalExport.Rule
