import CalExport.Proofs.Simulation.Leaf
import CalExport.Expr.Rule

namespace CalExport.Rule

variable {α : Type} {R : Simulation} {P : Parser → Prop} {k : Nat}

theorem may_of_operator (operator? : Kind → Option α) (heof : operator? .eof = none)
    (hbrace : operator? .rightBrace = none) {κ : Kind} {op : α} (h : operator? κ = some op) : R.May κ := by
  refine ⟨?_, ?_⟩
  · rintro rfl
    exact absurd (heof.symm.trans h) nofun
  · rintro rfl
    exact absurd (hbrace.symm.trans h) nofun

theorem agree_leftAssocRound {operator? : Kind → Option BinaryOp} {right right' : BinaryOp → Rule Expr}
    (heof : operator? .eof = none) (hbrace : operator? .rightBrace = none)
    (hright : ∀ op, RuleAgree R (Below k) Always (right op) (right' op)) (left : Expr) :
    RuleAgree R (Below k) Yields (leftAssocRound operator? right left) (leftAssocRound operator? right' left) := by
  apply RuleAgree.peekKind
  intro κ
  cases hop : operator? κ with
  | none => exact RuleAgree.pure id
  | some op =>
      apply RuleAgree.advance_kind (may_of_operator _ heof hbrace hop)
      intro t
      apply RuleAgree.bind ((hright op).le (Nat.sub_le k 1)).never
      intro e
      exact RuleAgree.pure id

theorem agree_leftAssoc {operator? : Kind → Option BinaryOp} {operand operand' : Rule Expr}
    {right right' : BinaryOp → Rule Expr} (heof : operator? .eof = none) (hbrace : operator? .rightBrace = none)
    (hoperand : RuleAgree R (Below k) Always operand operand')
    (hright : ∀ op, RuleAgree R (Below k) Always (right op) (right' op)) :
    RuleAgree R (Below k) Always (leftAssoc operator? operand right) (leftAssoc operator? operand' right') := by
  apply RuleAgree.andThen hoperand
  intro left
  apply RuleAgree.tryLoop
  intro e
  exact agree_leftAssocRound heof hbrace (fun op => (hright op).le (Nat.sub_le k 1)) e

theorem agree_commaRound {x y : Rule α} (h : RuleAgree R (Below k) Never x y) (items : Array α) :
    RuleAgree R (Below k) Yields (commaRound x items) (commaRound y items) := by
  apply RuleAgree.bind h
  intro next
  refine RuleAgree.accept_ite ⟨nofun, nofun⟩ ?_ ?_
  · exact RuleAgree.pure id
  · exact RuleAgree.pure id

theorem agree_commaSeparated {x y : Rule α} (h : RuleAgree R (Below k) Never x y) :
    RuleAgree R (Below k) Never (commaSeparated x) (commaSeparated y) := by
  apply RuleAgree.bind (RuleAgree.tryLoop (agree_commaRound h) #[])
  intro items
  exact RuleAgree.pure id

theorem agree_listUpTo (close : Kind) {x y : Rule α} (h : RuleAgree R (Below k) Never x y) :
    RuleAgree R (Below k) Never (listUpTo close x) (listUpTo close y) := by
  apply RuleAgree.check_ite
  · exact RuleAgree.pure id
  · exact agree_commaSeparated h

theorem agree_memberName (expected : String) :
    RuleAgree R (Below k) Always (memberName expected) (memberName expected) := by
  apply RuleAgree.peek
  intro t
  split
  case h_6 => exact RuleAgree.throw _
  all_goals
    rename_i hkind
    apply RuleAgree.advance_token (R.may_of_eq hkind ⟨nofun, nofun⟩)
    intro _
    exact RuleAgree.pure id

theorem agree_literalOf (t : Token) : Agree R (Below k) Never (literalOf? t) (literalOf? t) := by
  unfold literalOf?
  split
  case h_1 =>
    apply Agree.bind (agree_integerValue t)
    intro n
    exact Agree.pure id
  all_goals exact Agree.pure id

theorem agree_wordOrLiteral (t : Token) :
    RuleAgree R (fun s => Below k s ∧ s.peek = t) Always (wordOrLiteral t) (wordOrLiteral t) := by
  unfold wordOrLiteral
  split
  · rename_i hliteral
    apply RuleAgree.advance_token (R.may_of_test rfl rfl hliteral)
    intro _
    apply RuleAgree.step (agree_literalOf t)
    intro value
    cases value with
    | none => exact RuleAgree.throw _
    | some value => exact RuleAgree.pure id
  · split
    · rename_i hkind
      split
      · exact RuleAgree.throw _
      · apply RuleAgree.advance_token (R.may_of_eq hkind ⟨nofun, nofun⟩)
        intro _
        exact RuleAgree.pure id
    · exact RuleAgree.throw _

structure Deeper.Agree (R : Simulation) (k : Nat) (sub sub' : Deeper) : Prop where
  expression : RuleAgree R (Below k) Always sub.expression sub'.expression
  unary : RuleAgree R (Below k) Always sub.unary sub'.unary

section

variable {sub sub' : Deeper} (hsub : Deeper.Agree R k sub sub')

include hsub

theorem agree_rangeEndWith : RuleAgree R (Below k) Never (rangeEndWith sub) (rangeEndWith sub') := by
  apply RuleAgree.peekKind
  intro κ
  split
  · exact (hsub.expression.map fun _ h => h.elim).forget
  · exact RuleAgree.pure id

theorem agree_elementWith : RuleAgree R (Below k) Always (elementWith sub) (elementWith sub') := by
  apply RuleAgree.here
  intro start
  refine RuleAgree.accept_ite ⟨nofun, nofun⟩ ?_ ?_
  · apply RuleAgree.bind (hsub.expression.le (Nat.sub_le k 1)).never
    intro last
    apply RuleAgree.spanFrom
    intro span
    exact RuleAgree.pure id
  · apply RuleAgree.andThen hsub.expression
    intro first
    refine RuleAgree.accept_ite ⟨nofun, nofun⟩ ?_ ?_
    · apply RuleAgree.bind ((agree_rangeEndWith hsub).le (by omega))
      intro last
      apply RuleAgree.spanFrom
      intro span
      exact RuleAgree.pure id
    · exact RuleAgree.pure id

theorem agree_setLiteralWith : RuleAgree R (Below (k + 1)) Always (setLiteralWith sub) (setLiteralWith sub') := by
  apply RuleAgree.here
  intro start
  refine RuleAgree.expect_then ⟨nofun, nofun⟩ fun _ => ?_
  apply RuleAgree.bind (agree_listUpTo _ (agree_elementWith hsub).never)
  intro elements
  refine RuleAgree.expect_then ⟨nofun, nofun⟩ fun _ => ?_
  apply RuleAgree.spanFrom
  intro span
  exact RuleAgree.pure id

theorem agree_parenthesizedWith :
    RuleAgree R (Below (k + 1)) Always (parenthesizedWith sub) (parenthesizedWith sub') := by
  refine RuleAgree.expect_then ⟨nofun, nofun⟩ fun _ => ?_
  apply RuleAgree.bind hsub.expression.never
  intro inner
  refine RuleAgree.expect_then ⟨nofun, nofun⟩ fun _ => ?_
  exact RuleAgree.pure id

theorem agree_primaryWith : RuleAgree R (Below (k + 1)) Always (primaryWith sub) (primaryWith sub') := by
  apply RuleAgree.peek
  intro t
  split
  · exact (agree_parenthesizedWith hsub).forget
  · exact (agree_setLiteralWith hsub).forget
  case h_5 => exact agree_wordOrLiteral t
  all_goals
    rename_i hkind
    apply RuleAgree.advance_token (R.may_of_eq hkind ⟨nofun, nofun⟩)
    intro _
    exact RuleAgree.pure id

theorem agree_trailerRound (start : Nat) (e : Expr) :
    RuleAgree R (Below (k + 1)) Yields (trailerRound sub start e) (trailerRound sub' (start + R.shift) e) := by
  apply RuleAgree.peekKind
  intro κ
  split
  · refine RuleAgree.advance_kind ⟨nofun, nofun⟩ fun _ => ?_
    apply RuleAgree.bind (agree_memberName _).never
    intro name
    apply RuleAgree.spanFrom
    intro span
    exact RuleAgree.pure id
  · refine RuleAgree.advance_kind ⟨nofun, nofun⟩ fun _ => ?_
    apply RuleAgree.bind (agree_memberName _).never
    intro name
    apply RuleAgree.spanFrom
    intro span
    exact RuleAgree.pure id
  · refine RuleAgree.advance_kind ⟨nofun, nofun⟩ fun _ => ?_
    apply RuleAgree.bind (agree_listUpTo _ hsub.expression.never)
    intro arguments
    refine RuleAgree.expect_then ⟨nofun, nofun⟩ fun _ => ?_
    apply RuleAgree.spanFrom
    intro span
    exact RuleAgree.pure id
  · refine RuleAgree.advance_kind ⟨nofun, nofun⟩ fun _ => ?_
    apply RuleAgree.bind (agree_listUpTo _ hsub.expression.never)
    intro indices
    refine RuleAgree.expect_then ⟨nofun, nofun⟩ fun _ => ?_
    apply RuleAgree.spanFrom
    intro span
    exact RuleAgree.pure id
  · exact RuleAgree.pure id

theorem agree_operandWith : RuleAgree R (Below (k + 1)) Always (operandWith sub) (operandWith sub') := by
  apply RuleAgree.here
  intro start
  apply RuleAgree.andThen (agree_primaryWith hsub)
  intro e
  exact (RuleAgree.tryLoop (agree_trailerRound hsub start) e).le (by omega)

theorem agree_unaryWith : RuleAgree R (Below (k + 1)) Always (unaryWith sub) (unaryWith sub') := by
  apply RuleAgree.peek
  intro t
  cases hop : unaryOp? t.kind with
  | none => exact (agree_operandWith hsub).forget
  | some op =>
      apply RuleAgree.advance_token (may_of_operator _ rfl rfl hop)
      intro _
      apply RuleAgree.bind hsub.unary.never
      intro operand
      exact RuleAgree.pure id

theorem agree_productWith : RuleAgree R (Below (k + 1)) Always (productWith sub) (productWith sub') :=
  agree_leftAssoc rfl rfl (agree_unaryWith hsub) fun _ => agree_unaryWith hsub

theorem agree_sumWith : RuleAgree R (Below (k + 1)) Always (sumWith sub) (sumWith sub') :=
  agree_leftAssoc rfl rfl (agree_productWith hsub) fun _ => agree_productWith hsub

theorem agree_relationRightWith (op : BinaryOp) :
    RuleAgree R (Below (k + 1)) Always (relationRightWith sub op) (relationRightWith sub' op) := by
  apply RuleAgree.check
  intro found
  split
  · exact agree_setLiteralWith hsub
  · exact agree_sumWith hsub

theorem agree_relationWith : RuleAgree R (Below (k + 1)) Always (relationWith sub) (relationWith sub') :=
  agree_leftAssoc rfl rfl (agree_sumWith hsub) (agree_relationRightWith hsub)

theorem agree_equalityWith : RuleAgree R (Below (k + 1)) Always (equalityWith sub) (equalityWith sub') :=
  agree_leftAssoc rfl rfl (agree_relationWith hsub) fun _ => agree_relationWith hsub

theorem agree_conjunctionWith : RuleAgree R (Below (k + 1)) Always (conjunctionWith sub) (conjunctionWith sub') :=
  agree_leftAssoc rfl rfl (agree_equalityWith hsub) fun _ => agree_equalityWith hsub

theorem agree_disjunctionWith : RuleAgree R (Below (k + 1)) Always (disjunctionWith sub) (disjunctionWith sub') :=
  agree_leftAssoc rfl rfl (agree_conjunctionWith hsub) fun _ => agree_conjunctionWith hsub

theorem agree_ternaryWith : RuleAgree R (Below (k + 1)) Never (ternaryWith sub) (ternaryWith sub') := by
  refine RuleAgree.expect_then ⟨nofun, nofun⟩ fun t => ?_
  apply RuleAgree.step (Agree.report _)
  intro _
  apply RuleAgree.bind ((agree_disjunctionWith hsub).le (by omega)).never
  intro _
  refine RuleAgree.accept_ite ⟨nofun, nofun⟩ ?_ ?_
  · apply RuleAgree.bind ((agree_disjunctionWith hsub).le (by omega)).never
    intro _
    exact RuleAgree.pure id
  · exact RuleAgree.pure id

theorem agree_expressionWith : RuleAgree R (Below (k + 1)) Always (expressionWith sub) (expressionWith sub') := by
  apply RuleAgree.andThen (agree_disjunctionWith hsub)
  intro condition
  apply RuleAgree.check_ite
  · apply RuleAgree.bind ((agree_ternaryWith hsub).le (by omega))
    intro _
    exact RuleAgree.pure id
  · exact RuleAgree.pure id

end

theorem agree_deeper (n k : Nat) : Deeper.Agree R k (deeper n) (deeper n) := by
  induction n generalizing k with
  | zero => exact ⟨RuleAgree.tooDeep, RuleAgree.tooDeep⟩
  | succ n ih =>
      have hexpression := agree_expressionWith (ih k)
      have hunary := agree_unaryWith (ih k)
      exact ⟨RuleAgree.nested (hexpression.le (Nat.le_succ k)), RuleAgree.nested (hunary.le (Nat.le_succ k))⟩

theorem agree_expression : RuleAgree R (Below k) Always expression expression :=
  RuleAgree.of_levels fun n => (agree_deeper n k).expression

theorem agree_operand : RuleAgree R (Below k) Always operand operand :=
  RuleAgree.of_levels fun n => (agree_operandWith (agree_deeper n k)).le (Nat.le_succ k)

theorem agree_element : RuleAgree R (Below k) Always element element :=
  RuleAgree.of_levels fun n => agree_elementWith (agree_deeper n k)

end CalExport.Rule
