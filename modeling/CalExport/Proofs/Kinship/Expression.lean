import CalExport.Proofs.Kinship.Leaf
import CalExport.Expr.Rule

namespace CalExport.Rule

variable {α β : Type} {K : Kinship}

theorem keeps_leftAssoc {operator? : Kind → Option BinaryOp} {operand operand' : Rule Expr}
    {right right' : BinaryOp → Rule Expr} (hoperand : RuleKeeps K (Under (Expr.mapText K.text)) operand operand')
    (hright : ∀ op, RuleKeeps K (Under (Expr.mapText K.text)) (right op) (right' op)) :
    RuleKeeps K (Under (Expr.mapText K.text)) (leftAssoc operator? operand right) (leftAssoc operator? operand' right') := by
  refine hoperand.bind fun first first' hfirst => ?_
  refine keeps_tryLoop (fun e e' he => ?_) hfirst
  refine keeps_peekKind.step_eq fun κ => ?_
  cases operator? κ with
  | none => exact RuleKeeps.pure he
  | some op =>
      refine keeps_advance.step fun _ _ _ => ?_
      refine (hright op).bind fun last last' hlast => ?_
      apply RuleKeeps.pure
      show Under (Expr.mapText K.text) (.join op e last) (.join op e' last')
      simp only [Under, Expr.join, Expr.mapText, he, hlast, Expr.span_eq he, Expr.span_eq hlast]

theorem keeps_commaSeparated {f : α → β} {x y : Rule α} (h : RuleKeeps K (Under f) x y) :
    RuleKeeps K (Under (List.map f)) (commaSeparated x) (commaSeparated y) := by
  refine RuleKeeps.bind (r := Under (Array.map f)) (keeps_tryLoop (fun items items' hitems => ?_) rfl) ?_
  · refine h.bind fun next next' hnext => ?_
    refine (keeps_accept .comma).step_eq fun found => ?_
    split
    · exact RuleKeeps.pure (under_push hitems hnext)
    · exact RuleKeeps.pure (under_push hitems hnext)
  · intro items items' hitems
    exact RuleKeeps.pure (under_toList hitems)

theorem keeps_listUpTo (close : Kind) {f : α → β} {x y : Rule α} (h : RuleKeeps K (Under f) x y) :
    RuleKeeps K (Under (List.map f)) (listUpTo close x) (listUpTo close y) := by
  refine (keeps_check close).step_eq fun found => ?_
  split
  · exact RuleKeeps.pure rfl
  · exact keeps_commaSeparated h

theorem keeps_memberName (expected : String) :
    RuleKeeps K (Under K.text) (memberName expected) (memberName expected) := by
  refine keeps_peek.step fun t t' ht => ?_
  rw [K.kind_eq ht]
  split
  case h_6 => exact RuleKeeps.throw (.expected expected ht)
  all_goals
    refine keeps_advance.step fun u u' hu => ?_
    exact RuleKeeps.pure (K.value_text hu)

theorem keeps_literalOf {t t' : Token} (h : K.akin t t') :
    Keeps K (Under (Option.map (Literal.mapText K.text))) (literalOf? t) (literalOf? t') := by
  unfold literalOf?
  rw [K.kind_eq h]
  split
  · rename_i hkind
    refine (keeps_integerValue h hkind).bind_eq fun value => ?_
    exact Keeps.pure rfl
  · rename_i hkind
    rw [K.number h (.inr hkind)]
    exact Keeps.pure rfl
  · apply Keeps.pure
    simp only [Under, Option.map, Literal.mapText, K.value_text h]
  · apply Keeps.pure
    simp only [Under, Option.map, Literal.mapText, K.text_withoutSuffix 1 (K.text_text h)]
  · apply Keeps.pure
    simp only [Under, Option.map, Literal.mapText, K.text_withoutSuffix 1 (K.text_text h)]
  · apply Keeps.pure
    simp only [Under, Option.map, Literal.mapText, K.text_withoutSuffix 2 (K.text_text h)]
  all_goals exact Keeps.pure rfl

theorem keeps_wordOrLiteral {t t' : Token} (h : K.akin t t') :
    RuleKeeps K (Under (Expr.mapText K.text)) (wordOrLiteral t) (wordOrLiteral t') := by
  unfold wordOrLiteral
  rw [K.kind_eq h]
  split
  · refine keeps_advance.step fun _ _ _ => ?_
    refine (keeps_literalOf h).step fun value value' hvalue => ?_
    cases value with
    | none =>
        cases value' with
        | none => exact RuleKeeps.throw (.expected _ h)
        | some value' => cases hvalue
    | some value =>
        cases value' with
        | none => cases hvalue
        | some value' =>
            apply RuleKeeps.pure
            simp only [Under, Expr.mapText, Option.some.inj hvalue, K.text_text h, K.span_eq h]
  · split
    · split
      · exact RuleKeeps.throw (.expected _ h)
      · refine keeps_advance.step fun _ _ _ => ?_
        apply RuleKeeps.pure
        simp only [Under, Expr.mapText, K.text_text h, K.span_eq h]
    · exact RuleKeeps.throw (.expected _ h)

structure Deeper.Keeps (K : Kinship) (sub sub' : Deeper) : Prop where
  expression : RuleKeeps K (Under (Expr.mapText K.text)) sub.expression sub'.expression
  unary : RuleKeeps K (Under (Expr.mapText K.text)) sub.unary sub'.unary

section

variable {sub sub' : Deeper} (hsub : Deeper.Keeps K sub sub')

include hsub

theorem keeps_rangeEndWith :
    RuleKeeps K (Under (Option.map (Expr.mapText K.text))) (rangeEndWith sub) (rangeEndWith sub') := by
  refine keeps_peekKind.step_eq fun κ => ?_
  split
  · exact hsub.expression.map fun _ _ h => congrArg some h
  · exact RuleKeeps.pure rfl

theorem keeps_elementWith : RuleKeeps K (Under (Expr.mapText K.text)) (elementWith sub) (elementWith sub') := by
  refine keeps_here.step_eq fun start => ?_
  refine (keeps_accept .dotDot).step_eq fun found => ?_
  split
  · refine hsub.expression.bind fun last last' hlast => ?_
    refine (keeps_spanFrom start).step_eq fun span => ?_
    apply RuleKeeps.pure
    simp only [Under, Expr.mapText, Expr.mapBound, hlast]
  · refine hsub.expression.bind fun first first' hfirst => ?_
    refine (keeps_accept .dotDot).step_eq fun found => ?_
    split
    · refine (keeps_rangeEndWith hsub).bind fun last last' hlast => ?_
      refine (keeps_spanFrom start).step_eq fun span => ?_
      apply RuleKeeps.pure
      simp only [Under, Expr.mapText, Expr.mapBound_eq, Option.map_some, hfirst, hlast]
    · exact RuleKeeps.pure hfirst

theorem keeps_setLiteralWith :
    RuleKeeps K (Under (Expr.mapText K.text)) (setLiteralWith sub) (setLiteralWith sub') := by
  refine keeps_here.step_eq fun start => ?_
  refine keeps_expect_then fun _ _ _ _ => ?_
  refine (keeps_listUpTo .rightBracket (keeps_elementWith hsub)).bind fun elements elements' helements => ?_
  refine keeps_expect_then fun _ _ _ _ => ?_
  refine (keeps_spanFrom start).step_eq fun span => ?_
  apply RuleKeeps.pure
  simp only [Under, Expr.mapText, Expr.mapTexts_eq, helements]

theorem keeps_parenthesizedWith :
    RuleKeeps K (Under (Expr.mapText K.text)) (parenthesizedWith sub) (parenthesizedWith sub') := by
  refine keeps_expect_then fun _ _ _ _ => ?_
  refine hsub.expression.bind fun inner inner' hinner => ?_
  refine keeps_expect_then fun _ _ _ _ => ?_
  exact RuleKeeps.pure hinner

theorem keeps_primaryWith : RuleKeeps K (Under (Expr.mapText K.text)) (primaryWith sub) (primaryWith sub') := by
  refine keeps_peek.step fun t t' ht => ?_
  rw [K.kind_eq ht]
  split
  · exact keeps_parenthesizedWith hsub
  · exact keeps_setLiteralWith hsub
  case h_5 => exact keeps_wordOrLiteral ht
  all_goals
    refine keeps_advance.step fun _ _ _ => ?_
    apply RuleKeeps.pure
    simp only [Under, Expr.mapText, K.value_text ht, K.span_eq ht]

theorem keeps_trailerRound (start : Nat) {e e' : Expr} (he : Under (Expr.mapText K.text) e e') :
    RuleKeeps K (Kinship.Round (Under (Expr.mapText K.text))) (trailerRound sub start e) (trailerRound sub' start e') := by
  have hmember : ∀ (expected : String) (qualified : Bool),
      RuleKeeps K (Kinship.Round (Under (Expr.mapText K.text)))
        (memberName expected >>= fun name => liftM (spanFrom start) >>= fun span =>
          pure (.yield (.member e name qualified span)))
        (memberName expected >>= fun name => liftM (spanFrom start) >>= fun span =>
          pure (.yield (.member e' name qualified span))) := by
    intro expected qualified
    refine (keeps_memberName expected).bind fun name name' hname => ?_
    refine (keeps_spanFrom start).step_eq fun span => ?_
    apply RuleKeeps.pure
    simp only [Kinship.Round, Under, Expr.mapText, he, hname]
  refine keeps_peekKind.step_eq fun κ => ?_
  split
  · refine keeps_advance.step fun _ _ _ => ?_
    exact hmember _ false
  · refine keeps_advance.step fun _ _ _ => ?_
    exact hmember _ true
  · refine keeps_advance.step fun _ _ _ => ?_
    refine (keeps_listUpTo .rightParen hsub.expression).bind fun arguments arguments' harguments => ?_
    refine keeps_expect_then fun _ _ _ _ => ?_
    refine (keeps_spanFrom start).step_eq fun span => ?_
    apply RuleKeeps.pure
    simp only [Kinship.Round, Under, Expr.mapText, Expr.mapTexts_eq, he, harguments]
  · refine keeps_advance.step fun _ _ _ => ?_
    refine (keeps_listUpTo .rightBracket hsub.expression).bind fun indices indices' hindices => ?_
    refine keeps_expect_then fun _ _ _ _ => ?_
    refine (keeps_spanFrom start).step_eq fun span => ?_
    apply RuleKeeps.pure
    simp only [Kinship.Round, Under, Expr.mapText, Expr.mapTexts_eq, he, hindices]
  · exact RuleKeeps.pure he

theorem keeps_operandWith : RuleKeeps K (Under (Expr.mapText K.text)) (operandWith sub) (operandWith sub') := by
  refine keeps_here.step_eq fun start => ?_
  refine (keeps_primaryWith hsub).bind fun e e' he => ?_
  exact keeps_tryLoop (fun _ _ h => keeps_trailerRound hsub start h) he

theorem keeps_unaryWith : RuleKeeps K (Under (Expr.mapText K.text)) (unaryWith sub) (unaryWith sub') := by
  refine keeps_peek.step fun t t' ht => ?_
  rw [K.kind_eq ht]
  cases unaryOp? t.kind with
  | none => exact keeps_operandWith hsub
  | some op =>
      refine keeps_advance.step fun _ _ _ => ?_
      refine hsub.unary.bind fun operand operand' hoperand => ?_
      apply RuleKeeps.pure
      simp only [Under, Expr.mapText, hoperand, Expr.span_eq hoperand, K.span_eq ht]

theorem keeps_productWith : RuleKeeps K (Under (Expr.mapText K.text)) (productWith sub) (productWith sub') :=
  keeps_leftAssoc (keeps_unaryWith hsub) fun _ => keeps_unaryWith hsub

theorem keeps_sumWith : RuleKeeps K (Under (Expr.mapText K.text)) (sumWith sub) (sumWith sub') :=
  keeps_leftAssoc (keeps_productWith hsub) fun _ => keeps_productWith hsub

theorem keeps_relationRightWith (op : BinaryOp) :
    RuleKeeps K (Under (Expr.mapText K.text)) (relationRightWith sub op) (relationRightWith sub' op) := by
  refine (keeps_check .leftBracket).step_eq fun found => ?_
  split
  · exact keeps_setLiteralWith hsub
  · exact keeps_sumWith hsub

theorem keeps_relationWith : RuleKeeps K (Under (Expr.mapText K.text)) (relationWith sub) (relationWith sub') :=
  keeps_leftAssoc (keeps_sumWith hsub) (keeps_relationRightWith hsub)

theorem keeps_equalityWith : RuleKeeps K (Under (Expr.mapText K.text)) (equalityWith sub) (equalityWith sub') :=
  keeps_leftAssoc (keeps_relationWith hsub) fun _ => keeps_relationWith hsub

theorem keeps_conjunctionWith :
    RuleKeeps K (Under (Expr.mapText K.text)) (conjunctionWith sub) (conjunctionWith sub') :=
  keeps_leftAssoc (keeps_equalityWith hsub) fun _ => keeps_equalityWith hsub

theorem keeps_disjunctionWith :
    RuleKeeps K (Under (Expr.mapText K.text)) (disjunctionWith sub) (disjunctionWith sub') :=
  keeps_leftAssoc (keeps_conjunctionWith hsub) fun _ => keeps_conjunctionWith hsub

theorem keeps_ternaryWith : RuleKeeps K Eq (ternaryWith sub) (ternaryWith sub') := by
  refine keeps_expect_then fun t t' ht _ => ?_
  rw [K.span_eq ht]
  refine (keeps_report (.refl _)).step_eq fun _ => ?_
  refine (keeps_disjunctionWith hsub).bind fun _ _ _ => ?_
  refine (keeps_accept .colon).step_eq fun found => ?_
  split
  · refine (keeps_disjunctionWith hsub).bind fun _ _ _ => ?_
    exact RuleKeeps.pure rfl
  · exact RuleKeeps.pure rfl

theorem keeps_expressionWith :
    RuleKeeps K (Under (Expr.mapText K.text)) (expressionWith sub) (expressionWith sub') := by
  refine (keeps_disjunctionWith hsub).bind fun condition condition' hcondition => ?_
  refine (keeps_check .questionMark).step_eq fun found => ?_
  split
  · refine (keeps_ternaryWith hsub).bind_eq fun _ => ?_
    exact RuleKeeps.pure hcondition
  · exact RuleKeeps.pure hcondition

end

theorem keeps_deeper (n : Nat) : Deeper.Keeps K (deeper n) (deeper n) := by
  induction n with
  | zero => exact ⟨keeps_tooDeep, keeps_tooDeep⟩
  | succ n ih => exact ⟨keeps_nested (keeps_expressionWith ih), keeps_nested (keeps_unaryWith ih)⟩

theorem keeps_expression : RuleKeeps K (Under (Expr.mapText K.text)) expression expression :=
  keeps_levels fun n => (keeps_deeper n).expression

theorem keeps_operand : RuleKeeps K (Under (Expr.mapText K.text)) operand operand :=
  keeps_levels fun n => keeps_operandWith (keeps_deeper n)

theorem keeps_element : RuleKeeps K (Under (Expr.mapText K.text)) element element :=
  keeps_levels fun n => keeps_elementWith (keeps_deeper n)

end CalExport.Rule
