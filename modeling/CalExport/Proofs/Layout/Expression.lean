import CalExport.Proofs.Expression.Grammar
import CalExport.Proofs.Layout.Basic
import CalExport.Proofs.Simulation.Declaration

namespace CalExport.Rule

open Text

variable {α : Type} {F : Fence} {m : Nat}

theorem lays_semicolon : Lays F m semicolon fun _ _ => True := by
  apply Lays.accept (F.passes rfl)
  · exact fun _ _ => Lays.pure fun _ => trivial
  · apply Lays.peek
    exact (Lays.reported fun _ => .token F.toCursor m).mono fun _ _ _ _ _ => trivial

theorem lays_boundedValue (largest : Nat) {token : Token} (h : F.InOrder → Bounded F.toCursor token.span) :
    Lays F m (boundedValue largest token) fun _ k => k = m := by
  unfold boundedValue
  dsimp only
  split
  · exact Lays.pure fun _ => rfl
  · exact Lays.report h (Lays.pure fun _ => rfl)

theorem lays_integerValue {token : Token} (h : F.InOrder → Bounded F.toCursor token.span) :
    Lays F m (integerValue token) fun _ k => k = m :=
  (lays_boundedValue _ h).bind fun _ _ _ hk => Lays.pure hk

theorem lays_integer : RuleLays F m integer fun _ k => m < k := by
  have hvalue : ∀ negative j, m ≤ j → RuleLays F j (expect .integer >>= fun token => do
      let value ← integerValue token
      return if negative = true then -value else value) fun _ k => m < k := by
    intro negative j hj
    apply RuleLays.expect (F.passes rfl)
    intro _ _
    apply RuleLays.step (lays_integerValue fun _ => .token F.toCursor j)
    intro value k hk _
    exact RuleLays.pure fun _ => by omega
  apply RuleLays.accept (F.passes rfl)
  · exact fun _ _ => hvalue true (m + 1) (Nat.le_succ m)
  · exact hvalue false m (Nat.le_refl m)

theorem lays_size : RuleLays F m size fun _ k => m < k := by
  apply RuleLays.expect (F.passes rfl)
  intro _ _
  exact RuleLays.lift ((lays_boundedValue _ fun _ => .token F.toCursor m).mono fun _ k hk _ _ => hk)

theorem lays_autoNumber : RuleLays F m autoNumber fun _ _ => True := by
  apply RuleLays.accept (F.passes rfl)
  · exact fun _ _ => lays_integer.bind fun _ _ _ _ => RuleLays.pure fun _ => trivial
  · exact RuleLays.pure fun _ => trivial

theorem lays_declaredName (role : String) : RuleLays F m (declaredName role) fun _ k => m < k := by
  apply RuleLays.peek
  split
  · rename_i hname
    apply RuleLays.advance (F.lets_of_test hname (forall_fences rfl rfl rfl rfl rfl))
    intro _
    exact lays_autoNumber.bind fun _ k hk _ => RuleLays.pure fun _ => hk
  · split
    · exact RuleLays.throw fun _ => .token F.toCursor m
    · exact RuleLays.expected role

/-- Any operator that does not stand at a fence. -/
theorem lets_of_operator {operator? : Kind → Option α} (h : ∀ κ, fences κ = true → operator? κ = none) {op : α}
    (hop : operator? (F.tokenAt m).kind = some op) : F.Lets m := by
  apply F.lets_of_kind
  cases hf : fences (F.tokenAt m).kind with
  | false => rfl
  | true => rw [h _ hf] at hop; cases hop

theorem Solid.join {c : Cursor} (hc : c.InOrder) {lo mid hi : Nat} {left right : Expr} (op : BinaryOp)
    (hl : Solid c lo mid left.outline) (hr : Solid c mid hi right.outline) :
    Solid c lo hi (Expr.join op left right).outline := by
  have h := hl.merge hc hr
  rw [Expr.span_outline, Expr.span_outline] at h
  exact h

section

variable {operator? : Kind → Option BinaryOp} {operand : Rule Expr} {right : BinaryOp → Rule Expr}

theorem lays_leftAssocRound (hfence : ∀ κ, fences κ = true → operator? κ = none)
    (hright : ∀ op, Builds F Expr.outline (right op)) {k : Nat} {left : Expr}
    (hleft : F.InOrder → Solid F.toCursor m k left.outline) :
    RuleLays F k (leftAssocRound operator? right left) fun r j => Solid F.toCursor m j (payload r).outline := by
  apply RuleLays.peekKind
  cases hop : operator? (F.tokenAt k).kind with
  | none => exact RuleLays.pure hleft
  | some op =>
      apply RuleLays.advance (lets_of_operator hfence hop)
      intro _
      apply RuleLays.bind (hright op (k + 1))
      intro e j hj he
      exact RuleLays.pure fun hc =>
        Solid.join hc op (hleft hc) ((he hc).mono (Nat.le_succ k) (Nat.le_refl j))

theorem builds_leftAssoc (hfence : ∀ κ, fences κ = true → operator? κ = none)
    (hoperand : Builds F Expr.outline operand)
    (hright : ∀ op, Builds F Expr.outline (right op)) : Builds F Expr.outline (leftAssoc operator? operand right) := by
  intro m
  apply RuleLays.bind (hoperand m)
  intro left k hk hleft
  have hloop := RuleLays.tryLoop (I := fun (e : Expr) j => Solid F.toCursor m j e.outline) hleft
    fun e j _ he => lays_leftAssocRound hfence hright he
  exact hloop

end

/-- Items between commas, when each of them has tokens of its own. -/
theorem builds_commaSeparated {item : Rule α} {outline : α → Outline} (h : Builds F outline item) :
    BuildsRow F outline (commaSeparated item) := by
  intro m
  apply RuleLays.bind (R := fun items k => Row F.toCursor m k (items.toList.map outline))
  · apply RuleLays.tryLoop fun _ => .nil
    intro items k hk hitems
    apply RuleLays.bind (h k)
    intro a j hj ha
    have hrow : F.InOrder → Row F.toCursor m j ((items.push a).toList.map outline) := by
      intro hc
      rw [Array.toList_push, List.map_append]
      exact (hitems hc).append (ha hc).row hk hj
    apply RuleLays.accept (F.passes rfl)
    · exact fun _ _ => RuleLays.pure fun hc => (hrow hc).mono (Nat.le_refl m) (Nat.le_succ j)
    · exact RuleLays.pure hrow
  · exact fun items k _ hitems => RuleLays.pure hitems

theorem builds_listUpTo (close : Kind) {item : Rule α} {outline : α → Outline} (h : Builds F outline item) :
    BuildsRow F outline (listUpTo close item) := by
  intro m
  apply RuleLays.check
  intro found
  split
  · exact RuleLays.pure fun _ => .nil
  · exact builds_commaSeparated h m

/-- The name of a member stands behind `.` or `::`, where any keyword is passed. -/
theorem lays_memberName (expected : String) (h : leadsOn (F.tokenAt m) = true) :
    RuleLays F (m + 1) (memberName expected) fun _ k => k = m + 2 ∧ namesMember (F.tokenAt (m + 1)).kind = true := by
  apply RuleLays.peek
  split
  case h_3 k hk =>
    apply RuleLays.advance (F.lets_of_leadsOn h (by rw [hk]; nofun))
    exact fun _ => RuleLays.pure fun _ => ⟨rfl, by rw [hk]; rfl⟩
  case h_6 => exact RuleLays.expected expected
  all_goals
    rename_i hkind
    apply RuleLays.advance (F.lets_of_kind (by rw [hkind]; rfl))
    exact fun _ => RuleLays.pure fun _ => ⟨rfl, by rw [hkind]; rfl⟩

theorem lays_literalOf {token : Token} (h : F.InOrder → Bounded F.toCursor token.span) :
    Lays F m (literalOf? token) fun _ k => k = m := by
  unfold literalOf?
  split
  case h_1 => exact (lays_integerValue h).bind fun _ _ _ hk => Lays.pure hk
  all_goals exact Lays.pure fun _ => rfl

theorem lays_wordOrLiteral :
    RuleLays F m (wordOrLiteral (F.tokenAt m)) fun e k => Solid F.toCursor m k e.outline := by
  have htoken : m < F.limit → Solid F.toCursor m (m + 1) (.node (F.tokenAt m).span []) :=
    fun hlt => Solid.token (Nat.lt_of_lt_of_le hlt F.limit_le)
  unfold wordOrLiteral
  split
  · rename_i hliteral
    apply RuleLays.advance (F.lets_of_test hliteral (forall_fences rfl rfl rfl rfl rfl))
    intro hlt
    apply RuleLays.step (lays_literalOf fun _ => .token F.toCursor m)
    intro value k hk _
    cases value with
    | none => exact RuleLays.throw fun _ => .expected F.toCursor _ m
    | some value => exact RuleLays.pure fun _ => (htoken hlt).mono (Nat.le_refl m) hk
  · split
    · rename_i k hk
      split
      · exact RuleLays.expected _
      · rename_i hends
        apply RuleLays.advance
        · apply F.lets_of_test (c := fun κ => κ.keyword?.any fun k => !endsExpression k)
          · simpa [hk, Kind.keyword?] using hends
          · exact forall_fences rfl rfl rfl rfl rfl
        · exact fun hlt => RuleLays.pure fun _ => htoken hlt
    · exact RuleLays.expected _

structure Deeper.Builds (F : Fence) (sub : Deeper) : Prop where
  expression : Rule.Builds F Expr.outline sub.expression
  unary : Rule.Builds F Expr.outline sub.unary

section

variable {sub : Deeper} (hsub : sub.Builds F)

include hsub

theorem lays_rangeEndWith :
    RuleLays F m (rangeEndWith sub) fun last k => Row F.toCursor m k (last.toList.map Expr.outline) := by
  apply RuleLays.peekKind
  split
  · exact (hsub.expression m).map fun e k _ _ he => he.row
  · exact RuleLays.pure fun _ => .nil

theorem builds_elementWith : Builds F Expr.outline (elementWith sub) := by
  intro m
  apply RuleLays.here
  apply RuleLays.accept (F.passes rfl)
  · intro _ _
    apply RuleLays.bind (hsub.expression (m + 1))
    intro last k hk hlast
    apply RuleLays.spanFrom
    intro hsize span hspan
    refine RuleLays.pure fun hc => Solid.node hk hsize (hspan hc) ?_
    have hrow := (hlast hc).row.mono (Nat.le_succ m) (Nat.le_refl k)
    simp [Row.nil, hrow]
  · apply RuleLays.bind (hsub.expression m)
    intro first k hk hfirst
    apply RuleLays.accept (F.passes rfl)
    · intro _ _
      apply RuleLays.bind (lays_rangeEndWith hsub)
      intro last j hj hlast
      apply RuleLays.spanFrom
      intro hsize span hspan
      refine RuleLays.pure fun hc => Solid.node (by omega) hsize (hspan hc) ?_
      have hleft := (hfirst hc).row.mono (Nat.le_refl m) (show k ≤ j by omega)
      have hright := (hlast hc).mono (show m ≤ k + 1 by omega) (Nat.le_refl j)
      simp [hleft, hright]
    · exact RuleLays.pure hfirst

theorem builds_setLiteralWith : Builds F Expr.outline (setLiteralWith sub) := by
  intro m
  apply RuleLays.here
  apply RuleLays.expect (F.passes rfl)
  intro _ _
  apply RuleLays.bind (builds_listUpTo _ (builds_elementWith hsub) (m + 1))
  intro elements k hk helements
  apply RuleLays.expect (F.passes rfl)
  intro _ _
  apply RuleLays.spanFrom
  intro hsize span hspan
  refine RuleLays.pure fun hc => Solid.node (by omega) hsize (hspan hc) ?_
  have hrow := (helements hc).mono (Nat.le_succ m) (Nat.le_succ k)
  simp [hrow]

theorem builds_parenthesizedWith : Builds F Expr.outline (parenthesizedWith sub) := by
  intro m
  apply RuleLays.expect (F.passes rfl)
  intro _ _
  apply RuleLays.bind (hsub.expression (m + 1))
  intro inner k _ hinner
  apply RuleLays.expect (F.passes rfl)
  intro _ _
  exact RuleLays.pure fun hc => (hinner hc).mono (Nat.le_succ m) (Nat.le_succ k)

theorem builds_primaryWith : Builds F Expr.outline (primaryWith sub) := by
  intro m
  apply RuleLays.peek
  split
  · exact builds_parenthesizedWith hsub m
  · exact builds_setLiteralWith hsub m
  · rename_i hkind
    apply RuleLays.advance (F.lets_of_kind (by rw [hkind]; rfl))
    exact fun hlt => RuleLays.pure fun _ => Solid.token (Nat.lt_of_lt_of_le hlt F.limit_le)
  · rename_i hkind
    apply RuleLays.advance (F.lets_of_kind (by rw [hkind]; rfl))
    exact fun hlt => RuleLays.pure fun _ => Solid.token (Nat.lt_of_lt_of_le hlt F.limit_le)
  · exact lays_wordOrLiteral

/-- Behind a trailer that was read with the operand it belongs to. -/
theorem lays_trailerRound {k : Nat} {e : Expr} (hk : m ≤ k) (he : F.InOrder → Solid F.toCursor m k e.outline) :
    RuleLays F k (trailerRound sub m e) fun r j => Solid F.toCursor m j (payload r).outline := by
  have hmember : ∀ (expected : String) (qualified : Bool), fences (F.tokenAt k).kind = false →
      leadsOn (F.tokenAt k) = true → RuleLays F k (do
        let _ ← advance
        let name ← memberName expected
        return ForInStep.yield (Expr.member e name qualified (← spanFrom m)))
        fun r j => Solid F.toCursor m j (payload r).outline := by
    intro expected qualified hkind hlead
    apply RuleLays.advance (F.lets_of_kind hkind)
    intro _
    apply RuleLays.bind (lays_memberName expected hlead)
    intro name j hj _
    apply RuleLays.spanFrom
    intro hsize span hspan
    refine RuleLays.pure fun hc => Solid.node (by omega) hsize (hspan hc) ?_
    have hrow := (he hc).row.mono (Nat.le_refl m) (show k ≤ j by omega)
    simp [hrow]
  have hlist : ∀ (close : Kind) (node : Expr → List Expr → Span → Expr), fences close = false →
      (∀ items span, (node e items span).outline = .node span [[e.outline], items.map Expr.outline]) →
      fences (F.tokenAt k).kind = false →
      RuleLays F k (do
        let _ ← advance
        let items ← listUpTo close sub.expression
        let _ ← expect close
        return ForInStep.yield (node e items (← spanFrom m)))
        fun r j => Solid F.toCursor m j (payload r).outline := by
    intro close node hclose hnode hkind
    apply RuleLays.advance (F.lets_of_kind hkind)
    intro _
    apply RuleLays.bind (builds_listUpTo close hsub.expression (k + 1))
    intro items j hj hitems
    apply RuleLays.expect (F.passes hclose)
    intro _ _
    apply RuleLays.spanFrom
    intro hsize span hspan
    refine RuleLays.pure fun hc => ?_
    show Solid _ _ _ (node e items span).outline
    rw [hnode]
    apply Solid.node (by omega) hsize (hspan hc)
    have hleft := (he hc).row.mono (Nat.le_refl m) (show k ≤ j + 1 by omega)
    have hright := (hitems hc).mono (show m ≤ k + 1 by omega) (Nat.le_succ j)
    simp [hleft, hright]
  apply RuleLays.peekKind
  split
  · rename_i hkind
    exact hmember _ false (by rw [hkind]; rfl) (by rw [leadsOn, hkind])
  · rename_i hkind
    exact hmember _ true (by rw [hkind]; rfl) (by rw [leadsOn, hkind])
  · rename_i hkind
    exact hlist .rightParen Expr.call rfl (fun _ _ => by simp [Expr.outline]) (by rw [hkind]; rfl)
  · rename_i hkind
    exact hlist .rightBracket Expr.index rfl (fun _ _ => by simp [Expr.outline]) (by rw [hkind]; rfl)
  · exact RuleLays.pure he

theorem builds_operandWith : Builds F Expr.outline (operandWith sub) := by
  intro m
  apply RuleLays.here
  apply RuleLays.bind (builds_primaryWith hsub m)
  intro e k hk he
  have hloop := RuleLays.tryLoop (I := fun (e : Expr) j => Solid F.toCursor m j e.outline) he
    fun e j hj he => lays_trailerRound hsub (Nat.le_trans hk hj) he
  exact hloop

theorem builds_unaryWith : Builds F Expr.outline (unaryWith sub) := by
  intro m
  apply RuleLays.peek
  cases hop : unaryOp? (F.tokenAt m).kind with
  | none => exact builds_operandWith hsub m
  | some op =>
      apply RuleLays.advance (lets_of_operator (forall_fences rfl rfl rfl rfl rfl) hop)
      intro _
      apply RuleLays.bind (hsub.unary (m + 1))
      intro operand k _ hoperand
      refine RuleLays.pure fun hc => ?_
      have h := (hoperand hc).prefixed hc
      rw [Expr.span_outline] at h
      exact h

theorem builds_productWith : Builds F Expr.outline (productWith sub) :=
  builds_leftAssoc (forall_fences rfl rfl rfl rfl rfl) (builds_unaryWith hsub) fun _ => builds_unaryWith hsub

theorem builds_sumWith : Builds F Expr.outline (sumWith sub) :=
  builds_leftAssoc (forall_fences rfl rfl rfl rfl rfl) (builds_productWith hsub) fun _ => builds_productWith hsub

theorem builds_relationRightWith (op : BinaryOp) : Builds F Expr.outline (relationRightWith sub op) := by
  intro m
  apply RuleLays.check
  intro found
  split
  · exact builds_setLiteralWith hsub m
  · exact builds_sumWith hsub m

theorem builds_relationWith : Builds F Expr.outline (relationWith sub) :=
  builds_leftAssoc (forall_fences rfl rfl rfl rfl rfl) (builds_sumWith hsub) (builds_relationRightWith hsub)

theorem builds_equalityWith : Builds F Expr.outline (equalityWith sub) :=
  builds_leftAssoc (forall_fences rfl rfl rfl rfl rfl) (builds_relationWith hsub) fun _ => builds_relationWith hsub

theorem builds_conjunctionWith : Builds F Expr.outline (conjunctionWith sub) :=
  builds_leftAssoc (forall_fences rfl rfl rfl rfl rfl) (builds_equalityWith hsub) fun _ => builds_equalityWith hsub

theorem builds_disjunctionWith : Builds F Expr.outline (disjunctionWith sub) :=
  builds_leftAssoc (forall_fences rfl rfl rfl rfl rfl) (builds_conjunctionWith hsub) fun _ =>
    builds_conjunctionWith hsub

theorem lays_ternaryWith : RuleLays F m (ternaryWith sub) fun _ _ => True := by
  apply RuleLays.expect (F.passes rfl)
  intro _ _
  apply RuleLays.report fun _ => .token F.toCursor m
  apply RuleLays.bind (builds_disjunctionWith hsub _)
  intro _ k _ _
  apply RuleLays.accept (F.passes rfl)
  · intro _ _
    apply RuleLays.bind (builds_disjunctionWith hsub _)
    exact fun _ _ _ _ => RuleLays.pure fun _ => trivial
  · exact RuleLays.pure fun _ => trivial

/-- Of `condition ? a : b` the condition is kept, in the place where it stands. -/
theorem builds_expressionWith : Builds F Expr.outline (expressionWith sub) := by
  intro m
  apply RuleLays.bind (builds_disjunctionWith hsub m)
  intro condition k hk hcondition
  apply RuleLays.check
  intro found
  split
  · apply RuleLays.bind (lays_ternaryWith hsub)
    intro _ j hj _
    exact RuleLays.pure fun hc => (hcondition hc).mono (Nat.le_refl m) hj
  · exact RuleLays.pure hcondition

end

theorem builds_deeper (n : Nat) : (deeper n).Builds F := by
  induction n with
  | zero => exact ⟨fun _ => RuleLays.tooDeep, fun _ => RuleLays.tooDeep⟩
  | succ n ih =>
      exact ⟨fun m => RuleLays.nested (builds_expressionWith ih m), fun m => RuleLays.nested (builds_unaryWith ih m)⟩

theorem builds_expression : Builds F Expr.outline expression :=
  fun m => RuleLays.of_levels fun n => (builds_deeper n).expression m

theorem builds_operand : Builds F Expr.outline operand :=
  fun m => RuleLays.of_levels fun n => builds_operandWith (builds_deeper n) m

theorem builds_element : Builds F Expr.outline element :=
  fun m => RuleLays.of_levels fun n => builds_elementWith (builds_deeper n) m

theorem lays_simpleType (h : F.Lets m) : RuleLays F m simpleType fun t k => Solid F.toCursor m k t.outline := by
  apply RuleLays.here
  apply RuleLays.advance h
  intro _
  dsimp only
  apply RuleLays.accept (F.passes rfl)
  · intro _ _
    apply RuleLays.bind lays_size
    intro length k hk _
    apply RuleLays.expect (F.passes rfl)
    intro _ _
    apply RuleLays.spanFrom
    intro hsize span hspan
    exact RuleLays.pure fun hc => Solid.node (by omega) hsize (hspan hc) (List.forall_mem_nil _)
  · apply RuleLays.spanFrom
    intro hsize span hspan
    exact RuleLays.pure fun hc => Solid.node (by omega) hsize (hspan hc) (List.forall_mem_nil _)

theorem lays_referenceType (target : Keyword) (h : F.Lets m) :
    RuleLays F m (referenceType target) fun t k => Solid F.toCursor m k t.outline := by
  have hnumber : RuleLays F (m + 1) objectNumber fun _ _ => True := by
    apply RuleLays.check
    intro found
    split
    · exact lays_integer.map fun _ _ _ _ _ => trivial
    · exact RuleLays.pure fun _ => trivial
  apply RuleLays.here
  apply RuleLays.advance h
  intro _
  apply RuleLays.bind hnumber
  intro id k hk _
  apply RuleLays.spanFrom
  intro hsize span hspan
  exact RuleLays.pure fun hc => Solid.node (by omega) hsize (hspan hc) (List.forall_mem_nil _)

theorem lays_skipTexts : Lays F m skipTexts fun _ _ => True := by
  apply Lays.loop (I := fun _ _ => True) fun _ => trivial
  intro _ k _ _
  apply Lays.accept (F.passes rfl)
  · intro _ _
    exact (Lays.accepted (F.passes rfl)).bind fun _ _ _ _ => Lays.pure fun _ => trivial
  · exact Lays.pure fun _ => trivial

theorem lays_textConstType : RuleLays F m textConstType fun t k => Solid F.toCursor m k t.outline := by
  apply RuleLays.here
  apply RuleLays.expect (F.passes rfl)
  intro _ _
  apply RuleLays.step lays_skipTexts
  intro _ k hk _
  apply RuleLays.spanFrom
  intro hsize span hspan
  exact RuleLays.pure fun hc => Solid.node (by omega) hsize (hspan hc) (List.forall_mem_nil _)

theorem lays_descriptor (typeName : String) (read : String → Except DescriptorError α) :
    Lays F m (descriptor typeName read) fun _ _ => True := by
  apply Lays.peek
  split
  case h_3 => exact Lays.report (fun _ => .token F.toCursor m) (Lays.pure fun _ => trivial)
  all_goals
    rename_i hkind
    apply Lays.advance (F.lets_of_kind (by rw [hkind]; rfl))
    intro _
    split
    · exact Lays.pure fun _ => trivial
    · exact Lays.report (fun _ => .token F.toCursor m) (Lays.pure fun _ => trivial)

theorem lays_described {word : Keyword} (hword : fences (.keyword word) = false) (typeName : String)
    (read : String → Except DescriptorError α) {make : Option α → Span → DataType}
    (hmake : ∀ info span, (make info span).outline = .node span []) :
    RuleLays F m (described word typeName read make) fun t k => Solid F.toCursor m k t.outline := by
  apply RuleLays.here
  apply RuleLays.expect (F.passes hword)
  intro _ _
  apply RuleLays.step (lays_descriptor _ _)
  intro info k hk _
  apply RuleLays.spanFrom
  intro hsize span hspan
  apply RuleLays.pure
  intro hc
  rw [hmake]
  exact Solid.node (by omega) hsize (hspan hc) (List.forall_mem_nil _)

theorem lays_dotNetType : RuleLays F m dotNetType fun t k => Solid F.toCursor m k t.outline :=
  lays_described rfl "DotNet" DotNetInfo.ofString fun _ _ => rfl

theorem lays_automationType : RuleLays F m automationType fun t k => Solid F.toCursor m k t.outline :=
  lays_described rfl "Automation" AutomationInfo.ofString fun _ _ => rfl

theorem lays_dimensions : RuleLays F m dimensions fun _ k => m < k := by
  apply RuleLays.expect (F.passes rfl)
  intro _ _
  apply RuleLays.bind lays_size
  intro first k hk _
  apply RuleLays.bind (R := fun _ _ => True)
  · apply RuleLays.tryLoop (I := fun _ _ => True) fun _ => trivial
    intro found j _ _
    apply RuleLays.accept (F.passes rfl)
    · exact fun _ _ => lays_size.bind fun _ _ _ _ => RuleLays.pure fun _ => trivial
    · exact RuleLays.pure fun _ => trivial
  · intro found j hj _
    apply RuleLays.expect (F.passes rfl)
    intro _ hlt
    have hsize := F.limit_le
    split
    · apply RuleLays.report
      · intro hc
        exact ⟨m, j, by omega, hc.merge_over (Nat.le_refl m) (show m < j by omega) (Nat.le_refl j) (by omega)⟩
      · exact RuleLays.pure fun _ => by omega
    · exact RuleLays.pure fun _ => by omega

theorem lays_arrayType {element : Rule DataType} (h : Builds F DataType.outline element) :
    RuleLays F m (arrayType element) fun t k => Solid F.toCursor m k t.outline := by
  apply RuleLays.here
  apply RuleLays.expect (F.passes rfl)
  intro _ _
  apply RuleLays.bind lays_dimensions
  intro found k hk _
  apply RuleLays.expect (F.passes rfl)
  intro _ _
  apply RuleLays.step (Lays.accepted (F.passes rfl))
  intro temporary j hj _
  apply RuleLays.bind (h j)
  intro type i hi htype
  apply RuleLays.spanFrom
  intro hsize span hspan
  refine RuleLays.pure fun hc => Solid.node (by omega) hsize (hspan hc) ?_
  have hrow := (htype hc).row.mono (show m ≤ j by omega) (Nat.le_refl i)
  simp [hrow]

theorem builds_dataTypeWith {element : Rule DataType} (h : Builds F DataType.outline element) :
    Builds F DataType.outline (dataTypeWith element) := by
  intro m
  apply RuleLays.peek
  split
  · exact lays_arrayType h
  · exact lays_textConstType
  · exact lays_dotNetType
  · exact lays_automationType
  · rename_i hkind
    apply RuleLays.advance (F.lets_of_kind (by rw [hkind]; rfl))
    exact fun hlt => RuleLays.pure fun _ => Solid.token (Nat.lt_of_lt_of_le hlt F.limit_le)
  · rename_i hkind
    exact lays_simpleType (F.lets_of_kind (by rw [hkind]; rfl))
  · rename_i hkind
    exact lays_simpleType (F.lets_of_kind (by rw [hkind]; rfl))
  · rename_i k _ _ _ _ _ hkind
    split
    · rename_i hreference
      apply lays_referenceType
      apply F.lets_of_test (c := fun κ => κ.keyword?.any fun k => k.isObjectReference || k == .form)
      · simpa [hkind, Kind.keyword?] using hreference
      · exact forall_fences rfl rfl rfl rfl rfl
    · exact RuleLays.expected _
  · exact RuleLays.expected _

theorem builds_elementType (n : Nat) : Builds F DataType.outline (elementType n) := by
  induction n with
  | zero => exact fun m => RuleLays.tooDeep
  | succ n ih => exact fun m => RuleLays.nested (builds_dataTypeWith ih m)

theorem builds_dataType : Builds F DataType.outline dataType :=
  fun m => RuleLays.of_levels fun n => builds_dataTypeWith (builds_elementType n) m

end CalExport.Rule
