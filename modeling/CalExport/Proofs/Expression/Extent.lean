import CalExport.Proofs.Expression.Reading
import CalExport.Proofs.Layout.Expression
import CalExport.Proofs.SyntaxTree

namespace CalExport

open Text

def Expr.isOperation : Expr → Bool
  | .binary .. | .unary .. => true
  | _ => false

variable {c : Cursor} {i j k : Nat} {front back : Bool} {e : Expr} {n : SyntaxNode}

/-- Every parenthesis among the tokens from `i` up to `j` belongs to another one among them. -/
inductive Paired (c : Cursor) : Nat → Nat → Prop
  | nil (i : Nat) : Paired c i i
  | other {i j : Nat} : (c.tokenAt i).kind ≠ .leftParen → (c.tokenAt i).kind ≠ .rightParen →
      Paired c (i + 1) j → Paired c i j
  | pair {i k j : Nat} : (c.tokenAt i).kind = .leftParen → Paired c (i + 1) k →
      (c.tokenAt k).kind = .rightParen → Paired c (k + 1) j → Paired c i j

def isParenthesis : Kind → Bool
  | .leftParen | .rightParen => true
  | _ => false

theorem BinaryOp.not_isParenthesis (op : BinaryOp) : isParenthesis op.kind = false := by
  cases op <;> rfl

theorem UnaryOp.not_isParenthesis (op : UnaryOp) : isParenthesis op.kind = false := by
  cases op <;> rfl

namespace Paired

theorem append (h : Paired c i j) (g : Paired c j k) : Paired c i k := by
  induction h with
  | nil i => exact g
  | other hopen hclose _ ih => exact .other hopen hclose (ih g)
  | pair hopen hinner hclose _ _ ih => exact .pair hopen hinner hclose (ih g)

/-- In front of them a token that is no parenthesis. -/
theorem cons (hkind : isParenthesis (c.tokenAt i).kind = false) (h : Paired c (i + 1) j) : Paired c i j := by
  refine .other ?_ ?_ h
  · intro hopen
    rw [hopen] at hkind
    cases hkind
  · intro hclose
    rw [hclose] at hkind
    cases hkind

theorem token (hkind : isParenthesis (c.tokenAt i).kind = false) : Paired c i (i + 1) := .cons hkind (.nil _)

theorem group (hopen : (c.tokenAt i).kind = .leftParen) (h : Paired c (i + 1) k)
    (hclose : (c.tokenAt k).kind = .rightParen) : Paired c i (k + 1) := .pair hopen h hclose (.nil _)

end Paired

/-- The tokens from `i` up to `j` were read as the operands and operators of an expression. The flags tell whether its
span reaches the first token and the last one. -/
inductive Expr.ReadFrom (c : Cursor) : Nat → Nat → Bool → Bool → Expr → Prop
  /-- A name, a literal, a set, or an operand with trailers, the parentheses around it included. -/
  | operand {i j : Nat} {e : Expr} : e.isOperation = false → i < j → j ≤ c.tokens.size → e.span = c.over i (j - 1) →
      Paired c i j → ReadFrom c i j true true e
  /-- Parentheses, where a condition may have branches behind it that are not kept. -/
  | group {i k j : Nat} {front back : Bool} {e : Expr} : (c.tokenAt i).kind = .leftParen →
      ReadFrom c (i + 1) k front back e → k ≤ j → (k < j → (c.tokenAt k).kind = .questionMark) → Paired c k j →
      (c.tokenAt j).kind = .rightParen → ReadFrom c i (j + 1) false false e
  | unary {i j : Nat} {front back : Bool} {op : UnaryOp} {e : Expr} : (c.tokenAt i).kind = op.kind →
      ReadFrom c (i + 1) j front back e → ReadFrom c i j true back (.unary op e ((c.tokenAt i).span.merge e.span))
  | binary {i k j : Nat} {front back front' back' : Bool} {op : BinaryOp} {left right : Expr} :
      ReadFrom c i k front back' left → (c.tokenAt k).kind = op.kind → ReadFrom c (k + 1) j front' back right →
      ReadFrom c i j front back (.join op left right)

namespace Expr.ReadFrom

theorem lt (h : ReadFrom c i j front back e) : i < j := by
  induction h with
  | operand _ hlt _ _ _ => exact hlt
  | group _ _ hle _ _ _ ih => omega
  | unary _ _ ih => omega
  | binary _ _ _ ihleft ihright => omega

theorem le_size (h : ReadFrom c i j front back e) : j ≤ c.tokens.size := by
  induction h with
  | operand _ _ hsize _ _ => exact hsize
  | @group i k j _ _ _ _ _ _ _ _ hclose ih =>
      apply Nat.lt_of_not_le
      intro hle
      rw [Cursor.tokenAt, Array.getElem?_eq_none hle, Option.getD_none, c.kind_eof] at hclose
      cases hclose
  | unary _ _ ih => exact ih
  | binary _ _ _ _ ihright => exact ihright

theorem paired (h : ReadFrom c i j front back e) : Paired c i j := by
  induction h with
  | operand _ _ _ _ hpaired => exact hpaired
  | group hopen _ _ _ hrest hclose ih => exact .group hopen (ih.append hrest) hclose
  | @unary _ _ _ _ op _ hop _ ih => exact .cons (hop ▸ op.not_isParenthesis) ih
  | @binary _ _ _ _ _ _ _ op _ _ _ hop _ ihleft ihright =>
      exact ihleft.append (.cons (hop ▸ op.not_isParenthesis) ihright)

/-- The span goes from one of the tokens to another, and leaves out some at an end just where the flags say so. -/
theorem span_eq (hc : c.InOrder) (h : ReadFrom c i j front back e) :
    ∃ a b, i ≤ a ∧ a ≤ b ∧ b < j ∧ e.span = c.over a b ∧ (front = true ↔ a = i) ∧ (back = true ↔ b + 1 = j) := by
  induction h with
  | @operand i j _ _ hlt _ hspan _ =>
      exact ⟨i, j - 1, Nat.le_refl i, by omega, by omega, hspan, by simp, by simp; omega⟩
  | group _ _ hle _ _ _ ih =>
      obtain ⟨a, b, ha, hab, hb, hspan, -, -⟩ := ih
      exact ⟨a, b, by omega, hab, by omega, hspan, by simp; omega, by simp; omega⟩
  | @unary i j _ _ _ _ _ hread ih =>
      obtain ⟨a, b, ha, hab, hb, hspan, -, hback⟩ := ih
      have hsize := hread.le_size
      refine ⟨i, b, Nat.le_refl i, by omega, hb, ?_, by simp, hback⟩
      show (c.tokenAt i).span.merge _ = _
      rw [hspan]
      exact hc.merge_over (Nat.le_refl i) (by omega) hab (by omega)
  | @binary i k j _ _ _ _ _ _ _ hleft _ hright ihleft ihright =>
      obtain ⟨a, b, ha, hab, hb, hspan, hfront, -⟩ := ihleft
      obtain ⟨a', b', ha', hab', hb', hspan', -, hback⟩ := ihright
      have hsize := hright.le_size
      refine ⟨a, b', ha, by omega, hb', ?_, hfront, hback⟩
      show Span.merge _ _ = _
      rw [hspan, hspan']
      exact hc.merge_over hab (by omega) hab' (by omega)

end Expr.ReadFrom

def SyntaxNode.Traced (c : Cursor) (n : SyntaxNode) : Prop :=
  ∀ e : Expr, n.Reaches (.expr e) → e.isOperation = true → ∃ i j front back, e.ReadFrom c i j front back

/-- An expression whose parts are traced, when it was read from some tokens itself or is no operation. -/
theorem SyntaxNode.Traced.of_parts (hself : e.isOperation = true → ∃ i j front back, e.ReadFrom c i j front back)
    (hparts : ∀ x ∈ e.spine ++ e.branches, (SyntaxNode.expr x).Traced c) : (SyntaxNode.expr e).Traced c := by
  intro e' hreaches hoperation
  cases hreaches with
  | self => exact hself hoperation
  | inside hchild hreaches =>
      obtain ⟨x, hx, rfl⟩ : ∃ x ∈ e.spine ++ e.branches, SyntaxNode.expr x = _ := by
        simpa [children, spine, branches, or_and_right, exists_or] using hchild
      exact hparts x hx e' hreaches hoperation

/-- A node that is no expression. -/
theorem SyntaxNode.Traced.of_children (hself : ∀ e, n ≠ .expr e) (hchildren : ∀ child ∈ n.children, child.Traced c) :
    n.Traced c := by
  intro e hreaches hoperation
  cases hreaches with
  | self => exact absurd rfl (hself e)
  | inside hchild hreaches => exact hchildren _ hchild e hreaches hoperation

theorem SyntaxNode.Traced.statement {s : Statement} (h : ∀ child ∈ s.nodes, child.Traced c) :
    (SyntaxNode.statement s).Traced c := by
  apply of_children
  · rintro _ ⟨⟩
  · exact h

theorem SyntaxNode.Traced.dataType {t : DataType} (h : ∀ child ∈ (SyntaxNode.dataType t).branches, child.Traced c) :
    (SyntaxNode.dataType t).Traced c := by
  apply of_children
  · rintro _ ⟨⟩
  · exact h

/-- The value of a compound assignment is not written as an operation, its operands are. -/
theorem SyntaxNode.Traced.compound {op : BinaryOp} {left right : Expr} (hl : (SyntaxNode.expr left).Traced c)
    (hr : (SyntaxNode.expr right).Traced c) : (SyntaxNode.compound (.join op left right)).Traced c := by
  apply of_children
  · rintro _ ⟨⟩
  · intro child hchild
    rcases List.mem_cons.1 hchild with rfl | hchild
    · exact hl
    · obtain rfl := List.mem_singleton.1 hchild
      exact hr

theorem SyntaxNode.Traced.placeholder (span : Span) : (SyntaxNode.expr (.placeholder span)).Traced c := by
  apply of_parts
  · rintro ⟨⟩
  · exact List.forall_mem_nil _

namespace Rule

variable {α : Type} {F : Fence} {m : Nat}

structure Whole (c : Cursor) (m : Nat) (e : Expr) (k : Nat) : Prop where
  read : ∃ front back, e.ReadFrom c m k front back
  traced : (SyntaxNode.expr e).Traced c

structure Conditional (c : Cursor) (m : Nat) (e : Expr) (k : Nat) : Prop where
  read : ∃ j front back, e.ReadFrom c m j front back ∧ j ≤ k ∧ (j < k → (c.tokenAt j).kind = .questionMark) ∧
    Paired c j k
  traced : (SyntaxNode.expr e).Traced c

structure Among (c : Cursor) (m : Nat) (es : List Expr) (k : Nat) : Prop where
  paired : Paired c m k
  traced : ∀ e ∈ es, (SyntaxNode.expr e).Traced c

section

variable {left right : Expr}

theorem Whole.lt (h : Whole c i e j) : i < j := by
  obtain ⟨_, _, hread⟩ := h.read
  exact hread.lt

theorem Whole.conditional (h : Whole c i e j) : Conditional c i e j := by
  obtain ⟨front, back, hread⟩ := h.read
  exact ⟨⟨j, front, back, hread, Nat.le_refl j, fun hlt => absurd hlt (Nat.lt_irrefl j), .nil j⟩, h.traced⟩

theorem Conditional.among (h : Conditional c i e j) : Among c i [e] j := by
  obtain ⟨k, _, _, hread, -, -, hrest⟩ := h.read
  exact ⟨hread.paired.append hrest, by simpa using h.traced⟩

/-- An operand that is none of the operations. -/
theorem Whole.operand (hoperation : e.isOperation = false) (hlt : i < j) (hsize : j ≤ c.tokens.size)
    (hspan : e.span = c.over i (j - 1)) (hpaired : Paired c i j)
    (hparts : ∀ x ∈ e.spine ++ e.branches, (SyntaxNode.expr x).Traced c) : Whole c i e j := by
  refine ⟨⟨true, true, .operand hoperation hlt hsize hspan hpaired⟩, .of_parts ?_ hparts⟩
  intro h
  rw [hoperation] at h
  cases h

/-- A name or a literal. -/
theorem Whole.token (hoperation : e.isOperation = false) (hparts : e.spine ++ e.branches = [])
    (hspan : e.span = (c.tokenAt i).span) (hsize : i < c.tokens.size)
    (hkind : isParenthesis (c.tokenAt i).kind = false) : Whole c i e (i + 1) :=
  .operand hoperation (Nat.lt_succ_self i) hsize hspan (.token hkind) (by simp [hparts])

/-- An operand with something behind it. -/
theorem Whole.trailed {node : Expr} {items : List Expr} (h : Whole c i e k) (hoperation : node.isOperation = false)
    (hparts : node.spine ++ node.branches = e :: items) (hitems : ∀ x ∈ items, (SyntaxNode.expr x).Traced c)
    (hlt : k < j) (hsize : j ≤ c.tokens.size) (hspan : node.span = c.over i (j - 1)) (hrest : Paired c k j) :
    Whole c i node j := by
  have hfirst := h.lt
  obtain ⟨_, _, hread⟩ := h.read
  refine .operand hoperation (by omega) hsize hspan (hread.paired.append hrest) ?_
  rw [hparts]
  exact List.forall_mem_cons.2 ⟨h.traced, hitems⟩

theorem Whole.group (hopen : (c.tokenAt i).kind = .leftParen) (h : Conditional c (i + 1) e j)
    (hclose : (c.tokenAt j).kind = .rightParen) : Whole c i e (j + 1) := by
  obtain ⟨k, _, _, hread, hle, hmark, hrest⟩ := h.read
  exact ⟨⟨false, false, .group hopen hread hle hmark hrest hclose⟩, h.traced⟩

theorem Whole.unary {op : UnaryOp} (hop : (c.tokenAt i).kind = op.kind) (h : Whole c (i + 1) e j) :
    Whole c i (.unary op e ((c.tokenAt i).span.merge e.span)) j := by
  obtain ⟨_, back, hread⟩ := h.read
  refine ⟨⟨true, back, .unary hop hread⟩, .of_parts (fun _ => ⟨i, j, true, back, .unary hop hread⟩) ?_⟩
  simpa [Expr.spine, Expr.branches] using h.traced

theorem Whole.join {op : BinaryOp} (hl : Whole c i left k) (hop : (c.tokenAt k).kind = op.kind)
    (hr : Whole c (k + 1) right j) : Whole c i (.join op left right) j := by
  obtain ⟨front, _, hleft⟩ := hl.read
  obtain ⟨_, back, hright⟩ := hr.read
  have hread : (Expr.join op left right).ReadFrom c i j front back := .binary hleft hop hright
  refine ⟨⟨front, back, hread⟩, .of_parts (fun _ => ⟨i, j, front, back, hread⟩) ?_⟩
  simpa [Expr.join, Expr.spine, Expr.branches] using ⟨hl.traced, hr.traced⟩

end

def Wholes (F : Fence) (x : Rule Expr) : Prop := ∀ m, RuleLays F m x (Whole F.toCursor m)

def Conditionals (F : Fence) (x : Rule Expr) : Prop := ∀ m, RuleLays F m x (Conditional F.toCursor m)

def Items (F : Fence) (x : Rule Expr) : Prop := ∀ m, RuleLays F m x fun e => Among F.toCursor m [e]

theorem wholes_leftAssoc {operator? : Kind → Option BinaryOp} {operand : Rule Expr} {right : BinaryOp → Rule Expr}
    (hfence : ∀ κ, fences κ = true → operator? κ = none) (hop : ∀ κ op, operator? κ = some op → κ = op.kind)
    (hoperand : Wholes F operand) (hright : ∀ op, Wholes F (right op)) :
    Wholes F (leftAssoc operator? operand right) := by
  intro m
  apply RuleLays.bind (hoperand m)
  intro left k _ hleft
  apply RuleLays.tryLoop (I := Whole F.toCursor m) hleft
  intro e k _ he
  apply RuleLays.peekKind
  cases h : operator? (F.tokenAt k).kind with
  | none => exact RuleLays.pure he
  | some op =>
      apply RuleLays.advance (lets_of_operator hfence h)
      intro _
      apply RuleLays.bind (hright op (k + 1))
      intro right j _ hr
      exact RuleLays.pure fun hc => (he hc).join (hop _ op h) (hr hc)

theorem among_commaSeparated {item : Rule Expr} (hitem : Items F item) :
    RuleLays F m (commaSeparated item) (Among F.toCursor m) := by
  apply RuleLays.bind (R := fun (items : Array Expr) k => Among F.toCursor m items.toList k)
  · apply RuleLays.tryLoop (I := fun (items : Array Expr) k => Among F.toCursor m items.toList k) fun _ =>
      ⟨.nil m, List.forall_mem_nil _⟩
    intro items k _ hitems
    apply RuleLays.bind (hitem k)
    intro e j _ he
    have hpush : F.InOrder → Among F.toCursor m (items.push e).toList j := by
      intro hc
      refine ⟨(hitems hc).paired.append (he hc).paired, ?_⟩
      intro x hx
      rcases List.mem_append.1 (Array.toList_push ▸ hx) with hx | hx
      · exact (hitems hc).traced x hx
      · exact (he hc).traced x hx
    apply RuleLays.accept (F.passes rfl)
    · intro hcomma _
      exact RuleLays.pure fun hc =>
        ⟨(hpush hc).paired.append (.token (by rw [hcomma]; rfl)), (hpush hc).traced⟩
    · exact RuleLays.pure hpush
  · exact fun items k _ hitems => RuleLays.pure hitems

theorem among_listUpTo (close : Kind) {item : Rule Expr} (hitem : Items F item) :
    RuleLays F m (listUpTo close item) (Among F.toCursor m) := by
  apply RuleLays.check
  intro found
  split
  · exact RuleLays.pure fun _ => ⟨.nil m, List.forall_mem_nil _⟩
  · exact among_commaSeparated hitem

theorem whole_wordOrLiteral : RuleLays F m (wordOrLiteral (F.tokenAt m)) (Whole F.toCursor m) := by
  unfold wordOrLiteral
  split
  · rename_i hliteral
    apply RuleLays.advance (F.lets_of_test hliteral (forall_fences rfl rfl rfl rfl rfl))
    intro hlt
    apply RuleLays.step (lays_literalOf fun _ => .token F.toCursor m)
    intro value k _ hk
    cases value with
    | none => exact RuleLays.throw fun _ => .expected F.toCursor _ m
    | some value =>
        refine RuleLays.pure fun hc => ?_
        rw [hk hc]
        refine Whole.token rfl rfl rfl (Nat.lt_of_lt_of_le hlt F.limit_le) ?_
        generalize (F.tokenAt m).kind = κ at hliteral
        cases κ <;> first | rfl | cases hliteral
  · split
    · rename_i k hk
      split
      · exact RuleLays.expected _
      · rename_i hends
        apply RuleLays.advance
        · apply F.lets_of_test (c := fun κ => κ.keyword?.any fun k => !endsExpression k)
          · simpa [hk, Kind.keyword?] using hends
          · exact forall_fences rfl rfl rfl rfl rfl
        · intro hlt
          exact RuleLays.pure fun _ =>
            Whole.token rfl rfl rfl (Nat.lt_of_lt_of_le hlt F.limit_le) (by rw [hk]; rfl)
    · exact RuleLays.expected _

structure Deeper.Traces (F : Fence) (sub : Deeper) : Prop where
  expression : Conditionals F sub.expression
  unary : Wholes F sub.unary

section

variable {sub : Deeper} (hsub : sub.Traces F)

include hsub

theorem items_expression : Items F sub.expression := fun m =>
  (hsub.expression m).mono fun _ _ _ _ he => he.among

theorem items_elementWith : Items F (elementWith sub) := by
  intro m
  apply RuleLays.here
  apply RuleLays.accept (F.passes rfl)
  · intro hdots _
    apply RuleLays.bind (items_expression hsub (m + 1))
    intro last k _ hlast
    apply RuleLays.spanFrom
    intro _ span _
    refine RuleLays.pure fun hc =>
      ⟨.cons (by rw [hdots]; rfl) (hlast hc).paired, List.forall_mem_singleton.2 (.of_parts ?_ ?_)⟩
    · rintro ⟨⟩
    · simpa [Expr.spine, Expr.branches] using (hlast hc).traced
  · apply RuleLays.bind (items_expression hsub m)
    intro first k _ hfirst
    apply RuleLays.accept (F.passes rfl)
    · intro hdots _
      have hend : RuleLays F (k + 1) (rangeEndWith sub) fun last => Among F.toCursor (k + 1) last.toList := by
        apply RuleLays.peekKind
        split
        · exact (items_expression hsub (k + 1)).map fun e j _ _ he => he
        · exact RuleLays.pure fun _ => ⟨.nil _, List.forall_mem_nil _⟩
      apply hend.bind
      intro last j _ hlast
      apply RuleLays.spanFrom
      intro _ span _
      refine RuleLays.pure fun hc => ⟨(hfirst hc).paired.append (.cons (by rw [hdots]; rfl) (hlast hc).paired),
        List.forall_mem_singleton.2 (.of_parts ?_ ?_)⟩
      · rintro ⟨⟩
      · intro x hx
        rcases List.mem_append.1 (show x ∈ [first] ++ last.toList from hx) with hx | hx
        · exact (hfirst hc).traced x hx
        · exact (hlast hc).traced x hx
    · exact RuleLays.pure hfirst

theorem wholes_setLiteralWith : Wholes F (setLiteralWith sub) := by
  intro m
  apply RuleLays.here
  apply RuleLays.expect (F.passes rfl)
  intro hopen _
  apply RuleLays.bind (among_listUpTo _ (items_elementWith hsub))
  intro elements k hk helements
  apply RuleLays.expect (F.passes rfl)
  intro hclose _
  apply RuleLays.spanFrom
  intro hsize span hspan
  refine RuleLays.pure fun hc => .operand rfl (by omega) hsize (hspan hc (by omega)) ?_ (helements hc).traced
  exact .cons (by rw [hopen]; rfl) ((helements hc).paired.append (.token (by rw [hclose]; rfl)))

theorem wholes_parenthesizedWith : Wholes F (parenthesizedWith sub) := by
  intro m
  apply RuleLays.expect (F.passes rfl)
  intro hopen _
  apply RuleLays.bind (hsub.expression (m + 1))
  intro inner k _ hinner
  apply RuleLays.expect (F.passes rfl)
  intro hclose _
  exact RuleLays.pure fun hc => .group hopen (hinner hc) hclose

theorem wholes_primaryWith : Wholes F (primaryWith sub) := by
  intro m
  apply RuleLays.peek
  split
  · exact wholes_parenthesizedWith hsub m
  · exact wholes_setLiteralWith hsub m
  case h_5 => exact whole_wordOrLiteral
  all_goals
    rename_i hkind
    apply RuleLays.advance (F.lets_of_kind (by rw [hkind]; rfl))
    intro hlt
    exact RuleLays.pure fun _ =>
      .token rfl rfl rfl (Nat.lt_of_lt_of_le hlt F.limit_le) (by rw [hkind]; rfl)

/-- Behind a trailer the span goes back to where the operand begins, parentheses included. -/
theorem whole_trailerRound {e : Expr} (he : F.InOrder → Whole F.toCursor m e k) :
    RuleLays F k (trailerRound sub m e) fun r => Whole F.toCursor m (payload r) := by
  have hmember : ∀ (expected : String) (qualified : Bool), fences (F.tokenAt k).kind = false →
      leadsOn (F.tokenAt k) = true → isParenthesis (F.tokenAt k).kind = false →
      RuleLays F k (do
        let _ ← advance
        let name ← memberName expected
        return ForInStep.yield (Expr.member e name qualified (← spanFrom m)))
        fun r => Whole F.toCursor m (payload r) := by
    intro expected qualified hkind hlead hparenthesis
    apply RuleLays.advance (F.lets_of_kind hkind)
    intro _
    apply RuleLays.bind (lays_memberName expected hlead)
    intro name j hj hname
    apply RuleLays.spanFrom
    intro hsize span hspan
    refine RuleLays.pure fun hc => ?_
    have hmk := (he hc).lt
    obtain ⟨rfl, hword⟩ := hname hc
    refine (he hc).trailed rfl rfl (List.forall_mem_nil _) (by omega) hsize (hspan hc (by omega)) ?_
    refine .cons hparenthesis (.token ?_)
    generalize (F.tokenAt (k + 1)).kind = κ at hword
    cases κ <;> first | rfl | cases hword
  have hitems : ∀ (opening closing : Kind) (node : Expr → List Expr → Span → Expr), fences opening = false →
      fences closing = false → (F.tokenAt k).kind = opening →
      (∀ j, (F.tokenAt k).kind = opening → (F.tokenAt j).kind = closing → Paired F.toCursor (k + 1) j →
        Paired F.toCursor k (j + 1)) →
      (∀ items span, (node e items span).isOperation = false ∧ (node e items span).span = span ∧
        (node e items span).spine ++ (node e items span).branches = e :: items) →
      RuleLays F k (do
        let _ ← advance
        let items ← listUpTo closing sub.expression
        let _ ← expect closing
        return ForInStep.yield (node e items (← spanFrom m)))
        fun r => Whole F.toCursor m (payload r) := by
    intro opening closing node hfence hfence' hopening hpaired hnode
    apply RuleLays.advance (F.passes hfence hopening)
    intro _
    apply RuleLays.bind (among_listUpTo closing (items_expression hsub))
    intro items j hj hitems
    apply RuleLays.expect (F.passes hfence')
    intro hclosing _
    apply RuleLays.spanFrom
    intro hsize span hspan
    refine RuleLays.pure fun hc => ?_
    have hmk := (he hc).lt
    obtain ⟨hoperation, hspan', hparts⟩ := hnode items span
    exact (he hc).trailed hoperation hparts (hitems hc).traced (by omega) hsize (hspan'.trans (hspan hc (by omega)))
      (hpaired j hopening hclosing (hitems hc).paired)
  apply RuleLays.peekKind
  split
  · rename_i hkind
    exact hmember _ false (by rw [hkind]; rfl) (by rw [leadsOn, hkind]) (by rw [hkind]; rfl)
  · rename_i hkind
    exact hmember _ true (by rw [hkind]; rfl) (by rw [leadsOn, hkind]) (by rw [hkind]; rfl)
  · rename_i hkind
    refine hitems .leftParen .rightParen Expr.call rfl rfl hkind (fun j hopen hclose hinner => ?_)
      fun items span => ⟨rfl, rfl, rfl⟩
    exact .group hopen hinner hclose
  · rename_i hkind
    refine hitems .leftBracket .rightBracket Expr.index rfl rfl hkind (fun j hopen hclose hinner => ?_)
      fun items span => ⟨rfl, rfl, rfl⟩
    exact .cons (by rw [hopen]; rfl) (hinner.append (.token (by rw [hclose]; rfl)))
  · exact RuleLays.pure he

theorem wholes_operandWith : Wholes F (operandWith sub) := by
  intro m
  apply RuleLays.here
  apply RuleLays.bind (wholes_primaryWith hsub m)
  intro e k _ he
  apply RuleLays.tryLoop (I := Whole F.toCursor m) he
  intro e k _ he
  exact whole_trailerRound hsub he

theorem wholes_unaryWith : Wholes F (unaryWith sub) := by
  intro m
  apply RuleLays.peek
  cases hop : unaryOp? (F.tokenAt m).kind with
  | none => exact wholes_operandWith hsub m
  | some op =>
      apply RuleLays.advance (lets_of_operator (forall_fences rfl rfl rfl rfl rfl) hop)
      intro _
      apply RuleLays.bind (hsub.unary (m + 1))
      intro operand k _ hoperand
      exact RuleLays.pure fun hc => .unary (eq_of_unaryOp hop) (hoperand hc)

theorem wholes_productWith : Wholes F (productWith sub) :=
  wholes_leftAssoc (forall_fences rfl rfl rfl rfl rfl) (fun _ _ h => (eq_of_operatorAt (k := 5) (by decide) h).1)
    (wholes_unaryWith hsub) fun _ => wholes_unaryWith hsub

theorem wholes_sumWith : Wholes F (sumWith sub) :=
  wholes_leftAssoc (forall_fences rfl rfl rfl rfl rfl) (fun _ _ h => (eq_of_operatorAt (k := 4) (by decide) h).1)
    (wholes_productWith hsub) fun _ => wholes_productWith hsub

theorem wholes_relationRightWith (op : BinaryOp) : Wholes F (relationRightWith sub op) := by
  intro m
  apply RuleLays.check
  intro found
  split
  · exact wholes_setLiteralWith hsub m
  · exact wholes_sumWith hsub m

theorem wholes_relationWith : Wholes F (relationWith sub) :=
  wholes_leftAssoc (forall_fences rfl rfl rfl rfl rfl) (fun _ _ h => (eq_of_operatorAt (k := 3) (by decide) h).1)
    (wholes_sumWith hsub) (wholes_relationRightWith hsub)

theorem wholes_equalityWith : Wholes F (equalityWith sub) :=
  wholes_leftAssoc (forall_fences rfl rfl rfl rfl rfl) (fun _ _ h => (eq_of_operatorAt (k := 2) (by decide) h).1)
    (wholes_relationWith hsub) fun _ => wholes_relationWith hsub

theorem wholes_conjunctionWith : Wholes F (conjunctionWith sub) :=
  wholes_leftAssoc (forall_fences rfl rfl rfl rfl rfl) (fun _ _ h => (eq_of_operatorAt (k := 1) (by decide) h).1)
    (wholes_equalityWith hsub) fun _ => wholes_equalityWith hsub

theorem wholes_disjunctionWith : Wholes F (disjunctionWith sub) :=
  wholes_leftAssoc (forall_fences rfl rfl rfl rfl rfl) (fun _ _ h => (eq_of_operatorAt (k := 0) (by decide) h).1)
    (wholes_conjunctionWith hsub) fun _ => wholes_conjunctionWith hsub

theorem paired_ternaryWith : RuleLays F m (ternaryWith sub) fun _ k =>
    (F.tokenAt m).kind = .questionMark ∧ Paired F.toCursor m k := by
  apply RuleLays.expect (F.passes rfl)
  intro hmark _
  apply RuleLays.report fun _ => .token F.toCursor m
  apply RuleLays.bind (wholes_disjunctionWith hsub _)
  intro _ k _ hfirst
  have hpaired : F.InOrder → Paired F.toCursor m k := fun hc =>
    .cons (by rw [hmark]; rfl) (hfirst hc).conditional.among.paired
  apply RuleLays.accept (F.passes rfl)
  · intro hcolon _
    apply RuleLays.bind (wholes_disjunctionWith hsub _)
    intro _ j _ hsecond
    exact RuleLays.pure fun hc =>
      ⟨hmark, (hpaired hc).append (.cons (by rw [hcolon]; rfl) (hsecond hc).conditional.among.paired)⟩
  · exact RuleLays.pure fun hc => ⟨hmark, hpaired hc⟩

theorem conditionals_expressionWith : Conditionals F (expressionWith sub) := by
  intro m
  apply RuleLays.bind (wholes_disjunctionWith hsub m)
  intro condition k _ hcondition
  apply RuleLays.check
  intro found
  split
  · apply RuleLays.bind (paired_ternaryWith hsub)
    intro _ j hj hbranches
    refine RuleLays.pure fun hc => ?_
    obtain ⟨front, back, hread⟩ := (hcondition hc).read
    exact ⟨⟨k, front, back, hread, hj, fun _ => (hbranches hc).1, (hbranches hc).2⟩, (hcondition hc).traced⟩
  · exact RuleLays.pure fun hc => (hcondition hc).conditional

end

theorem traces_deeper (n : Nat) : (deeper n).Traces F := by
  induction n with
  | zero => exact ⟨fun _ => RuleLays.tooDeep, fun _ => RuleLays.tooDeep⟩
  | succ n ih =>
      exact ⟨fun m => RuleLays.nested (conditionals_expressionWith ih m),
        fun m => RuleLays.nested (wholes_unaryWith ih m)⟩

theorem items_expressionRule : Items F expression :=
  fun m => RuleLays.of_levels fun n => items_expression (traces_deeper n) m

theorem items_operand : Items F operand := fun m => RuleLays.of_levels fun n =>
  (wholes_operandWith (traces_deeper n) m).mono fun _ _ _ _ he => he.conditional.among

theorem items_element : Items F element :=
  fun m => RuleLays.of_levels fun n => items_elementWith (traces_deeper n) m

end Rule

end CalExport
