import CalExport.Object.Basic

namespace CalExport

inductive SyntaxNode where
  | expr (e : Expr)
  /-- The value of a compound assignment, which is not written as an operation. -/
  | compound (value : Expr)
  | statement (s : Statement)
  | dataType (t : DataType)

namespace Expr

def spine : Expr → List Expr
  | .binary _ left _ _ => [left]
  | .member object _ _ _ => [object]
  | .call callee _ _ => [callee]
  | .index array _ _ => [array]
  | _ => []

def branches : Expr → List Expr
  | .binary _ _ right _ => [right]
  | .unary _ operand _ => [operand]
  | .call _ arguments _ => arguments
  | .index _ indices _ => indices
  | .set elements _ => elements
  | .range first last _ => first.toList ++ last.toList
  | _ => []

end Expr

def CaseBranch.nodes : CaseBranch → List SyntaxNode
  | .mk values statement _ => values.map .expr ++ [.statement statement]

def AssignOp.node (op : AssignOp) (value : Expr) : SyntaxNode :=
  if op.binary?.isSome then .compound value else .expr value

def Statement.nodes : Statement → List SyntaxNode
  | .block statements _ => statements.map .statement
  | .ifThen condition thenBranch elseBranch _ =>
    .expr condition :: .statement thenBranch :: elseBranch.toList.map .statement
  | .whileDo condition body _ => [.expr condition, .statement body]
  | .repeatUntil body condition _ => .expr condition :: body.map .statement
  | .forDo counter first last _ body _ => [.expr counter, .expr first, .expr last, .statement body]
  | .caseOf subject branches otherwise _ =>
    .expr subject :: (branches.flatMap CaseBranch.nodes ++ (otherwise.getD []).map .statement)
  | .exit value _ => value.toList.map .expr
  | .withDo record body _ => [.expr record, .statement body]
  | .assign target op value _ => [.expr target, op.node value]
  | .call expression _ => [.expr expression]
  | .break_ _ | .empty _ => []

namespace SyntaxNode

def spine : SyntaxNode → List SyntaxNode
  | .expr e | .compound e => e.spine.map .expr
  | .statement _ | .dataType _ => []

def branches : SyntaxNode → List SyntaxNode
  | .expr e | .compound e => e.branches.map .expr
  | .statement s => s.nodes
  | .dataType (.array _ _ element _) => [.dataType element]
  | .dataType _ => []

def children (n : SyntaxNode) : List SyntaxNode := n.spine ++ n.branches

inductive Reaches : SyntaxNode → SyntaxNode → Prop
  | self (n : SyntaxNode) : Reaches n n
  | inside {n child m : SyntaxNode} : child ∈ n.children → Reaches child m → Reaches n m

theorem Reaches.trans {n m k : SyntaxNode} (h : n.Reaches m) (g : m.Reaches k) : n.Reaches k := by
  induction h with
  | self n => exact g
  | inside hchild _ ih => exact .inside hchild (ih g)

/-- At most so many nodes stand one below the other, when steps along the spine are not counted. -/
inductive Bends : Nat → SyntaxNode → Prop
  | node {h : Nat} {n : SyntaxNode} : (∀ child ∈ n.spine, Bends (h + 1) child) → (∀ child ∈ n.branches, Bends h child) →
      Bends (h + 1) n

namespace Bends

variable {h k : Nat} {n : SyntaxNode}

theorem mono (hn : Bends h n) (hk : h ≤ k) : Bends k n := by
  induction hn generalizing k with
  | node _ _ ihspine ihbranches =>
      obtain ⟨k, rfl⟩ : ∃ j, k = j + 1 := ⟨k - 1, by omega⟩
      exact .node (fun child hc => ihspine child hc hk) fun child hc => ihbranches child hc (by omega)

/-- A node without a spine. -/
theorem of_branches (hspine : n.spine = []) (hbranches : ∀ child ∈ n.branches, Bends h child) : Bends (h + 1) n :=
  .node (by simp [hspine]) hbranches

theorem expr {e : Expr} (hspine : ∀ x ∈ e.spine, Bends (h + 1) (.expr x))
    (hbranches : ∀ x ∈ e.branches, Bends h (.expr x)) : Bends (h + 1) (.expr e) := by
  apply Bends.node
  · simpa [SyntaxNode.spine] using hspine
  · simpa [SyntaxNode.branches] using hbranches

theorem leaf {e : Expr} (hspine : e.spine = []) (hbranches : e.branches = []) : Bends (h + 1) (.expr e) :=
  expr (by simp [hspine]) (by simp [hbranches])

/-- An operand with something behind it. -/
theorem trailer {e operand : Expr} (hspine : e.spine = [operand]) (ho : Bends (h + 1) (.expr operand))
    (hbranches : ∀ x ∈ e.branches, Bends h (.expr x)) : Bends (h + 1) (.expr e) :=
  expr (by simpa [hspine] using ho) hbranches

theorem join {left right : Expr} (op : BinaryOp) (hl : Bends (h + 1) (.expr left)) (hr : Bends h (.expr right)) :
    Bends (h + 1) (.expr (.join op left right)) := trailer rfl hl (by simpa [Expr.join, Expr.branches] using hr)

/-- The value of a compound assignment bends as an operation does. -/
theorem compound {e : Expr} (he : Bends h (.expr e)) : Bends h (.compound e) := by
  cases he with
  | node hspine hbranches => exact .node hspine hbranches

end Bends

end SyntaxNode

def Variable.nodes (v : Variable) : List SyntaxNode := [.dataType v.dataType]

def Parameter.nodes (p : Parameter) : List SyntaxNode := [.dataType p.dataType]

def bodyNodes (locals : List Variable) (body : List Statement) : List SyntaxNode :=
  locals.flatMap Variable.nodes ++ body.map .statement

def Procedure.nodes (p : Procedure) : List SyntaxNode :=
  p.parameters.flatMap Parameter.nodes ++ p.returnType.toList.map .dataType ++ bodyNodes p.locals p.body

def Trigger.nodes (t : Trigger) : List SyntaxNode := bodyNodes t.locals t.body

def EventHandler.nodes (e : EventHandler) : List SyntaxNode :=
  e.parameters.flatMap Parameter.nodes ++ bodyNodes e.locals e.body

def CodeItem.nodes : CodeItem → List SyntaxNode
  | .globals declared => declared.flatMap Variable.nodes
  | .procedure p => p.nodes
  | .trigger t => t.nodes
  | .event e => e.nodes

def CodeSection.nodes (c : CodeSection) : List SyntaxNode :=
  c.globals.flatMap Variable.nodes ++ c.procedures.flatMap Procedure.nodes ++ c.triggers.flatMap Trigger.nodes ++
    c.events.flatMap EventHandler.nodes

def PropertyValue.nodes : PropertyValue → List SyntaxNode
  | .text _ => []
  | .trigger locals body => bodyNodes locals body

def Property.nodes (p : Property) : List SyntaxNode := p.value.nodes

def Field.nodes (f : Field) : List SyntaxNode :=
  .dataType f.dataType :: (f.properties.flatMap Property.nodes ++ f.triggers.flatMap Trigger.nodes)

def Key.nodes (k : Key) : List SyntaxNode := k.properties.flatMap Property.nodes

def ObjectSection.nodes : ObjectSection → List SyntaxNode
  | .properties entries => entries.flatMap Property.nodes
  | .fields entries => entries.flatMap Field.nodes
  | .keys entries => entries.flatMap Key.nodes
  | .fieldGroups _ | .passed => []
  | .code c => c.nodes
  | .globals declared => declared.flatMap Variable.nodes

def ExportObject.nodes (o : ExportObject) : List SyntaxNode :=
  o.properties.flatMap Property.nodes ++ o.fields.flatMap Field.nodes ++ o.keys.flatMap Key.nodes ++
    o.code.toList.flatMap CodeSection.nodes

def Document.nodes (d : Document) : List SyntaxNode := d.object.toList.flatMap ExportObject.nodes

def Document.Has (d : Document) (n : SyntaxNode) : Prop := ∃ root ∈ d.nodes, root.Reaches n

theorem CodeSection.mem_nodes_ofItems {items : List CodeItem} {span : Text.Span} {n : SyntaxNode}
    (h : n ∈ (CodeSection.ofItems items span).nodes) : n ∈ items.flatMap CodeItem.nodes := by
  simp only [CodeSection.nodes, CodeSection.ofItems, List.mem_append, List.mem_flatMap, List.mem_filterMap] at h
  rw [List.mem_flatMap]
  rcases h with ((⟨v, ⟨item, hitem, hv⟩, hn⟩ | ⟨p, ⟨item, hitem, hp⟩, hn⟩) | ⟨t, ⟨item, hitem, ht⟩, hn⟩) |
    ⟨e, ⟨item, hitem, he⟩, hn⟩
  all_goals
    refine ⟨item, hitem, ?_⟩
    cases item <;> simp_all [CodeItem.globals?, CodeItem.procedure?, CodeItem.trigger?, CodeItem.event?, CodeItem.nodes]
  exact ⟨v, hv, hn⟩

theorem Property.nodes_of_trigger {p : Property} {t : Trigger} (h : p.trigger? = some t) : t.nodes = p.nodes := by
  obtain ⟨name, value, span⟩ := p
  cases value with
  | text s => cases h
  | trigger locals body =>
      cases h
      rfl

/-- A CODE section keeps what one of the sections of its object held. -/
theorem ObjectSection.mem_nodes_joinCode {sections : List ObjectSection} {c : CodeSection} {n : SyntaxNode}
    (hc : ObjectSection.joinCode sections = some c) (h : n ∈ c.nodes) : n ∈ sections.flatMap ObjectSection.nodes := by
  have hlast : ∀ last ∈ (sections.filterMap ObjectSection.code?).getLast?, ∀ m ∈ last.nodes,
      m ∈ sections.flatMap ObjectSection.nodes := by
    intro last hlast m hm
    obtain ⟨s, hs, hcode⟩ := List.mem_filterMap.1 (List.mem_of_getLast? hlast)
    refine List.mem_flatMap.2 ⟨s, hs, ?_⟩
    cases s <;> cases hcode
    exact hm
  have houtside : ∀ v ∈ sections.flatMap ObjectSection.globals?, ∀ m ∈ v.nodes,
      m ∈ sections.flatMap ObjectSection.nodes := by
    intro v hv m hm
    obtain ⟨s, hs, hglobals⟩ := List.mem_flatMap.1 hv
    refine List.mem_flatMap.2 ⟨s, hs, ?_⟩
    cases s with
    | globals declared => exact List.mem_flatMap.2 ⟨v, hglobals, hm⟩
    | _ => cases hglobals
  unfold ObjectSection.joinCode at hc
  cases hglobals : sections.flatMap ObjectSection.globals? with
  | nil =>
      rw [hglobals] at hc
      exact hlast c hc n h
  | cons v rest =>
      rw [hglobals] at hc houtside
      cases hc
      simp only [CodeSection.nodes, List.flatMap_append, List.mem_append, or_assoc] at h
      rcases h with h | h
      · obtain ⟨v, hv, hn⟩ := List.mem_flatMap.1 h
        exact houtside v hv n hn
      · cases hgetLast : (sections.filterMap ObjectSection.code?).getLast? with
        | none =>
            rw [hgetLast] at h
            simp [CodeSection.absent] at h
        | some last =>
            rw [hgetLast] at h
            apply hlast last hgetLast n
            simpa only [CodeSection.nodes, List.mem_append, or_assoc, Option.getD_some] using h

theorem ExportObject.mem_nodes_ofSections {kind : ObjectKind} {id : Int} {name : String}
    {sections : List ObjectSection} {span : Text.Span} {n : SyntaxNode}
    (h : n ∈ (ExportObject.ofSections kind id name sections span).nodes) :
    n ∈ sections.flatMap ObjectSection.nodes := by
  simp only [ExportObject.nodes, ExportObject.ofSections, List.mem_append] at h
  rcases h with ((h | h) | h) | h
  case inr =>
    obtain ⟨c, hc, hn⟩ := List.mem_flatMap.1 h
    exact ObjectSection.mem_nodes_joinCode (Option.mem_toList.1 hc) hn
  all_goals
    obtain ⟨entry, hentry, hn⟩ := List.mem_flatMap.1 h
    obtain ⟨s, hs, hentry⟩ := List.mem_flatMap.1 hentry
    refine List.mem_flatMap.2 ⟨s, hs, ?_⟩
    cases s <;> simp_all [ObjectSection.properties?, ObjectSection.fields?, ObjectSection.keys?, ObjectSection.nodes]
    exact ⟨entry, hentry, hn⟩

end CalExport
