import CalExport.Object.Basic
import CalExport.Token.Cursor

namespace CalExport

open Text

inductive Outline where
  | node (span : Span) (lists : List (List Outline))

namespace Outline

def span : Outline → Span
  | .node span _ => span

def lists : Outline → List (List Outline)
  | .node _ lists => lists

/-- The outline itself and all that stands below it. -/
inductive Holds : Outline → Outline → Prop
  | self (o : Outline) : Holds o o
  | inside {o child n : Outline} {list : List Outline} :
      list ∈ o.lists → child ∈ list → Holds child n → Holds o n

end Outline

namespace Expr

mutual

def outline : Expr → Outline
  | .identifier _ span | .literal _ _ span => .node span []
  | .binary _ left right span => .node span [[left.outline], [right.outline]]
  | .unary _ operand span => .node span [[operand.outline]]
  | .member object _ _ span => .node span [[object.outline]]
  | .call callee arguments span => .node span [[callee.outline], outlines arguments]
  | .index array indices span => .node span [[array.outline], outlines indices]
  | .set elements span => .node span [outlines elements]
  | .range first last span => .node span [boundOutline first, boundOutline last]

def outlines : List Expr → List Outline
  | [] => []
  | e :: rest => e.outline :: outlines rest

def boundOutline : Option Expr → List Outline
  | none => []
  | some e => [e.outline]

end

@[simp] theorem outlines_eq (es : List Expr) : outlines es = es.map outline := by
  induction es with
  | nil => rfl
  | cons e es ih => simp [outlines, ih]

@[simp] theorem boundOutline_eq (bound : Option Expr) : boundOutline bound = bound.toList.map outline := by
  cases bound <;> rfl

@[simp] theorem span_outline (e : Expr) : e.outline.span = e.span := by
  cases e <;> rfl

end Expr

namespace Statement

mutual

def outline : Statement → Outline
  | .block statements span => .node span [outlines statements]
  | .ifThen condition thenBranch elseBranch span =>
    .node span [[condition.outline], [thenBranch.outline], elseOutline elseBranch]
  | .whileDo condition body span => .node span [[condition.outline], [body.outline]]
  | .repeatUntil body condition span => .node span [outlines body, [condition.outline]]
  | .forDo counter first last _ body span =>
    .node span [[counter.outline], [first.outline], [last.outline], [body.outline]]
  | .caseOf subject branches otherwise span =>
    .node span [[subject.outline], branchOutlines branches, otherwiseOutlines otherwise]
  | .exit value span => .node span [value.toList.map Expr.outline]
  | .withDo record body span => .node span [[record.outline], [body.outline]]
  | .assign target _ value span => .node span [[target.outline], [value.outline]]
  | .call expression span => .node span [[expression.outline]]
  | .break_ span | .empty span => .node span []

def branchOutline : CaseBranch → Outline
  | .mk values statement span => .node span [values.map Expr.outline, [statement.outline]]

def outlines : List Statement → List Outline
  | [] => []
  | s :: rest => s.outline :: outlines rest

def elseOutline : Option Statement → List Outline
  | none => []
  | some s => [s.outline]

def otherwiseOutlines : Option (List Statement) → List Outline
  | none => []
  | some statements => outlines statements

def branchOutlines : List CaseBranch → List Outline
  | [] => []
  | branch :: rest => branchOutline branch :: branchOutlines rest

end

@[simp] theorem outline_empty (span : Span) : (Statement.empty span).outline = .node span [] := by
  simp only [outline]

@[simp] theorem outlines_eq (statements : List Statement) : outlines statements = statements.map outline := by
  induction statements with
  | nil => rfl
  | cons s statements ih => simp [outlines, ih]

@[simp] theorem elseOutline_eq (branch : Option Statement) : elseOutline branch = branch.toList.map outline := by
  cases branch <;> rfl

@[simp] theorem otherwiseOutlines_eq (otherwise : Option (List Statement)) :
    otherwiseOutlines otherwise = (otherwise.getD []).map outline := by
  cases otherwise <;> simp [otherwiseOutlines]

@[simp] theorem branchOutlines_eq (branches : List CaseBranch) :
    branchOutlines branches = branches.map branchOutline := by
  induction branches with
  | nil => rfl
  | cons branch branches ih => simp [branchOutlines, ih]

end Statement

def DataType.outline : DataType → Outline
  | .array _ _ element span => .node span [[element.outline]]
  | .simple _ _ span | .reference _ _ span | .textConst span | .dotNet _ span | .automation _ span
  | .options _ _ span => .node span []

def Variable.outline (v : Variable) : Outline := .node v.span [[v.dataType.outline]]

def Parameter.outline (p : Parameter) : Outline := .node p.span [[p.dataType.outline]]

def Procedure.outline (p : Procedure) : Outline :=
  .node p.span [p.parameters.map Parameter.outline, p.returnType.toList.map DataType.outline,
    p.locals.map Variable.outline, p.body.map Statement.outline]

def Trigger.outline (t : Trigger) : Outline :=
  .node t.span [t.locals.map Variable.outline, t.body.map Statement.outline]

def EventHandler.outline (e : EventHandler) : Outline :=
  .node e.span [e.parameters.map Parameter.outline, e.locals.map Variable.outline, e.body.map Statement.outline]

def CodeSection.outlineLists (outside : Nat) (c : CodeSection) : List (List Outline) :=
  [(c.globals.drop outside).map Variable.outline, c.procedures.map Procedure.outline,
    c.triggers.map Trigger.outline, c.events.map EventHandler.outline]

def CodeSection.outline (outside : Nat) (c : CodeSection) : Outline := .node c.span (c.outlineLists outside)

def PropertyValue.outlineLists : PropertyValue → List (List Outline)
  | .text _ => []
  | .trigger locals body => [locals.map Variable.outline, body.map Statement.outline]

def Property.outline (p : Property) : Outline := .node p.span p.value.outlineLists

def Field.outline (f : Field) : Outline :=
  .node f.span [[f.dataType.outline], f.properties.map Property.outline, f.triggers.map Trigger.outline]

def Key.outline (k : Key) : Outline := .node k.span [k.properties.map Property.outline]

def FieldGroup.outline (g : FieldGroup) : Outline := .node g.span []

/-- What the code of an object adds to its lists: the variables from outside the CODE section, and the section. One that
the source does not have has no place, and what it holds stands in the object itself. -/
def ExportObject.codeLists (outside : Nat) : Option CodeSection → List (List Outline)
  | none => []
  | some c => (c.globals.take outside).map Variable.outline ::
      if c.span = CodeSection.absent.span then c.outlineLists outside else [[c.outline outside]]

/-- The outline of an object whose first `outside` variables stand outside of its CODE section. -/
def ExportObject.outline (outside : Nat) (o : ExportObject) : Outline :=
  .node o.span ([o.properties.map Property.outline, o.fields.map Field.outline, o.keys.map Key.outline,
    o.fieldGroups.map FieldGroup.outline] ++ codeLists outside o.code)

def Document.outline (outside : Nat) (d : Document) : Outline :=
  .node d.span (d.object.toList.map fun o => [o.outline outside])

/-- From the start of one token to the end of another. -/
def Cursor.over (c : Cursor) (i j : Nat) : Span := ⟨(c.tokenAt i).span.start, (c.tokenAt j).span.stop⟩

/-- Outlines that stand one behind the other over the tokens from `lo` to before `hi`. One without a token of its own
has its place in front of a token. -/
inductive Row (c : Cursor) : Nat → Nat → List Outline → Prop
  | nil {lo hi : Nat} : Row c lo hi []
  | filled {lo hi i j : Nat} {lists : List (List Outline)} {rest : List Outline} :
      lo ≤ i → i ≤ j → j < hi → j < c.tokens.size → (∀ list ∈ lists, Row c i (j + 1) list) →
      Row c (j + 1) hi rest → Row c lo hi (.node (c.over i j) lists :: rest)
  | point {lo hi i : Nat} {rest : List Outline} :
      lo ≤ i → i ≤ hi → Row c i hi rest → Row c lo hi (.node (Span.point (c.tokenAt i).span.start) [] :: rest)

def Solid (c : Cursor) (lo hi : Nat) (o : Outline) : Prop :=
  ∃ i j, lo ≤ i ∧ i ≤ j ∧ j < hi ∧ j < c.tokens.size ∧ o.span = c.over i j ∧ ∀ list ∈ o.lists, Row c i (j + 1) list

section

variable {c : Cursor} {lo mid hi lo' hi' : Nat} {o : Outline} {os ps : List Outline}

theorem Row.mono (h : Row c lo hi os) (hlo : lo' ≤ lo) (hhi : hi ≤ hi') : Row c lo' hi' os := by
  induction h generalizing lo' with
  | nil => exact .nil
  | filled hi hij hj hsize hlists _ _ ih =>
      exact .filled (Nat.le_trans hlo hi) hij (Nat.lt_of_lt_of_le hj hhi) hsize hlists (ih (Nat.le_refl _) hhi)
  | point hi hle _ ih => exact .point (Nat.le_trans hlo hi) (Nat.le_trans hle hhi) (ih (Nat.le_refl _) hhi)

theorem Row.append (h : Row c lo mid os) (h' : Row c mid hi ps) (hlo : lo ≤ mid) (hhi : mid ≤ hi) :
    Row c lo hi (os ++ ps) := by
  induction h with
  | nil => exact h'.mono hlo (Nat.le_refl _)
  | filled hi hij hj hsize hlists _ _ ih =>
      exact .filled hi hij (Nat.lt_of_lt_of_le hj hhi) hsize hlists (ih h' hj hhi)
  | point hi hle _ ih => exact .point hi (Nat.le_trans hle hhi) (ih h' hle hhi)

/-- What is left when some are taken out. -/
theorem Row.sublist (h : Row c lo hi os) (hps : ps.Sublist os) : Row c lo hi ps := by
  induction h generalizing ps with
  | nil =>
      rw [List.sublist_nil.1 hps]
      exact .nil
  | filled hi hij hj hsize hlists _ _ ih =>
      cases hps with
      | cons _ hps => exact (ih hps).mono (by omega) (Nat.le_refl _)
      | cons_cons _ hps => exact .filled hi hij hj hsize hlists (ih hps)
  | point hi hle _ ih =>
      cases hps with
      | cons _ hps => exact (ih hps).mono hi (Nat.le_refl _)
      | cons_cons _ hps => exact .point hi hle (ih hps)

theorem Solid.mono (h : Solid c lo hi o) (hlo : lo' ≤ lo) (hhi : hi ≤ hi') : Solid c lo' hi' o := by
  obtain ⟨i, j, hi, hij, hj, hsize, hspan, hlists⟩ := h
  exact ⟨i, j, by omega, hij, by omega, hsize, hspan, hlists⟩

theorem Solid.row (h : Solid c lo hi o) : Row c lo hi [o] := by
  obtain ⟨i, j, hi, hij, hj, hsize, hspan, hlists⟩ := h
  obtain ⟨span, lists⟩ := o
  obtain rfl : span = c.over i j := hspan
  exact .filled hi hij hj hsize hlists .nil

theorem Solid.lt (h : Solid c lo hi o) : lo < hi := by
  obtain ⟨i, j, hi, hij, hj, -⟩ := h
  omega

end

end CalExport
