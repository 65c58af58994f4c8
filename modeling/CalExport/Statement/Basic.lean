import CalExport.Expr.Basic

namespace CalExport

open Text

inductive AssignOp where
  | assign | add | subtract | multiply | divide
deriving DecidableEq, Repr

namespace AssignOp

def spelling : AssignOp → String
  | .assign => ":="
  | .add => "+="
  | .subtract => "-="
  | .multiply => "*="
  | .divide => "/="

def binary? : AssignOp → Option BinaryOp
  | .assign => none
  | .add => some .add
  | .subtract => some .subtract
  | .multiply => some .multiply
  | .divide => some .divide

end AssignOp

inductive Direction where
  | up | down
deriving DecidableEq, Repr

def Direction.spelling : Direction → String
  | .up => "TO"
  | .down => "DOWNTO"

mutual

inductive Statement where
  | block (statements : List Statement) (span : Span)
  | ifThen (condition : Expr) (thenBranch : Statement) (elseBranch : Option Statement) (span : Span)
  | whileDo (condition : Expr) (body : Statement) (span : Span)
  | repeatUntil (body : List Statement) (condition : Expr) (span : Span)
  | forDo (counter first last : Expr) (direction : Direction) (body : Statement) (span : Span)
  | caseOf (subject : Expr) (branches : List CaseBranch) (otherwise : Option (List Statement)) (span : Span)
  | exit (value : Option Expr) (span : Span)
  | break_ (span : Span)
  | withDo (record : Expr) (body : Statement) (span : Span)
  /-- `x += y` holds the value `x + y`. -/
  | assign (target : Expr) (op : AssignOp) (value : Expr) (span : Span)
  | call (expression : Expr) (span : Span)
  | empty (span : Span)

inductive CaseBranch where
  | mk (values : List Expr) (statement : Statement) (span : Span)

end

instance : Inhabited Statement := ⟨.empty default⟩

def Statement.span : Statement → Span
  | .block _ span | .ifThen _ _ _ span | .whileDo _ _ span | .repeatUntil _ _ span | .forDo _ _ _ _ _ span
  | .caseOf _ _ _ span | .exit _ span | .break_ span | .withDo _ _ span | .assign _ _ _ span | .call _ span
  | .empty span => span

end CalExport
