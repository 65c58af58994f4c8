import CalExport.Statement.Basic
import CalExport.Expr.Json

namespace CalExport

open Text

namespace Statement

mutual

def toJson (style : Json.Style) : Statement → Json
  | .block statements span =>
    .object [("kind", "Block"), ("statements", .array (listToJson style statements)), ("span", style.span span)]
  | .ifThen condition thenBranch elseBranch span =>
    .object [("kind", "If"), ("condition", condition.toJson style), ("then_branch", toJson style thenBranch),
      ("else_branch", optionToJson style elseBranch), ("span", style.span span)]
  | .whileDo condition body span =>
    .object [("kind", "While"), ("condition", condition.toJson style), ("body", toJson style body),
      ("span", style.span span)]
  | .repeatUntil body condition span =>
    .object [("kind", "Repeat"), ("body", .array (listToJson style body)), ("condition", condition.toJson style),
      ("span", style.span span)]
  | .forDo counter first last direction body span =>
    .object [("kind", "For"), ("variable", counter.toJson style), ("from", first.toJson style),
      ("to", last.toJson style), ("direction", direction.spelling), ("body", toJson style body),
      ("span", style.span span)]
  | .caseOf subject branches otherwise span =>
    .object [("kind", "Case"), ("expression", subject.toJson style),
      ("branches", .array (branchesToJson style branches)), ("else_branch", optionListToJson style otherwise),
      ("span", style.span span)]
  | .exit value span =>
    .object [("kind", "Exit"), ("value", .ofOption (Expr.toJson style) value), ("span", style.span span)]
  | .break_ span => .object [("kind", "Break"), ("span", style.span span)]
  | .withDo record body span =>
    .object [("kind", "With"), ("record", record.toJson style), ("body", toJson style body),
      ("span", style.span span)]
  | .assign target op value span =>
    .object [("kind", "Assignment"), ("target", target.toJson style), ("operator", op.spelling),
      ("value", value.toJson style), ("span", style.span span)]
  | .call expression span =>
    .object [("kind", "Call"), ("expression", expression.toJson style), ("span", style.span span)]
  | .empty span => .object [("kind", "Empty"), ("span", style.span span)]

def listToJson (style : Json.Style) : List Statement → List Json
  | [] => []
  | s :: rest => toJson style s :: listToJson style rest

def optionToJson (style : Json.Style) : Option Statement → Json
  | none => .null
  | some s => toJson style s

def optionListToJson (style : Json.Style) : Option (List Statement) → Json
  | none => .null
  | some l => .array (listToJson style l)

def branchToJson (style : Json.Style) : CaseBranch → Json
  | .mk values statement span =>
    .object [("values", .array (Expr.listToJson style values)), ("statement", toJson style statement),
      ("span", style.span span)]

def branchesToJson (style : Json.Style) : List CaseBranch → List Json
  | [] => []
  | b :: rest => branchToJson style b :: branchesToJson style rest

end

def expressions : Statement → List Expr
  | .ifThen condition _ _ _ | .whileDo condition _ _ | .repeatUntil _ condition _ => [condition]
  | .forDo counter first last _ _ _ => [counter, first, last]
  | .caseOf subject branches _ _ => subject :: branches.flatMap fun | .mk values _ _ => values
  | .exit value _ => value.toList
  | .withDo record _ _ => [record]
  | .assign target _ value _ => [target, value]
  | .call expression _ => [expression]
  | .block .. | .break_ _ | .empty _ => []

def assignOp? : Statement → Option AssignOp
  | .assign _ op _ _ => some op
  | _ => none

end Statement

end CalExport
