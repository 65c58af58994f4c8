import CalExport.Proofs.Nesting.Script

namespace CalExport.Rule

open RuleName (ruleAt guardAt)

namespace Script

def expression : Script RuleName.expression.rank Expr := .guarded .wholeExpression

def wholeExpression : Script RuleName.wholeExpression.rank Expr := do
  let condition ← .call .disjunction
  if ← .step (check .questionMark) then
    .call .ternary
    return condition
  else return condition

def ternary : Script RuleName.ternary.rank Unit := do
  let token ← .step (expect .questionMark)
  .step (report (.foreignConstruct "The ternary operator '?'" "IF ... THEN ... ELSE" token.span))
  let _ ← .call .disjunction
  if ← .step (accept .colon) then
    let _ ← .call .disjunction

def disjunction : Script RuleName.disjunction.rank Expr :=
  leftAssoc orOp? (.call .conjunction) fun _ => .call .conjunction

def conjunction : Script RuleName.conjunction.rank Expr :=
  leftAssoc andOp? (.call .equality) fun _ => .call .equality

def equality : Script RuleName.equality.rank Expr :=
  leftAssoc equalityOp? (.call .relation) fun _ => .call .relation

def relation : Script RuleName.relation.rank Expr :=
  leftAssoc relationOp? (.call .sum) fun op => do
    if op = .isIn ∧ (← .step (check .leftBracket)) then .call .setLiteral else .call .sum

def sum : Script RuleName.sum.rank Expr := leftAssoc sumOp? (.call .product) fun _ => .call .product

def product : Script RuleName.product.rank Expr := leftAssoc productOp? (.call .unary) fun _ => .call .unary

def unary : Script RuleName.unary.rank Expr := do
  let token ← .step peek
  match unaryOp? token.kind with
  | none => .call .operand
  | some op =>
    let _ ← .step advance
    let operand ← .guarded .unary
    return .unary op operand (token.span.merge operand.span)

def operand : Script RuleName.operand.rank Expr := do
  let start ← .step here
  .loop (← .call .primary) fun e => do
    match ← .step peekKind with
    | .dot =>
      let _ ← .step advance
      let name ← .step (memberName "member name after '.'")
      return .yield (.member e name false (← .step (spanFrom start)))
    | .doubleColon =>
      let _ ← .step advance
      let name ← .step (memberName "option value after '::'")
      return .yield (.member e name true (← .step (spanFrom start)))
    | .leftParen =>
      let _ ← .step advance
      let arguments ← listUpTo .rightParen (.call .expression)
      let _ ← .step (expect .rightParen)
      return .yield (.call e arguments (← .step (spanFrom start)))
    | .leftBracket =>
      let _ ← .step advance
      let indices ← listUpTo .rightBracket (.call .expression)
      let _ ← .step (expect .rightBracket)
      return .yield (.index e indices (← .step (spanFrom start)))
    | _ => return .done e

def primary : Script RuleName.primary.rank Expr := do
  let token ← .step peek
  match token.kind with
  | .leftParen => .call .parenthesized
  | .leftBracket => .call .setLiteral
  | .identifier | .quotedIdentifier =>
    let _ ← .step advance
    return .identifier token.value token.span
  | _ => .step (wordOrLiteral token)

def parenthesized : Script RuleName.parenthesized.rank Expr := do
  let _ ← .step (expect .leftParen)
  let inner ← .call .expression
  let _ ← .step (expect .rightParen)
  return inner

def setLiteral : Script RuleName.setLiteral.rank Expr := do
  let start ← .step here
  let _ ← .step (expect .leftBracket)
  let elements ← listUpTo .rightBracket (.call .element)
  let _ ← .step (expect .rightBracket)
  return .set elements (← .step (spanFrom start))

def element : Script RuleName.element.rank Expr := do
  let start ← .step here
  if ← .step (accept .dotDot) then
    let last ← .call .expression
    return .range none (some last) (← .step (spanFrom start))
  else
    let first ← .call .expression
    if ← .step (accept .dotDot) then
      let last ← .call .rangeEnd
      return .range (some first) last (← .step (spanFrom start))
    else return first

def rangeEnd : Script RuleName.rangeEnd.rank (Option Expr) := do
  if rangeGoesOn (← .step peekKind) then some <$> .call .expression else return none

def arrayType : Script RuleName.arrayType.rank DataType := do
  let start ← .step here
  let _ ← .step (expect (.keyword .array))
  let found ← .step dimensions
  let _ ← .step (expect (.keyword .of))
  let temporary ← .step (accept (.keyword .temporary))
  let element ← .guarded .dataType
  return .array found.toList temporary element (← .step (spanFrom start))

def dataType : Script RuleName.dataType.rank DataType := do
  let token ← .step peek
  match token.kind with
  | .keyword .array => .call .arrayType
  | .keyword .textConst => .step textConstType
  | .keyword .dotNet => .step dotNetType
  | .keyword .automation => .step automationType
  | .string =>
    let _ ← .step advance
    return .options token.text token.value token.span
  | .identifier | .keyword .code => .step simpleType
  | .keyword k =>
    if k.isObjectReference || k == .form then .step (referenceType k)
    else .step (throw (.expected "data type" token))
  | _ => .step (throw (.expected "data type" token))

section

variable (n : Nat)

theorem run_expression : expression.run (ruleAt · n) (guardAt n) = (deeper n).expression := by
  cases n <;> rfl

theorem run_wholeExpression : wholeExpression.run (ruleAt · n) (guardAt n) = expressionWith (deeper n) := by
  simp only [wholeExpression, run_bind, run_ite]
  rfl

theorem run_ternary : ternary.run (ruleAt · n) (guardAt n) = ternaryWith (deeper n) := by
  simp only [ternary, run_bind, run_ite]
  rfl

theorem run_disjunction : disjunction.run (ruleAt · n) (guardAt n) = disjunctionWith (deeper n) := run_leftAssoc ..

theorem run_conjunction : conjunction.run (ruleAt · n) (guardAt n) = conjunctionWith (deeper n) := run_leftAssoc ..

theorem run_equality : equality.run (ruleAt · n) (guardAt n) = equalityWith (deeper n) := run_leftAssoc ..

theorem run_relation : relation.run (ruleAt · n) (guardAt n) = relationWith (deeper n) := by
  simp only [relation, run_leftAssoc, run_bind, run_ite]
  rfl

theorem run_sum : sum.run (ruleAt · n) (guardAt n) = sumWith (deeper n) := run_leftAssoc ..

theorem run_product : product.run (ruleAt · n) (guardAt n) = productWith (deeper n) := run_leftAssoc ..

theorem run_unary : unary.run (ruleAt · n) (guardAt n) = unaryWith (deeper n) := by
  refine bind_congr fun token => ?_
  dsimp only
  cases unaryOp? token.kind with
  | none => rfl
  | some op => cases n <;> rfl

theorem run_operand : operand.run (ruleAt · n) (guardAt n) = operandWith (deeper n) := by
  refine bind_congr fun start => bind_congr fun first => congrArg (tryLoop first) (funext fun e => ?_)
  refine bind_congr fun kind => ?_
  dsimp only
  split
  · rfl
  · rfl
  · simp only [run_bind, run_listUpTo]
    rfl
  · simp only [run_bind, run_listUpTo]
    rfl
  · simp only [run_pure]

theorem run_primary : primary.run (ruleAt · n) (guardAt n) = primaryWith (deeper n) := by
  refine bind_congr fun token => ?_
  dsimp only
  generalize token.kind = kind
  split
  · rfl
  · rfl
  · rfl
  · rfl
  · simp only [run_step]

theorem run_parenthesized : parenthesized.run (ruleAt · n) (guardAt n) = parenthesizedWith (deeper n) := rfl

theorem run_setLiteral : setLiteral.run (ruleAt · n) (guardAt n) = setLiteralWith (deeper n) := by
  simp only [setLiteral, run_bind, run_listUpTo]
  rfl

theorem run_element : element.run (ruleAt · n) (guardAt n) = elementWith (deeper n) := by
  simp only [element, run_bind, run_ite]
  rfl

theorem run_rangeEnd : rangeEnd.run (ruleAt · n) (guardAt n) = rangeEndWith (deeper n) := by
  simp only [rangeEnd, run_bind, run_ite, run_map]
  rfl

theorem run_arrayType : arrayType.run (ruleAt · n) (guardAt n) = Rule.arrayType (elementType n) := by
  cases n <;> rfl

theorem run_dataType : dataType.run (ruleAt · n) (guardAt n) = dataTypeWith (elementType n) := by
  refine bind_congr fun token => ?_
  dsimp only
  generalize token.kind = kind
  split
  · rfl
  · rfl
  · rfl
  · rfl
  · rfl
  · rfl
  · rfl
  · simp only [run_ite, run_step]
  · simp only [run_step]

end

end Script

end CalExport.Rule
