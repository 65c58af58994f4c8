import CalExport.Proofs.Nesting.Expression

namespace CalExport.Rule

open Text

open RuleName (ruleAt guardAt)

namespace Script

def statement : Script RuleName.statement.rank Statement := .guarded .statementKind

def assignmentOrCall : Script RuleName.assignmentOrCall.rank Statement := do
  let start ← .step here
  let target ← .call .operand
  match assignOp? (← .step peekKind) with
  | none => return .call target target.span
  | some op =>
    let _ ← .step advance
    let right ← .call .expression
    let value := match op.binary? with
      | some binary => .join binary target right
      | none => right
    return .assign target op value (← .step (spanFrom start))

def exitValue : Script RuleName.exitValue.rank (Option Expr) := do
  if ← .step (accept .leftParen) then
    if ← .step (accept .rightParen) then return none
    else
      let value ← .call .expression
      let _ ← .step (expect .rightParen)
      return some value
  else return none

def exitStatement : Script RuleName.exitStatement.rank Statement := do
  let start ← .step here
  let _ ← .step (expect (.keyword .exit))
  let value ← .call .exitValue
  return .exit value (← .step (spanFrom start))

def counter : Script RuleName.counter.rank Expr := do
  let target ← .call .operand
  match target with
  | .identifier .. | .member _ _ false _ => return target
  | other =>
    .step (report (.invalidForTarget other.span))
    return .placeholder other.span

def statements : Script RuleName.statements.rank (List Statement) := collect fun found => do
  let token ← .step peek
  if endsList token.kind then return .done found
  else if token.kind = .semicolon then
    let _ ← .step advance
    return .yield (found.push (.empty token.span))
  else
    let start ← .step here
    match ← .attempt (.call .statement) with
    | .ok s =>
      .step (separator endsList)
      return .yield (found.push s)
    | .error fault =>
      .step (recoverStatement fault start "statement recovery")
      return .yield found

def body : Script RuleName.body.rank (List Statement) := do
  let _ ← .step (expect (.keyword .begin_))
  let statements ← .call .statements
  let _ ← .step (expect (.keyword .end_))
  return statements

def block : Script RuleName.block.rank Statement := do
  let start ← .step here
  let statements ← .call .body
  return .block statements (← .step (spanFrom start))

def branch : Script RuleName.branch.rank Statement := do
  let next ← .step peek
  if endsBranch next.kind then return .empty (Span.point next.span.start) else .call .statement

def elseBranch : Script RuleName.elseBranch.rank (Option Statement) := do
  if ← .step (accept (.keyword .else_)) then some <$> .call .branch else return none

def ifThen : Script RuleName.ifThen.rank Statement := do
  let start ← .step here
  let _ ← .step (expect (.keyword .if_))
  let condition ← .call .expression
  let _ ← .step (expect (.keyword .then_))
  let thenBranch ← .call .branch
  let elseBranch ← .call .elseBranch
  return .ifThen condition thenBranch elseBranch (← .step (spanFrom start))

def whileDo : Script RuleName.whileDo.rank Statement := do
  let start ← .step here
  let _ ← .step (expect (.keyword .while_))
  let condition ← .call .expression
  let _ ← .step (expect (.keyword .do_))
  let body ← .call .branch
  return .whileDo condition body (← .step (spanFrom start))

def repeatUntil : Script RuleName.repeatUntil.rank Statement := do
  let start ← .step here
  let _ ← .step (expect (.keyword .repeat_))
  let body ← .call .statements
  let _ ← .step (expect (.keyword .until_))
  let condition ← .call .expression
  return .repeatUntil body condition (← .step (spanFrom start))

def forDo : Script RuleName.forDo.rank Statement := do
  let start ← .step here
  let _ ← .step (expect (.keyword .for_))
  let counter ← .call .counter
  let _ ← .step (expect .assign)
  let first ← .call .expression
  let direction ← .step direction
  let last ← .call .expression
  let _ ← .step (expect (.keyword .do_))
  let body ← .call .branch
  return .forDo counter first last direction body (← .step (spanFrom start))

def withDo : Script RuleName.withDo.rank Statement := do
  let start ← .step here
  let _ ← .step (expect (.keyword .with_))
  let record ← .call .expression
  let _ ← .step (expect (.keyword .do_))
  let body ← .call .branch
  return .withDo record body (← .step (spanFrom start))

def caseBranch : Script RuleName.caseBranch.rank CaseBranch := do
  let start ← .step here
  let values ← commaSeparated (.call .element)
  let _ ← .step (expect .colon)
  let branch ← .call .branch
  return .mk values branch (← .step (spanFrom start))

def caseBranches : Script RuleName.caseBranches.rank (List CaseBranch) := collect fun found => do
  let kind ← .step peekKind
  if endsBranches kind then return .done found
  else if kind = .semicolon then
    let _ ← .step advance
    return .yield found
  else
    let start ← .step here
    match ← .attempt (.call .caseBranch) with
    | .ok branch =>
      .step (separator endsBranches)
      return .yield (found.push branch)
    | .error fault =>
      .step (recoverStatement fault start "case branch recovery")
      return .yield found

def otherwise : Script RuleName.otherwise.rank (Option (List Statement)) := do
  if ← .step (accept (.keyword .else_)) then some <$> .call .statements else return none

def caseOf : Script RuleName.caseOf.rank Statement := do
  let start ← .step here
  let _ ← .step (expect (.keyword .case_))
  let subject ← .call .expression
  let _ ← .step (expect (.keyword .of))
  let branches ← .call .caseBranches
  let otherwise ← .call .otherwise
  let _ ← .step (expect (.keyword .end_))
  return .caseOf subject branches otherwise (← .step (spanFrom start))

def statementKind : Script RuleName.statementKind.rank Statement := do
  let token ← .step peek
  match token.kind with
  | .keyword .begin_ => .call .block
  | .keyword .if_ => .call .ifThen
  | .keyword .while_ => .call .whileDo
  | .keyword .repeat_ => .call .repeatUntil
  | .keyword .for_ => .call .forDo
  | .keyword .case_ => .call .caseOf
  | .keyword .exit => .call .exitStatement
  | .keyword .with_ => .call .withDo
  | .keyword .break_ =>
    let _ ← .step advance
    return .break_ token.span
  | .directive =>
    let _ ← .step advance
    .step (report (.foreignConstruct "Preprocessor directive" "a separate object version" token.span))
    return .empty token.span
  | .keyword k =>
    if k.isStatementWord then .step (throw (.expected "statement" token)) else .call .assignmentOrCall
  | _ => .call .assignmentOrCall

end Script

/-- What the rules for statements call where so many levels are left. Expressions are called without their number. -/
def RuleName.fromStatement (n : Nat) : (b : RuleName) → Rule b.Result
  | .expression => Rule.expression
  | .operand => Rule.operand
  | .element => Rule.element
  | b => b.ruleAt n

open RuleName (fromStatement)

namespace Script

variable (n : Nat)

theorem run_statement : statement.run (fromStatement n) (guardAt n) = statementAt n := by
  cases n <;> rfl

theorem run_assignmentOrCall : assignmentOrCall.run (fromStatement n) (guardAt n) = Rule.assignmentOrCall := by
  refine bind_congr fun start => bind_congr fun target => bind_congr fun kind => ?_
  dsimp only
  cases assignOp? kind <;> rfl

theorem run_exitValue : exitValue.run (fromStatement n) (guardAt n) = Rule.exitValue := by
  simp only [exitValue, run_bind, run_ite]
  rfl

theorem run_exitStatement : exitStatement.run (fromStatement n) (guardAt n) = Rule.exitStatement := rfl

theorem run_counter : counter.run (fromStatement n) (guardAt n) = Rule.counter := by
  refine bind_congr fun target => ?_
  dsimp only
  split
  · rfl
  · rfl
  · simp only [run_bind, run_step, run_pure]

theorem run_statements : statements.run (fromStatement n) (guardAt n) = liftM (listWith (statementAt n)) := by
  refine run_collect _ _ fun found => ?_
  simp only [listRound, liftM_bind, liftM_ite, run_ite, run_bind]
  refine bind_congr fun token => ?_
  split
  · rfl
  · split
    · rfl
    · refine bind_congr fun start => bind_congr fun result => ?_
      cases result <;> rfl

theorem run_body : body.run (fromStatement n) (guardAt n) = bodyWith (statementAt n) := rfl

theorem run_block : block.run (fromStatement n) (guardAt n) = blockWith (statementAt n) := rfl

theorem run_branch : branch.run (fromStatement n) (guardAt n) = branchWith (statementAt n) := by
  simp only [branch, run_bind, run_ite]
  rfl

theorem run_elseBranch : elseBranch.run (fromStatement n) (guardAt n) = elseWith (statementAt n) := by
  simp only [elseBranch, run_bind, run_ite, run_map]
  rfl

theorem run_ifThen : ifThen.run (fromStatement n) (guardAt n) = ifWith (statementAt n) := rfl

theorem run_whileDo : whileDo.run (fromStatement n) (guardAt n) = whileWith (statementAt n) := rfl

theorem run_repeatUntil : repeatUntil.run (fromStatement n) (guardAt n) = repeatWith (statementAt n) := rfl

theorem run_forDo : forDo.run (fromStatement n) (guardAt n) = forWith (statementAt n) := rfl

theorem run_withDo : withDo.run (fromStatement n) (guardAt n) = withWith (statementAt n) := rfl

theorem run_caseBranch : caseBranch.run (fromStatement n) (guardAt n) = caseBranchWith (statementAt n) := by
  simp only [caseBranch, run_bind, run_commaSeparated]
  rfl

theorem run_caseBranches :
    caseBranches.run (fromStatement n) (guardAt n) = liftM (caseBranchesWith (statementAt n)) := by
  refine run_collect _ _ fun found => ?_
  simp only [caseBranchRound, liftM_bind, liftM_ite, run_ite, run_bind]
  refine bind_congr fun kind => ?_
  split
  · rfl
  · split
    · rfl
    · refine bind_congr fun start => bind_congr fun result => ?_
      cases result <;> rfl

theorem run_otherwise : otherwise.run (fromStatement n) (guardAt n) = liftM (otherwiseWith (statementAt n)) := by
  simp only [otherwise, otherwiseWith, liftM_bind, liftM_ite, run_bind, run_ite, run_map]
  rfl

theorem run_caseOf : caseOf.run (fromStatement n) (guardAt n) = caseWith (statementAt n) := rfl

theorem run_statementKind : statementKind.run (fromStatement n) (guardAt n) = statementWith (statementAt n) := by
  refine bind_congr fun token => ?_
  dsimp only
  generalize token.kind = kind
  split
  · rfl
  · rfl
  · rfl
  · rfl
  · rfl
  · rfl
  · rfl
  · rfl
  · rfl
  · rfl
  · simp only [run_ite]
    rfl
  · show Rule.assignmentOrCall = _
    simp only

end Script

end CalExport.Rule
