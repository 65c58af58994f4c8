import CalExport.Statement.Basic
import CalExport.Expr.Rule
import CalExport.Rule.Recovery

namespace CalExport.Rule

open Text

/-- Tokens that end a list of statements without being part of it. -/
def endsList : Kind → Bool
  | .keyword .end_ | .keyword .until_ => true
  | .keyword k => k.isDeclarationStart
  | .rightBrace | .eof => true
  | _ => false

def endsBranch : Kind → Bool
  | .semicolon | .keyword .else_ | .keyword .end_ | .keyword .until_ | .rightBrace | .eof => true
  | _ => false

/-- Reports a fault and passes the rest of the statement that began at `start`; some token is passed unless the list
ends here. -/
def recoverStatement (fault : Fault) (start : Nat) (reason : String) : Parse Unit := do
  report fault
  skipStatement
  let kind ← peekKind
  if (← passedSince start) = 0 ∧ !endsList kind then
    let _ ← advance
    recordSkipped start reason

/-- Passes the semicolon behind an item. It may be missing before a token that `ends` the list, and its absence is
reported elsewhere. -/
def separator (ends : Kind → Bool) : Parse Unit := do
  if !(← accept .semicolon) then
    let next ← peek
    if !ends next.kind then report (.missing ";" next)

def assignOp? : Kind → Option AssignOp
  | .assign => some .assign
  | .plusAssign => some .add
  | .minusAssign => some .subtract
  | .timesAssign => some .multiply
  | .divideAssign => some .divide
  | _ => none

def assignmentOrCall : Rule Statement := do
  let start ← here
  let target ← operand
  match assignOp? (← peekKind) with
  | none => return .call target target.span
  | some op =>
    let _ ← advance
    let right ← expression
    let value := match op.binary? with
      | some binary => .join binary target right
      | none => right
    return .assign target op value (← spanFrom start)

def exitValue : Rule (Option Expr) := do
  if ← accept .leftParen then
    if ← accept .rightParen then return none
    else
      let value ← expression
      let _ ← expect .rightParen
      return some value
  else return none

def exitStatement : Rule Statement := do
  let start ← here
  let _ ← expect (.keyword .exit)
  let value ← exitValue
  return .exit value (← spanFrom start)

/-- The counter of a loop. Only a name or a member of a record will do; anything else is reported and replaced. -/
def counter : Rule Expr := do
  let target ← operand
  match target with
  | .identifier .. | .member _ _ false _ => return target
  | other =>
    report (.invalidForTarget other.span)
    return .placeholder other.span

def direction : Rule Direction := do
  if ← accept (.keyword .to) then return .up
  else if ← accept (.keyword .downTo) then return .down
  else throw (.expected "TO or DOWNTO" (← peek))

def endsBranches : Kind → Bool
  | .keyword .else_ => true
  | kind => endsList kind

section

variable (statement : Rule Statement)

def listRound (found : Array Statement) : Parse (ForInStep (Array Statement)) := do
  let token ← peek
  if endsList token.kind then return .done found
  else if token.kind = .semicolon then
    let _ ← advance
    return .yield (found.push (.empty token.span))
  else
    let start ← here
    match ← attempt statement with
    | .ok s =>
      separator endsList
      return .yield (found.push s)
    | .error fault =>
      recoverStatement fault start "statement recovery"
      return .yield found

/-- Statements up to a token that ends the list. One that fails is reported and passed over. -/
def listWith : Parse (List Statement) := do
  return (← loop #[] (listRound statement)).toList

def bodyWith : Rule (List Statement) := do
  let _ ← expect (.keyword .begin_)
  let statements ← listWith statement
  let _ ← expect (.keyword .end_)
  return statements

def blockWith : Rule Statement := do
  let start ← here
  let statements ← bodyWith statement
  return .block statements (← spanFrom start)

def branchWith : Rule Statement := do
  let next ← peek
  if endsBranch next.kind then return .empty (Span.point next.span.start) else statement

def elseWith : Rule (Option Statement) := do
  if ← accept (.keyword .else_) then some <$> branchWith statement else return none

def ifWith : Rule Statement := do
  let start ← here
  let _ ← expect (.keyword .if_)
  let condition ← expression
  let _ ← expect (.keyword .then_)
  let thenBranch ← branchWith statement
  let elseBranch ← elseWith statement
  return .ifThen condition thenBranch elseBranch (← spanFrom start)

def whileWith : Rule Statement := do
  let start ← here
  let _ ← expect (.keyword .while_)
  let condition ← expression
  let _ ← expect (.keyword .do_)
  let body ← branchWith statement
  return .whileDo condition body (← spanFrom start)

def repeatWith : Rule Statement := do
  let start ← here
  let _ ← expect (.keyword .repeat_)
  let body ← listWith statement
  let _ ← expect (.keyword .until_)
  let condition ← expression
  return .repeatUntil body condition (← spanFrom start)

def forWith : Rule Statement := do
  let start ← here
  let _ ← expect (.keyword .for_)
  let counter ← counter
  let _ ← expect .assign
  let first ← expression
  let direction ← direction
  let last ← expression
  let _ ← expect (.keyword .do_)
  let body ← branchWith statement
  return .forDo counter first last direction body (← spanFrom start)

def withWith : Rule Statement := do
  let start ← here
  let _ ← expect (.keyword .with_)
  let record ← expression
  let _ ← expect (.keyword .do_)
  let body ← branchWith statement
  return .withDo record body (← spanFrom start)

def caseBranchWith : Rule CaseBranch := do
  let start ← here
  let values ← commaSeparated element
  let _ ← expect .colon
  let branch ← branchWith statement
  return .mk values branch (← spanFrom start)

def caseBranchRound (found : Array CaseBranch) : Parse (ForInStep (Array CaseBranch)) := do
  let kind ← peekKind
  if endsBranches kind then return .done found
  else if kind = .semicolon then
    let _ ← advance
    return .yield found
  else
    let start ← here
    match ← attempt (caseBranchWith statement) with
    | .ok branch =>
      separator endsBranches
      return .yield (found.push branch)
    | .error fault =>
      recoverStatement fault start "case branch recovery"
      return .yield found

def caseBranchesWith : Parse (List CaseBranch) := do
  return (← loop #[] (caseBranchRound statement)).toList

def otherwiseWith : Parse (Option (List Statement)) := do
  if ← accept (.keyword .else_) then some <$> listWith statement else return none

def caseWith : Rule Statement := do
  let start ← here
  let _ ← expect (.keyword .case_)
  let subject ← expression
  let _ ← expect (.keyword .of)
  let branches ← caseBranchesWith statement
  let otherwise ← otherwiseWith statement
  let _ ← expect (.keyword .end_)
  return .caseOf subject branches otherwise (← spanFrom start)

def statementWith : Rule Statement := do
  let token ← peek
  match token.kind with
  | .keyword .begin_ => blockWith statement
  | .keyword .if_ => ifWith statement
  | .keyword .while_ => whileWith statement
  | .keyword .repeat_ => repeatWith statement
  | .keyword .for_ => forWith statement
  | .keyword .case_ => caseWith statement
  | .keyword .exit => exitStatement
  | .keyword .with_ => withWith statement
  | .keyword .break_ =>
    let _ ← advance
    return .break_ token.span
  | .directive =>
    let _ ← advance
    report (.foreignConstruct "Preprocessor directive" "a separate object version" token.span)
    return .empty token.span
  | .keyword k => if k.isStatementWord then throw (.expected "statement" token) else assignmentOrCall
  | _ => assignmentOrCall

end

def statementAt : Nat → Rule Statement
  | 0 => tooDeep
  | n + 1 => fun s => nested (statementWith (statementAt n)) s

def statement : Rule Statement := fun s => statementAt s.freeLevels s

def statementList : Parse (List Statement) := fun s => listWith (statementAt s.freeLevels) s

def block : Rule Statement := fun s => blockWith (statementAt s.freeLevels) s

def body : Rule (List Statement) := fun s => bodyWith (statementAt s.freeLevels) s

end CalExport.Rule
