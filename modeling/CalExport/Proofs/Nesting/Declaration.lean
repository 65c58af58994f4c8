import CalExport.Proofs.Nesting.Statement

namespace CalExport.Rule

open RuleName (guardAt)

namespace Script

def variableDeclaration : Script RuleName.variableDeclaration.rank Variable := do
  let start ← .step here
  let (name, id) ← .step (declaredName "variable name")
  let _ ← .step (expect .colon)
  let temporary ← .step (accept (.keyword .temporary))
  let dataType ← .call .dataType
  let declared : Variable := { name, id, dataType, temporary, span := ← .step (spanFrom start) }
  let modified ← .step (tryLoop declared modifierRound)
  let span ← .step (spanFrom start)
  .step semicolon
  return { modified with span }

def variableBlock : Script RuleName.variableBlock.rank (List Variable) := collect fun found => do
  match ← .step (look variableHead : Parse VariableHead) with
  | .stop => return .done found
  | .misnamed =>
    .step skipMisnamed
    return .yield found
  | .declared =>
    match ← withRecovery variableRecovery (.call .variableDeclaration) with
    | some v => return .yield (found.push v)
    | none => return .yield found

def optionalVariables : Script RuleName.optionalVariables.rank (List Variable) := do
  if ← .step (accept (.keyword .var)) then .call .variableBlock else return []

def parameter : Script RuleName.parameter.rank Parameter := do
  let start ← .step here
  let byReference ← .step (accept (.keyword .var))
  let (name, id) ← .step (declaredName "parameter name")
  let _ ← .step (expect .colon)
  let temporary ← .step (accept (.keyword .temporary))
  let dataType ← .call .dataType
  let _ ← .step (tryLoop () parameterModifierRound)
  return { name, id, dataType, byReference, temporary, span := ← .step (spanFrom start) }

def parameterList : Script RuleName.parameterList.rank (List Parameter) := do
  let _ ← .step (expect .leftParen)
  let parameters ← .loop (#[] : Array Parameter) fun parameters => do
    if ← .step (test fun s => s.check .rightParen || s.atEnd) then return .done parameters
    else
      let next ← .call .parameter
      if ← .step (accept .semicolon) then return .yield (parameters.push next)
      else if ← .step (accept .comma) then return .yield (parameters.push next)
      else return .done (parameters.push next)
  let _ ← .step (expect .rightParen)
  return parameters.toList

def optionalParameters : Script RuleName.optionalParameters.rank (List Parameter) := do
  if ← .step (check .leftParen) then .call .parameterList else return []

def returnType : Script RuleName.returnType.rank (Option DataType) := do
  if ← .step (accept .colon) then some <$> .call .dataType else return none

def optionalBody : Script RuleName.optionalBody.rank (List Statement) := do
  if ← .step (check (.keyword .begin_)) then .call .body else return []

def procedure : Script RuleName.procedure.rank Procedure := do
  let start ← .step here
  .step skipModifier
  let isLocal ← .step (accept (.keyword .local_))
  .step procedureWord
  let (name, id) ← .step (declaredName "procedure name")
  let parameters ← .call .parameterList
  let returnName ← .step returnName
  let returnType ← .call .returnType
  .step semicolon
  let locals ← .call .optionalVariables
  let body ← .call .optionalBody
  let _ ← .step (accept .semicolon)
  return { name, id, isLocal, parameters, returnType, returnName, locals, body, span := ← .step (spanFrom start) }

def triggerBody : Script RuleName.triggerBody.rank (List Variable × List Statement) := do
  let locals ← .call .optionalVariables
  let body ← .call .body
  return (locals, body)

def trigger : Script RuleName.trigger.rank Trigger := do
  let start ← .step here
  let _ ← .step (expect (.keyword .trigger))
  let name ← .step triggerName
  .step emptyParentheses
  .step semicolon
  let locals ← .call .optionalVariables
  let body ← .call .optionalBody
  let _ ← .step (accept .semicolon)
  return { name, locals, body, span := ← .step (spanFrom start) }

def event : Script RuleName.event.rank EventHandler := do
  let start ← .step here
  let _ ← .step (expect (.keyword .event))
  let subscriber ← .step (numberedName "event subscriber name")
  let _ ← .step (expect .doubleColon)
  let event ← .step (numberedName "event name")
  let parameters ← .call .optionalParameters
  .step semicolon
  let locals ← .call .optionalVariables
  let body ← .call .optionalBody
  let _ ← .step (accept .semicolon)
  return { subscriber, event, parameters, locals, body, span := ← .step (spanFrom start) }

def declaration : Script RuleName.declaration.rank CodeItem := do
  let token ← .step peek
  match token.kind with
  | .keyword .trigger => .trigger <$> .call .trigger
  | .keyword .event => .event <$> .call .event
  | .keyword k =>
    if k.isDeclarationStart then .procedure <$> .call .procedure
    else .step (throw (.expected "declaration" token))
  | _ =>
    if ← .step (test modifierFollows) then .procedure <$> .call .procedure
    else .step (throw (.expected "declaration" token))

def codeItems (depth : Nat) : Script (RuleName.codeItems depth).rank (List CodeItem) := collect fun items => do
  match ← .step (look codeHead : Parse CodeHead) with
  | .stop => return .done items
  | .globals =>
    let _ ← .step advance
    return .yield (items.push (.globals (← .call .variableBlock)))
  | .attributes =>
    .step skipAttributes
    return .yield items
  | .documentation =>
    let _ ← .step (advanceBy 3)
    return .yield items
  | .declaration =>
    let start ← .step here
    match ← .attempt (.call .declaration) with
    | .ok item => return .yield (items.push item)
    | .error fault =>
      .step (recoverDeclaration fault start depth)
      return .yield items

def codeSection : Script RuleName.codeSection.rank CodeSection := do
  let start ← .step here
  let _ ← .step (expect (.keyword .code))
  let _ ← .step (expect .leftBrace)
  let depth ← .step depth
  let items ← .call (.codeItems depth)
  let _ ← .step (expect .rightBrace)
  return .ofItems items (← .step (spanFrom start))

end Script

/-- What the rules for declarations and objects call where so many levels are left. Types and bodies are called without
their number. -/
def RuleName.fromDeclaration (n : Nat) : (b : RuleName) → Rule b.Result
  | .dataType => Rule.dataType
  | .body => Rule.body
  | b => b.ruleAt n

open RuleName (fromDeclaration)

namespace Script

variable (n : Nat)

theorem run_variableDeclaration :
    variableDeclaration.run (fromDeclaration n) (guardAt n) = Rule.variableDeclaration := rfl

theorem run_variableBlock : variableBlock.run (fromDeclaration n) (guardAt n) = liftM Rule.variableBlock := by
  refine run_collect _ _ fun found => ?_
  rw [variableRound, liftM_bind]
  refine bind_congr fun head => ?_
  cases head with
  | stop => rfl
  | misnamed => rfl
  | declared =>
    simp only [liftM_bind, run_bind, run_withRecovery]
    refine bind_congr fun v? => ?_
    cases v? <;> rfl

theorem run_optionalVariables :
    optionalVariables.run (fromDeclaration n) (guardAt n) = liftM Rule.optionalVariables := by
  simp only [optionalVariables, Rule.optionalVariables, liftM_bind, liftM_ite, run_bind, run_ite]
  rfl

theorem run_parameter : parameter.run (fromDeclaration n) (guardAt n) = Rule.parameter := rfl

theorem run_parameterList : parameterList.run (fromDeclaration n) (guardAt n) = Rule.parameterList := by
  simp only [parameterList, run_bind, run_loop, run_ite]
  rfl

theorem run_optionalParameters : optionalParameters.run (fromDeclaration n) (guardAt n) = Rule.optionalParameters := by
  simp only [optionalParameters, run_bind, run_ite]
  rfl

theorem run_returnType : returnType.run (fromDeclaration n) (guardAt n) = Rule.returnType := by
  simp only [returnType, run_bind, run_ite, run_map]
  rfl

theorem run_optionalBody : optionalBody.run (fromDeclaration n) (guardAt n) = Rule.optionalBody := by
  simp only [optionalBody, run_bind, run_ite]
  rfl

theorem run_procedure : procedure.run (fromDeclaration n) (guardAt n) = Rule.procedure := rfl

theorem run_triggerBody : triggerBody.run (fromDeclaration n) (guardAt n) = Rule.triggerBody := rfl

theorem run_trigger : trigger.run (fromDeclaration n) (guardAt n) = Rule.trigger := rfl

theorem run_event : event.run (fromDeclaration n) (guardAt n) = Rule.event := rfl

theorem run_declaration : declaration.run (fromDeclaration n) (guardAt n) = Rule.declaration := by
  refine bind_congr fun token => ?_
  dsimp only
  generalize token.kind = kind
  split
  · rfl
  · rfl
  · simp only [run_ite]
    rfl
  · simp only [run_bind, run_ite]
    rfl

theorem run_codeItems (depth : Nat) :
    (codeItems depth).run (fromDeclaration n) (guardAt n) = liftM (Rule.codeItems depth) := by
  refine run_collect _ _ fun items => ?_
  rw [codeRound, liftM_bind]
  refine bind_congr fun head => ?_
  cases head with
  | stop | globals | attributes | documentation => rfl
  | declaration =>
    simp only [liftM_bind, run_bind]
    refine bind_congr fun start => bind_congr fun result => ?_
    cases result <;> rfl

theorem run_codeSection : codeSection.run (fromDeclaration n) (guardAt n) = Rule.codeSection := rfl

end Script

end CalExport.Rule
