import CalExport.Declaration.Basic
import CalExport.DataType.Rule
import CalExport.Statement.Rule

namespace CalExport.Rule

def variableRecovery : List Kind :=
  [.semicolon, .keyword .begin_, .keyword .procedure, .keyword .function, .keyword .local_, .keyword .trigger,
   .keyword .event]

def variablesEnd (s : Parser) : Bool :=
  match s.peek.kind with
  | .keyword k => k.isDeclarationStart || sectionStarts s
  | .rightBrace | .eof => true
  | _ => false

def filteringMode : Rule String := do
  let _ ← expect .leftParen
  let token ← peek
  if token.kind.canName then
    let _ ← advance
    let _ ← expect .rightParen
    return token.value
  else throw (.expected "security filtering mode" token)

def modifierRound (v : Variable) : Rule (ForInStep Variable) := do
  match ← peekKind with
  | .keyword .inDataSet =>
    let _ ← advance
    return .yield { v with inDataSet := true }
  | .keyword .withEvents =>
    let _ ← advance
    return .yield { v with withEvents := true }
  | .keyword .runOnClient =>
    let _ ← advance
    return .yield { v with runOnClient := true }
  | .keyword .securityFiltering =>
    let _ ← advance
    let mode ← filteringMode
    return .yield { v with securityFiltering := some mode }
  | _ => return .done v

/-- `Name@n : [TEMPORARY] Type` and what may stand behind it, up to the semicolon. -/
def variableDeclaration : Rule Variable := do
  let start ← here
  let (name, id) ← declaredName "variable name"
  let _ ← expect .colon
  let temporary ← accept (.keyword .temporary)
  let dataType ← dataType
  let declared : Variable := { name, id, dataType, temporary, span := ← spanFrom start }
  let modified ← tryLoop declared modifierRound
  let span ← spanFrom start
  semicolon
  return { modified with span }

def misnamed (token : Token) : Fault :=
  match token.kind with
  | .keyword k => .reservedKeyword k "variable name" token.span
  | _ => .expected "variable name" token

def skipMisnamedRound (_ : Unit) : Parse (ForInStep Unit) := do
  if ← atEnd then return .done ()
  else if ← accept .semicolon then return .done ()
  else if ← test fun s => s.check (.keyword .begin_) || variablesEnd s then return .done ()
  else
    let _ ← advance
    return .yield ()

def skipMisnamed : Parse Unit := do
  report (misnamed (← peek))
  let start ← here
  let _ ← advance
  loop () skipMisnamedRound
  recordSkipped start "misnamed declaration"

inductive VariableHead where
  | declared | misnamed | stop
deriving DecidableEq, Repr

def variableHead (s : Parser) : VariableHead :=
  if variablesEnd s then .stop
  else if s.peek.kind.canName then .declared
  else if declarationFollows s then .misnamed
  else .stop

def variableRound (found : Array Variable) : Parse (ForInStep (Array Variable)) := do
  match ← look variableHead with
  | .stop => return .done found
  | .misnamed =>
    skipMisnamed
    return .yield found
  | .declared =>
    match ← withRecovery variableRecovery variableDeclaration with
    | some v => return .yield (found.push v)
    | none => return .yield found

/-- The declarations behind VAR, up to a token that cannot begin one. -/
def variableBlock : Parse (List Variable) := do
  return (← loop #[] variableRound).toList

def optionalVariables : Parse (List Variable) := do
  if ← accept (.keyword .var) then variableBlock else return []

def parameterModifierRound (_ : Unit) : Rule (ForInStep Unit) := do
  match ← peekKind with
  | .keyword .withEvents | .keyword .runOnClient =>
    let _ ← advance
    return .yield ()
  | .keyword .securityFiltering =>
    let _ ← advance
    let _ ← filteringMode
    return .yield ()
  | _ => return .done ()

/-- `[VAR] Name@n : [TEMPORARY] Type`; modifiers behind it are accepted and not kept. -/
def parameter : Rule Parameter := do
  let start ← here
  let byReference ← accept (.keyword .var)
  let (name, id) ← declaredName "parameter name"
  let _ ← expect .colon
  let temporary ← accept (.keyword .temporary)
  let dataType ← dataType
  let _ ← tryLoop () parameterModifierRound
  return { name, id, dataType, byReference, temporary, span := ← spanFrom start }

def parameterRound (parameters : Array Parameter) : Rule (ForInStep (Array Parameter)) := do
  if ← test fun s => s.check .rightParen || s.atEnd then return .done parameters
  else
    let next ← parameter
    if ← accept .semicolon then return .yield (parameters.push next)
    else if ← accept .comma then return .yield (parameters.push next)
    else return .done (parameters.push next)

def parameterList : Rule (List Parameter) := do
  let _ ← expect .leftParen
  let parameters ← tryLoop #[] parameterRound
  let _ ← expect .rightParen
  return parameters.toList

def modifierFollows (s : Parser) : Bool :=
  s.peek.kind == .identifier && (foreignModifier? s.peek.text).isSome
    && match (s.peekAhead 1).kind with
      | .keyword .procedure | .keyword .function | .keyword .local_ => true
      | _ => false

def skipModifier : Parse Unit := do
  if ← test modifierFollows then
    let modifier ← advance
    match foreignModifier? modifier.text with
    | some (_, instead) => report (.foreignConstruct "AL access modifier" instead modifier.span)
    | none => return

def optionalBody : Rule (List Statement) := do
  if ← check (.keyword .begin_) then body else return []

def returnNameFollows (s : Parser) : Bool := s.peek.kind.canName && declarationFollows s

def returnName : Rule (Option String) := do
  if ← test returnNameFollows then return some (← declaredName "return value name").1 else return none

def returnType : Rule (Option DataType) := do
  if ← accept .colon then some <$> dataType else return none

def procedureWord : Rule Unit := do
  if ← accept (.keyword .procedure) then return ()
  else
    let _ ← expect (.keyword .function)

def procedure : Rule Procedure := do
  let start ← here
  skipModifier
  let isLocal ← accept (.keyword .local_)
  procedureWord
  let (name, id) ← declaredName "procedure name"
  let parameters ← parameterList
  let returnName ← returnName
  let returnType ← returnType
  semicolon
  let locals ← optionalVariables
  let body ← optionalBody
  let _ ← accept .semicolon
  return { name, id, isLocal, parameters, returnType, returnName, locals, body, span := ← spanFrom start }

def triggerBody : Rule (List Variable × List Statement) := do
  let locals ← optionalVariables
  let body ← body
  return (locals, body)

def triggerName : Rule String := do
  let token ← peek
  let (name, _) ← declaredName "trigger name"
  if isKnownTrigger name then return name
  else
    report (.unknownTrigger token.description token.span)
    return name

def emptyParentheses : Rule Unit := do
  if ← accept .leftParen then
    let _ ← expect .rightParen

def trigger : Rule Trigger := do
  let start ← here
  let _ ← expect (.keyword .trigger)
  let name ← triggerName
  emptyParentheses
  semicolon
  let locals ← optionalVariables
  let body ← optionalBody
  let _ ← accept .semicolon
  return { name, locals, body, span := ← spanFrom start }

def numberedName (role : String) : Rule String := do
  let token ← peek
  if token.kind.canName then
    let _ ← advance
    match ← autoNumber with
    | some number => return token.value ++ "@" ++ toString number
    | none => return token.value
  else throw (.expected role token)

def optionalParameters : Rule (List Parameter) := do
  if ← check .leftParen then parameterList else return []

def event : Rule EventHandler := do
  let start ← here
  let _ ← expect (.keyword .event)
  let subscriber ← numberedName "event subscriber name"
  let _ ← expect .doubleColon
  let event ← numberedName "event name"
  let parameters ← optionalParameters
  semicolon
  let locals ← optionalVariables
  let body ← optionalBody
  let _ ← accept .semicolon
  return { subscriber, event, parameters, locals, body, span := ← spanFrom start }

def skipAttributeRound (depth : Nat) : Parse (ForInStep Nat) := do
  if ← atEnd then return .done depth
  else
    match (← advance).kind with
    | .leftBracket => return .yield (depth + 1)
    | .rightBracket => return if depth ≤ 1 then .done 0 else .yield (depth - 1)
    | _ => return .yield depth

def skipAttributes : Parse Unit := do
  let start ← here
  let _ ← loop 0 skipAttributeRound
  note ((Event.debug "Skipped attribute list").set "tokens" (toString (← passedSince start)))

def recoverDeclaration (fault : Fault) (start depth : Nat) : Parse Unit := do
  report fault
  forceProgress start
  skipDeclaration depth
  let count ← passedSince start
  if 0 < count then
    note ((Event.debug "Recovered from malformed declaration").set "tokens" (toString count))

def declaration : Rule CodeItem := do
  let token ← peek
  match token.kind with
  | .keyword .trigger => .trigger <$> trigger
  | .keyword .event => .event <$> event
  | .keyword k =>
    if k.isDeclarationStart then .procedure <$> procedure else throw (.expected "declaration" token)
  | _ => if ← test modifierFollows then .procedure <$> procedure else throw (.expected "declaration" token)

inductive CodeHead where
  | globals | attributes | documentation | declaration | stop
deriving DecidableEq, Repr

def codeHead (s : Parser) : CodeHead :=
  match s.peek.kind with
  | .eof | .rightBrace => .stop
  | .keyword .var => .globals
  | .leftBracket => .attributes
  | _ => if documentationStarts s then .documentation else .declaration

def codeRound (depth : Nat) (items : Array CodeItem) : Parse (ForInStep (Array CodeItem)) := do
  match ← look codeHead with
  | .stop => return .done items
  | .globals =>
    let _ ← advance
    return .yield (items.push (.globals (← variableBlock)))
  | .attributes =>
    skipAttributes
    return .yield items
  | .documentation =>
    let _ ← advanceBy 3
    return .yield items
  | .declaration =>
    let start ← here
    match ← attempt declaration with
    | .ok item => return .yield (items.push item)
    | .error fault =>
      recoverDeclaration fault start depth
      return .yield items

def codeItems (depth : Nat) : Parse (List CodeItem) := do
  return (← loop #[] (codeRound depth)).toList

def codeSection : Rule CodeSection := do
  let start ← here
  let _ ← expect (.keyword .code)
  let _ ← expect .leftBrace
  let items ← codeItems (← depth)
  let _ ← expect .rightBrace
  return .ofItems items (← spanFrom start)

end CalExport.Rule
