import CalExport.Object.Basic
import CalExport.Declaration.Rule

namespace CalExport.Rule

open Text

def maxPropertyNameTokens : Nat := 5

def missingFieldName : String := "<missing>"

def endsPropertyName : Kind → Bool
  | .equal | .semicolon | .leftBrace | .rightBrace | .eof => true
  | _ => false

def nameLength (s : Parser) : Nat → Nat
  | 0 => 0
  | n + 1 =>
    let before := nameLength s n
    if before = n ∧ !endsPropertyName (s.peekAhead n).kind then n + 1 else before

def propertyNameLength? (s : Parser) : Option Nat :=
  let length := nameLength s maxPropertyNameTokens
  if length = 0 ∨ (s.peekAhead length).kind ≠ .equal then none else some length

def nameText : List Token → String
  | [token] => token.value
  | tokens => joinTokens tokens

def propertyName : Rule String := do
  match ← (look propertyNameLength? : Parse (Option Nat)) with
  | none => throw (.expected "property name" (← peek))
  | some length => return nameText (← advanceBy length)

/-- Whether a value is a trigger: it begins with VAR, or with a BEGIN that ends its line or stands before END. -/
def triggerStarts (s : Parser) : Bool :=
  match s.peek.kind with
  | .keyword .var => true
  | .keyword .begin_ =>
    let next := s.peekAhead 1
    next.kind == .eof || next.kind == .keyword .end_ || s.peek.span.stop.line < next.span.start.line
  | _ => false

def propertyValue : Rule PropertyValue := do
  if ← test triggerStarts then
    let (locals, body) ← triggerBody
    return .trigger locals body
  else return .text (joinTokens (← raw endsColumn))

def property : Rule Property := do
  let start ← here
  let name ← propertyName
  let _ ← expect .equal
  let value ← propertyValue
  let span ← spanFrom start
  let _ ← accept .semicolon
  return { name, value, span }

def propertyRound (found : Array Property) : Parse (ForInStep (Array Property)) := do
  let kind ← peekKind
  if kind = .eof ∨ kind = .rightBrace then return .done found
  else if kind = .semicolon then
    let _ ← advance
    return .yield found
  else
    match ← withRecovery [.semicolon] property with
    | some p => return .yield (found.push p)
    | none => return .yield found

def propertyList : Parse (List Property) := do
  return (← loop #[] propertyRound).toList

def propertiesSection : Rule (List Property) := do
  let _ ← expect (.keyword .properties)
  let _ ← expect .leftBrace
  let properties ← propertyList
  let _ ← expect .rightBrace
  return properties

def skipStray : Parse Unit := do
  report (.expected "'\x7b'" (← peek))
  let start ← here
  skipWhile fun s => !s.check .leftBrace && !s.check .rightBrace
  recordSkipped start "stray tokens between entries"

def entryRound (item : Rule α) (found : Array α) : Parse (ForInStep (Array α)) := do
  let kind ← peekKind
  if kind = .eof ∨ kind = .rightBrace then return .done found
  else if kind = .leftBrace then
    match ← withRecovery [.leftBrace] item with
    | some entry => return .yield (found.push entry)
    | none => return .yield found
  else
    skipStray
    return .yield found

def bracedEntries (item : Rule α) : Parse (List α) := do
  return (← loop #[] (entryRound item)).toList

def bracedSection (keyword : Keyword) (item : Rule α) : Rule (List α) := do
  let _ ← expect (.keyword keyword)
  let _ ← expect .leftBrace
  let entries ← bracedEntries item
  let _ ← expect .rightBrace
  return entries

def column : Parse String := do return trimmed (joinTokens (← raw endsColumn))

def quotedBefore (kind : Kind) (s : Parser) : Bool := s.check .quotedIdentifier && s.checkNext kind

def nameColumn : Parse String := do
  if ← test (quotedBefore .semicolon) then return (← advance).value else column

def fieldName : Parse String := do
  let first ← peek
  let name ← nameColumn
  if name.isEmpty then
    report (.missingName "field" first.span)
    return missingFieldName
  else return name

def braced (contents : Rule (Span → α)) : Rule α := do
  let start ← here
  let _ ← expect .leftBrace
  let value ← contents
  let _ ← expect .rightBrace
  return value (← spanFrom start)

def lastProperties : Parse (List Property) := do
  if ← accept .semicolon then propertyList else return []

def fieldColumns : Rule (Span → Field) := do
  let number ← integer
  let _ ← expect .semicolon
  let fieldClass ← column
  let _ ← expect .semicolon
  let name ← fieldName
  let _ ← expect .semicolon
  let dataType ← dataType
  let all ← lastProperties
  let properties := all.filter fun p => !p.isTrigger
  let triggers := all.filterMap Property.trigger?
  return fun span => { number, fieldClass, name, dataType, properties, triggers, span }

def field : Rule Field := do
  let field ← braced fieldColumns
  note (((Event.debug "Parsed field").set "field_no" (toString field.number)).set "triggers"
    (toString field.triggers.length))
  return field

/-- Splits tokens at the commas outside parentheses and brackets. `part` is the piece before, last token first. -/
def splitCommas (part : List Token) (depth : Nat) : List Token → List (List Token)
  | [] => [part.reverse]
  | t :: rest =>
    match t.kind with
    | .leftParen | .leftBracket => splitCommas (t :: part) (depth + 1) rest
    | .rightParen | .rightBracket => splitCommas (t :: part) (depth - 1) rest
    | .comma => if depth = 0 then part.reverse :: splitCommas [] 0 rest else splitCommas (t :: part) depth rest
    | _ => splitCommas (t :: part) depth rest

def splitNames (tokens : List Token) : List String :=
  ((splitCommas [] 0 tokens).map fun part => trimmed (joinTokens part)).filter fun name => !name.isEmpty

def nameList : Parse (List String) := do return splitNames (← raw endsColumn)

def keyColumns : Rule (Span → Key) := do
  let _ ← column
  let _ ← expect .semicolon
  let fields ← nameList
  let properties ← lastProperties
  return fun span => { fields, properties, span }

def key : Rule Key := braced keyColumns

def fieldGroupColumns : Rule (Span → FieldGroup) := do
  let id ← integer
  let _ ← expect .semicolon
  let name ← column
  let _ ← expect .semicolon
  let fields ← nameList
  let _ ← accept .semicolon
  return fun span => { id, name, fields, span }

def fieldGroup : Rule FieldGroup := braced fieldGroupColumns

def passSection (depth headingLength : Nat) : Parse Unit := do
  let start ← here
  let heading ← advanceBy headingLength
  skipToSection depth "unsupported section"
  note (((Event.success .sectionSkipped "Skipped section without tree representation").set "section"
    (joinTokens heading)).set "tokens" (toString (← passedSince start)))

def objectPropertiesStart (s : Parser) : Bool :=
  (s.peekAhead 1).kind == .minus && (s.peekAhead 2).kind == .keyword .properties

inductive SectionHead where
  | objectProperties | properties | fields | keys | fieldGroups | code | globals | passed
deriving DecidableEq, Repr

def sectionHead? (s : Parser) : Option SectionHead :=
  match s.peek.kind with
  | .keyword .object => if objectPropertiesStart s then some .objectProperties else none
  | .keyword .properties => some .properties
  | .keyword .fields => some .fields
  | .keyword .keys => some .keys
  | .keyword .fieldGroups => some .fieldGroups
  | .keyword .code => if s.checkNext .leftBrace then some .code else none
  | .keyword .var => some .globals
  | .keyword k => if k.isPassedSection then some .passed else none
  | _ => none

def sectionRule (depth : Nat) : SectionHead → Rule ObjectSection
  | .objectProperties => do
    passSection depth 3
    return .passed
  | .properties => .properties <$> propertiesSection
  | .fields => .fields <$> bracedSection .fields field
  | .keys => .keys <$> bracedSection .keys key
  | .fieldGroups => .fieldGroups <$> bracedSection .fieldGroups fieldGroup
  | .code => .code <$> codeSection
  | .globals => do
    let _ ← advance
    return .globals (← variableBlock)
  | .passed => do
    passSection depth 1
    return .passed

def sectionRound (depth : Nat) (found : Array ObjectSection) : Parse (ForInStep (Array ObjectSection)) := do
  match ← look sectionHead? with
  | none => return .done found
  | some head =>
    let start ← here
    match ← attempt (sectionRule depth head) with
    | .ok sec => return .yield (found.push sec)
    | .error fault =>
      report fault
      skipToSection depth "section recovery"
      if (← passedSince start) = 0 then return .done found else return .yield found

def sections (depth : Nat) : Parse (List ObjectSection) := do
  return (← loop #[] (sectionRound depth)).toList

def objectNameRound (tokens : Array Token) : Parse (ForInStep (Array Token)) := do
  if ← test fun s => s.atEnd || s.check .leftBrace then return .done tokens
  else return .yield (tokens.push (← advance))

def objectName : Parse String := do
  if ← test (quotedBefore .leftBrace) then return (← advance).value
  else return trimmed (joinTokens (← loop #[] objectNameRound).toList)

def reportedName : Parse String := do
  let name ← objectName
  if name.isEmpty then
    report (.missingName "object" (← peek).span)
    return name
  else return name

def objectKind : Rule ObjectKind := do
  let token ← peek
  match token.kind.keyword? >>= ObjectKind.ofKeyword? with
  | none => throw (.expected "object type" token)
  | some kind =>
    let _ ← advance
    return kind

/-- `OBJECT kind id name {` and the sections behind it, of a value that keeps the span of the whole. -/
def objectBody : Rule (Span → ExportObject) := do
  let _ ← expect (.keyword .object)
  let kind ← objectKind
  let id ← integer
  let name ← reportedName
  let _ ← expect .leftBrace
  let sections ← sections (← depth)
  return .ofSections kind id name sections

def closingBrace : Parse Unit := do
  if !(← accept .rightBrace) then report (.expected "'\x7d' closing the object" (← peek))

def object : Rule ExportObject := do
  let start ← here
  let value ← objectBody
  closingBrace
  return value (← spanFrom start)

def skipTrailing : Parse Unit := do
  if !(← atEnd) then
    report (.expected "end of input" (← peek))
    let start ← here
    skipWhile fun _ => true
    recordSkipped start "trailing input"

def reportedObject : Parse (Option ExportObject) := do
  match ← attempt object with
  | .ok object => return some object
  | .error fault =>
    report fault
    return none

/-- A whole document. What is wrong with it ends up in the diagnostics. -/
def document : Parse Document := do
  let start ← here
  if ← atEnd then return { object := none, span := ← spanFrom start }
  else
    let object ← reportedObject
    skipTrailing
    return { object, span := ← spanFrom start }

end CalExport.Rule
