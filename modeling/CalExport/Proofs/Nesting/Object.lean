import CalExport.Proofs.Nesting.Declaration

namespace CalExport.Rule

open Text

open RuleName (fromDeclaration guardAt)

namespace Script

def propertyValue : Script RuleName.propertyValue.rank PropertyValue := do
  if ← .step (test triggerStarts) then
    let (locals, body) ← .call .triggerBody
    return .trigger locals body
  else return .text (joinTokens (← .step (raw endsColumn)))

def property : Script RuleName.property.rank Property := do
  let start ← .step here
  let name ← .step propertyName
  let _ ← .step (expect .equal)
  let value ← .call .propertyValue
  let span ← .step (spanFrom start)
  let _ ← .step (accept .semicolon)
  return { name, value, span }

def propertyList : Script RuleName.propertyList.rank (List Property) := collect fun found => do
  let kind ← .step peekKind
  if kind = .eof ∨ kind = .rightBrace then return .done found
  else if kind = .semicolon then
    let _ ← .step advance
    return .yield found
  else
    match ← withRecovery [.semicolon] (.call .property) with
    | some p => return .yield (found.push p)
    | none => return .yield found

def lastProperties : Script RuleName.lastProperties.rank (List Property) := do
  if ← .step (accept .semicolon) then .call .propertyList else return []

def propertiesSection : Script RuleName.propertiesSection.rank (List Property) := do
  let _ ← .step (expect (.keyword .properties))
  let _ ← .step (expect .leftBrace)
  let properties ← .call .propertyList
  let _ ← .step (expect .rightBrace)
  return properties

def fieldColumns : Script RuleName.fieldColumns.rank (Span → Field) := do
  let number ← .step integer
  let _ ← .step (expect .semicolon)
  let fieldClass ← .step column
  let _ ← .step (expect .semicolon)
  let name ← .step fieldName
  let _ ← .step (expect .semicolon)
  let dataType ← .call .dataType
  let all ← .call .lastProperties
  let properties := all.filter fun p => !p.isTrigger
  let triggers := all.filterMap Property.trigger?
  return fun span => { number, fieldClass, name, dataType, properties, triggers, span }

def field : Script RuleName.field.rank Field := do
  let field ← braced (.call .fieldColumns)
  .step (note (((Event.debug "Parsed field").set "field_no" (toString field.number)).set "triggers"
    (toString field.triggers.length)))
  return field

def keyColumns : Script RuleName.keyColumns.rank (Span → Key) := do
  let _ ← .step column
  let _ ← .step (expect .semicolon)
  let fields ← .step nameList
  let properties ← .call .lastProperties
  return fun span => { fields, properties, span }

def key : Script RuleName.key.rank Key := braced (.call .keyColumns)

def sectionOf (depth : Nat) : (head : SectionHead) → Script (RuleName.sectionOf depth head).rank ObjectSection
  | .objectProperties => do
    .step (passSection depth 3)
    return .passed
  | .properties => .properties <$> .call .propertiesSection
  | .fields => .fields <$> bracedSection .fields (.call .field)
  | .keys => .keys <$> bracedSection .keys (.call .key)
  | .fieldGroups => .fieldGroups <$> bracedSection .fieldGroups (.step fieldGroup)
  | .code => .code <$> .call .codeSection
  | .globals => do
    let _ ← .step advance
    return .globals (← .call .variableBlock)
  | .passed => do
    .step (passSection depth 1)
    return .passed

def sections (depth : Nat) : Script (RuleName.sections depth).rank (List ObjectSection) := collect fun found => do
  match ← .step (look sectionHead? : Parse (Option SectionHead)) with
  | none => return .done found
  | some head =>
    let start ← .step here
    match ← .attempt (.call (.sectionOf depth head)) with
    | .ok sec => return .yield (found.push sec)
    | .error fault =>
      .step (report fault)
      .step (skipToSection depth "section recovery")
      if (← .step (passedSince start)) = 0 then return .done found else return .yield found

def objectBody : Script RuleName.objectBody.rank (Span → ExportObject) := do
  let _ ← .step (expect (.keyword .object))
  let kind ← .step objectKind
  let id ← .step integer
  let name ← .step reportedName
  let _ ← .step (expect .leftBrace)
  let depth ← .step depth
  let sections ← .call (.sections depth)
  return .ofSections kind id name sections

def object : Script RuleName.object.rank ExportObject := do
  let start ← .step here
  let value ← .call .objectBody
  .step closingBrace
  return value (← .step (spanFrom start))

def reportedObject : Script RuleName.reportedObject.rank (Option ExportObject) := do
  match ← .attempt (.call .object) with
  | .ok object => return some object
  | .error fault =>
    .step (report fault)
    return none

def document : Script RuleName.document.rank Document := do
  let start ← .step here
  if ← .step atEnd then return { object := none, span := ← .step (spanFrom start) }
  else
    let object ← .call .reportedObject
    .step skipTrailing
    return { object, span := ← .step (spanFrom start) }

variable (n : Nat)

theorem run_propertyValue : propertyValue.run (fromDeclaration n) (guardAt n) = Rule.propertyValue := by
  simp only [propertyValue, run_bind, run_ite]
  rfl

theorem run_property : property.run (fromDeclaration n) (guardAt n) = Rule.property := rfl

theorem run_propertyList : propertyList.run (fromDeclaration n) (guardAt n) = liftM Rule.propertyList := by
  refine run_collect _ _ fun found => ?_
  simp only [propertyRound, liftM_bind, liftM_ite, run_ite, run_bind, run_withRecovery]
  refine bind_congr fun kind => ?_
  split
  · rfl
  · split
    · rfl
    · refine bind_congr fun p? => ?_
      cases p? <;> rfl

theorem run_lastProperties : lastProperties.run (fromDeclaration n) (guardAt n) = liftM Rule.lastProperties := by
  simp only [lastProperties, Rule.lastProperties, liftM_bind, liftM_ite, run_bind, run_ite]
  rfl

theorem run_propertiesSection : propertiesSection.run (fromDeclaration n) (guardAt n) = Rule.propertiesSection := rfl

theorem run_fieldColumns : fieldColumns.run (fromDeclaration n) (guardAt n) = Rule.fieldColumns := rfl

theorem run_field : field.run (fromDeclaration n) (guardAt n) = Rule.field := rfl

theorem run_keyColumns : keyColumns.run (fromDeclaration n) (guardAt n) = Rule.keyColumns := rfl

theorem run_key : key.run (fromDeclaration n) (guardAt n) = Rule.key := rfl

theorem run_sectionOf (depth : Nat) (head : SectionHead) :
    (sectionOf depth head).run (fromDeclaration n) (guardAt n) = sectionRule depth head := by
  cases head with
  | objectProperties | globals | passed => rfl
  | properties | code =>
    rw [sectionOf, run_map]
    rfl
  | fields | keys | fieldGroups =>
    simp only [sectionOf, run_map, run_bracedSection]
    rfl

theorem run_sections (depth : Nat) :
    (sections depth).run (fromDeclaration n) (guardAt n) = liftM (Rule.sections depth) := by
  refine run_collect _ _ fun found => ?_
  rw [sectionRound, liftM_bind]
  refine bind_congr fun head? => ?_
  cases head? with
  | none => rfl
  | some head =>
    simp only [liftM_bind, run_bind]
    refine bind_congr fun start => bind_congr fun result => ?_
    cases result with
    | ok sec => rfl
    | error fault =>
      simp only [liftM_bind, liftM_ite, run_bind, run_ite]
      rfl

theorem run_objectBody : objectBody.run (fromDeclaration n) (guardAt n) = Rule.objectBody := rfl

theorem run_object : object.run (fromDeclaration n) (guardAt n) = Rule.object := rfl

theorem run_reportedObject : reportedObject.run (fromDeclaration n) (guardAt n) = liftM Rule.reportedObject := by
  simp only [reportedObject, Rule.reportedObject, liftM_bind, run_bind]
  refine bind_congr fun result => ?_
  cases result <;> rfl

theorem run_document : document.run (fromDeclaration n) (guardAt n) = liftM Rule.document := by
  simp only [document, Rule.document, liftM_bind, liftM_ite, run_bind, run_ite]
  rfl

end Script

end CalExport.Rule
