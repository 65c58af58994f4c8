import CalExport.Object.Basic

namespace CalExport

abbrev Under {α β : Type} (f : α → β) (a b : α) : Prop := f a = f b

def Literal.mapText (f : String → String) : Literal → Literal
  | .integer value => .integer value
  | .decimal value => .decimal value
  | .string value => .string (f value)
  | .boolean value => .boolean value
  | .date digits => .date (f digits)
  | .time digits => .time (f digits)
  | .dateTime digits => .dateTime (f digits)

namespace Expr

mutual

def mapText (f : String → String) : Expr → Expr
  | .identifier name span => .identifier (f name) span
  | .literal value text span => .literal (value.mapText f) (f text) span
  | .binary op left right span => .binary op (left.mapText f) (right.mapText f) span
  | .unary op operand span => .unary op (operand.mapText f) span
  | .member object name qualified span => .member (object.mapText f) (f name) qualified span
  | .call callee arguments span => .call (callee.mapText f) (mapTexts f arguments) span
  | .index array indices span => .index (array.mapText f) (mapTexts f indices) span
  | .set elements span => .set (mapTexts f elements) span
  | .range first last span => .range (mapBound f first) (mapBound f last) span

def mapTexts (f : String → String) : List Expr → List Expr
  | [] => []
  | e :: rest => e.mapText f :: mapTexts f rest

def mapBound (f : String → String) : Option Expr → Option Expr
  | none => none
  | some e => some (e.mapText f)

end

variable (f : String → String)

@[simp] theorem mapTexts_eq (es : List Expr) : mapTexts f es = es.map (mapText f) := by
  induction es with
  | nil => rfl
  | cons e es ih => simp [mapTexts, ih]

@[simp] theorem mapBound_eq (bound : Option Expr) : mapBound f bound = bound.map (mapText f) := by
  cases bound <;> rfl

@[simp] theorem span_mapText (e : Expr) : (e.mapText f).span = e.span := by
  cases e <;> rfl

theorem span_eq {f : String → String} {e e' : Expr} (h : Under (mapText f) e e') : e.span = e'.span := by
  rw [← span_mapText f e, h, span_mapText]

end Expr

namespace Statement

mutual

def mapText (f : String → String) : Statement → Statement
  | .block statements span => .block (mapTexts f statements) span
  | .ifThen condition thenBranch elseBranch span =>
    .ifThen (condition.mapText f) (thenBranch.mapText f) (mapElse f elseBranch) span
  | .whileDo condition body span => .whileDo (condition.mapText f) (body.mapText f) span
  | .repeatUntil body condition span => .repeatUntil (mapTexts f body) (condition.mapText f) span
  | .forDo counter first last direction body span =>
    .forDo (counter.mapText f) (first.mapText f) (last.mapText f) direction (body.mapText f) span
  | .caseOf subject branches otherwise span =>
    .caseOf (subject.mapText f) (mapBranches f branches) (mapOtherwise f otherwise) span
  | .exit value span => .exit (value.map (Expr.mapText f)) span
  | .break_ span => .break_ span
  | .withDo record body span => .withDo (record.mapText f) (body.mapText f) span
  | .assign target op value span => .assign (target.mapText f) op (value.mapText f) span
  | .call expression span => .call (expression.mapText f) span
  | .empty span => .empty span

def mapBranch (f : String → String) : CaseBranch → CaseBranch
  | .mk values statement span => .mk (values.map (Expr.mapText f)) (statement.mapText f) span

def mapTexts (f : String → String) : List Statement → List Statement
  | [] => []
  | s :: rest => s.mapText f :: mapTexts f rest

def mapElse (f : String → String) : Option Statement → Option Statement
  | none => none
  | some s => some (s.mapText f)

def mapOtherwise (f : String → String) : Option (List Statement) → Option (List Statement)
  | none => none
  | some statements => some (mapTexts f statements)

def mapBranches (f : String → String) : List CaseBranch → List CaseBranch
  | [] => []
  | branch :: rest => mapBranch f branch :: mapBranches f rest

end

variable (f : String → String)

@[simp] theorem mapTexts_eq (statements : List Statement) : mapTexts f statements = statements.map (mapText f) := by
  induction statements with
  | nil => rfl
  | cons s statements ih => simp [mapTexts, ih]

@[simp] theorem mapElse_eq (branch : Option Statement) : mapElse f branch = branch.map (mapText f) := by
  cases branch <;> rfl

@[simp] theorem mapOtherwise_eq (otherwise : Option (List Statement)) :
    mapOtherwise f otherwise = otherwise.map (List.map (mapText f)) := by
  cases otherwise <;> simp [mapOtherwise]

@[simp] theorem mapBranches_eq (branches : List CaseBranch) :
    mapBranches f branches = branches.map (mapBranch f) := by
  induction branches with
  | nil => rfl
  | cons branch branches ih => simp [mapBranches, ih]

end Statement

def DotNetInfo.mapText (f : String → String) (info : DotNetInfo) : DotNetInfo := ⟨f info.assembly, f info.typeName⟩

def AutomationInfo.mapText (f : String → String) (info : AutomationInfo) : AutomationInfo :=
  ⟨f info.typeLib, f info.version, f info.classId, f info.library, f info.className⟩

def DataType.mapText (f : String → String) : DataType → DataType
  | .simple name length span => .simple (f name) length span
  | .reference target id span => .reference target id span
  | .array dimensions temporary element span => .array dimensions temporary (element.mapText f) span
  | .textConst span => .textConst span
  | .dotNet info span => .dotNet (info.map (DotNetInfo.mapText f)) span
  | .automation info span => .automation (info.map (AutomationInfo.mapText f)) span
  | .options literal value span => .options (f literal) (f value) span

def Variable.mapText (f : String → String) (v : Variable) : Variable :=
  { v with
    name := f v.name
    dataType := v.dataType.mapText f
    securityFiltering := v.securityFiltering.map f }

def Parameter.mapText (f : String → String) (p : Parameter) : Parameter :=
  { p with name := f p.name, dataType := p.dataType.mapText f }

def Procedure.mapText (f : String → String) (p : Procedure) : Procedure :=
  { p with
    name := f p.name
    parameters := p.parameters.map (Parameter.mapText f)
    returnType := p.returnType.map (DataType.mapText f)
    returnName := p.returnName.map f
    locals := p.locals.map (Variable.mapText f)
    body := p.body.map (Statement.mapText f) }

def Trigger.mapText (f : String → String) (t : Trigger) : Trigger :=
  { t with
    name := f t.name
    locals := t.locals.map (Variable.mapText f)
    body := t.body.map (Statement.mapText f) }

def EventHandler.mapText (f : String → String) (e : EventHandler) : EventHandler :=
  { e with
    subscriber := f e.subscriber
    event := f e.event
    parameters := e.parameters.map (Parameter.mapText f)
    locals := e.locals.map (Variable.mapText f)
    body := e.body.map (Statement.mapText f) }

def CodeSection.mapText (f : String → String) (c : CodeSection) : CodeSection :=
  { c with
    globals := c.globals.map (Variable.mapText f)
    procedures := c.procedures.map (Procedure.mapText f)
    triggers := c.triggers.map (Trigger.mapText f)
    events := c.events.map (EventHandler.mapText f) }

namespace CodeItem

def mapText (f : String → String) : CodeItem → CodeItem
  | .globals declared => .globals (declared.map (Variable.mapText f))
  | .procedure p => .procedure (p.mapText f)
  | .trigger t => .trigger (t.mapText f)
  | .event e => .event (e.mapText f)

variable (f : String → String) (item : CodeItem)

theorem globals_mapText : (item.mapText f).globals? = item.globals?.map (Variable.mapText f) := by
  cases item <;> rfl

theorem procedure_mapText : (item.mapText f).procedure? = item.procedure?.map (Procedure.mapText f) := by
  cases item <;> rfl

theorem trigger_mapText : (item.mapText f).trigger? = item.trigger?.map (Trigger.mapText f) := by
  cases item <;> rfl

theorem event_mapText : (item.mapText f).event? = item.event?.map (EventHandler.mapText f) := by
  cases item <;> rfl

end CodeItem

theorem CodeSection.mapText_ofItems (f : String → String) (items : List CodeItem) (span : Text.Span) :
    (ofItems items span).mapText f = ofItems (items.map (CodeItem.mapText f)) span := by
  simp only [ofItems, mapText, List.map_flatMap, List.map_filterMap, List.flatMap_map, List.filterMap_map,
    Function.comp_def, CodeItem.globals_mapText, CodeItem.procedure_mapText, CodeItem.trigger_mapText,
    CodeItem.event_mapText]

def PropertyValue.mapText (f : String → String) : PropertyValue → PropertyValue
  | .text s => .text (f s)
  | .trigger locals body => .trigger (locals.map (Variable.mapText f)) (body.map (Statement.mapText f))

namespace Property

def mapText (f : String → String) (p : Property) : Property := { p with name := f p.name, value := p.value.mapText f }

variable (f : String → String) (p : Property)

theorem isTrigger_mapText : (p.mapText f).isTrigger = p.isTrigger := by
  rcases p with ⟨name, text | ⟨locals, body⟩, span⟩ <;> rfl

theorem trigger_mapText : (p.mapText f).trigger? = p.trigger?.map (Trigger.mapText f) := by
  rcases p with ⟨name, text | ⟨locals, body⟩, span⟩ <;> rfl

end Property

def Field.mapText (f : String → String) (field : Field) : Field :=
  { field with
    fieldClass := f field.fieldClass
    name := f field.name
    dataType := field.dataType.mapText f
    properties := field.properties.map (Property.mapText f)
    triggers := field.triggers.map (Trigger.mapText f) }

def Key.mapText (f : String → String) (key : Key) : Key :=
  { key with fields := key.fields.map f, properties := key.properties.map (Property.mapText f) }

def FieldGroup.mapText (f : String → String) (group : FieldGroup) : FieldGroup :=
  { group with name := f group.name, fields := group.fields.map f }

def ExportObject.mapText (f : String → String) (o : ExportObject) : ExportObject :=
  { o with
    name := f o.name
    properties := o.properties.map (Property.mapText f)
    fields := o.fields.map (Field.mapText f)
    keys := o.keys.map (Key.mapText f)
    fieldGroups := o.fieldGroups.map (FieldGroup.mapText f)
    code := o.code.map (CodeSection.mapText f) }

def Document.mapText (f : String → String) (d : Document) : Document :=
  { d with object := d.object.map (ExportObject.mapText f) }

namespace ObjectSection

def mapText (f : String → String) : ObjectSection → ObjectSection
  | .properties entries => .properties (entries.map (Property.mapText f))
  | .fields entries => .fields (entries.map (Field.mapText f))
  | .keys entries => .keys (entries.map (Key.mapText f))
  | .fieldGroups entries => .fieldGroups (entries.map (FieldGroup.mapText f))
  | .code c => .code (c.mapText f)
  | .globals declared => .globals (declared.map (Variable.mapText f))
  | .passed => .passed

variable (f : String → String) (sec : ObjectSection)

theorem properties_mapText : (sec.mapText f).properties? = sec.properties?.map (Property.mapText f) := by
  cases sec <;> rfl

theorem fields_mapText : (sec.mapText f).fields? = sec.fields?.map (Field.mapText f) := by
  cases sec <;> rfl

theorem keys_mapText : (sec.mapText f).keys? = sec.keys?.map (Key.mapText f) := by
  cases sec <;> rfl

theorem fieldGroups_mapText : (sec.mapText f).fieldGroups? = sec.fieldGroups?.map (FieldGroup.mapText f) := by
  cases sec <;> rfl

theorem globals_mapText : (sec.mapText f).globals? = sec.globals?.map (Variable.mapText f) := by
  cases sec <;> rfl

theorem code_mapText : (sec.mapText f).code? = sec.code?.map (CodeSection.mapText f) := by
  cases sec <;> rfl

theorem joinCode_mapText (sections : List ObjectSection) :
    joinCode (sections.map (mapText f)) = (joinCode sections).map (CodeSection.mapText f) := by
  have hlast : ((sections.map (mapText f)).filterMap code?).getLast? =
      (sections.filterMap code?).getLast?.map (CodeSection.mapText f) := by
    rw [← List.getLast?_map, List.map_filterMap, List.filterMap_map]
    simp only [Function.comp_def, code_mapText]
  have hglobals : (sections.map (mapText f)).flatMap globals? =
      (sections.flatMap globals?).map (Variable.mapText f) := by
    simp only [List.flatMap_map, List.map_flatMap, globals_mapText]
  unfold joinCode
  rw [hlast, hglobals]
  cases sections.flatMap globals? with
  | nil => rfl
  | cons v outside =>
      cases (sections.filterMap code?).getLast? with
      | none => simp [CodeSection.mapText, CodeSection.absent]
      | some c => simp [CodeSection.mapText]

end ObjectSection

theorem ExportObject.mapText_ofSections (f : String → String) (kind : ObjectKind) (id : Int) (name : String)
    (sections : List ObjectSection) (span : Text.Span) :
    (ofSections kind id name sections span).mapText f =
      ofSections kind id (f name) (sections.map (ObjectSection.mapText f)) span := by
  simp only [ofSections, mapText, ObjectSection.joinCode_mapText, List.map_flatMap, List.flatMap_map,
    ObjectSection.properties_mapText, ObjectSection.fields_mapText, ObjectSection.keys_mapText,
    ObjectSection.fieldGroups_mapText]

end CalExport
