import CalExport.Declaration.Basic

namespace CalExport

open Text

inductive ObjectKind where
  | table | page | report | codeunit | query | xmlPort | menuSuite | form
deriving DecidableEq, Repr

namespace ObjectKind

def ofKeyword? : Keyword → Option ObjectKind
  | .table => some .table
  | .page => some .page
  | .report => some .report
  | .codeunit => some .codeunit
  | .query => some .query
  | .xmlPort => some .xmlPort
  | .menuSuite => some .menuSuite
  | .form => some .form
  | _ => none

def name : ObjectKind → String
  | .table => "Table"
  | .page => "Page"
  | .report => "Report"
  | .codeunit => "Codeunit"
  | .query => "Query"
  | .xmlPort => "XMLport"
  | .menuSuite => "MenuSuite"
  | .form => "Form"

end ObjectKind

inductive PropertyValue where
  | text (s : String)
  | trigger (locals : List Variable) (body : List Statement)

structure Property where
  name : String
  value : PropertyValue
  span : Span

def Property.isTrigger (p : Property) : Bool :=
  match p.value with
  | .trigger .. => true
  | .text _ => false

def Property.trigger? (p : Property) : Option Trigger :=
  match p.value with
  | .trigger locals body => some ⟨p.name, locals, body, p.span⟩
  | .text _ => none

structure Field where
  number : Int
  /-- The second column, empty for most fields. -/
  fieldClass : String
  name : String
  dataType : DataType
  properties : List Property
  triggers : List Trigger
  span : Span

structure Key where
  fields : List String
  properties : List Property
  span : Span

structure FieldGroup where
  id : Int
  name : String
  fields : List String
  span : Span

structure ExportObject where
  kind : ObjectKind
  id : Int
  name : String
  properties : List Property
  fields : List Field
  keys : List Key
  fieldGroups : List FieldGroup
  code : Option CodeSection
  span : Span

structure Document where
  object : Option ExportObject
  span : Span

/-- What the body of an object is made of, in the order of the source. -/
inductive ObjectSection where
  | properties (entries : List Property)
  | fields (entries : List Field)
  | keys (entries : List Key)
  | fieldGroups (entries : List FieldGroup)
  | code (c : CodeSection)
  /-- Variables outside the CODE section. -/
  | globals (declared : List Variable)
  /-- A section that has no place in the tree. -/
  | passed

namespace ObjectSection

def properties? : ObjectSection → List Property
  | .properties entries => entries
  | _ => []

def fields? : ObjectSection → List Field
  | .fields entries => entries
  | _ => []

def keys? : ObjectSection → List Key
  | .keys entries => entries
  | _ => []

def fieldGroups? : ObjectSection → List FieldGroup
  | .fieldGroups entries => entries
  | _ => []

def globals? : ObjectSection → List Variable
  | .globals declared => declared
  | _ => []

def code? : ObjectSection → Option CodeSection
  | .code c => some c
  | _ => none

/-- The last CODE section, with the variables from outside in front of its own. -/
def joinCode (sections : List ObjectSection) : Option CodeSection :=
  let last := (sections.filterMap code?).getLast?
  match sections.flatMap globals? with
  | [] => last
  | outside =>
    let c := last.getD .absent
    some { c with globals := outside ++ c.globals }

end ObjectSection

def ExportObject.ofSections (kind : ObjectKind) (id : Int) (name : String) (sections : List ObjectSection)
    (span : Span) : ExportObject where
  kind := kind
  id := id
  name := name
  properties := sections.flatMap ObjectSection.properties?
  fields := sections.flatMap ObjectSection.fields?
  keys := sections.flatMap ObjectSection.keys?
  fieldGroups := sections.flatMap ObjectSection.fieldGroups?
  code := ObjectSection.joinCode sections
  span := span

end CalExport
