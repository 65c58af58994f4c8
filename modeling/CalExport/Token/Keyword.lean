import CalExport.Text.Basic

namespace CalExport

open Text

inductive Keyword where
  | object | table | page | report | codeunit | query | xmlPort | menuSuite | form
  | properties | fields | keys | fieldGroups | code | controls | actions | dataItems | dataset | requestPage | labels
  | elements | requestForm | menuNodes
  | var | procedure | function | local_ | trigger | event
  | begin_ | end_ | if_ | then_ | else_ | while_ | do_ | repeat_ | until_ | for_ | to | downTo | case_ | of | exit
  | break_ | with_
  | and_ | or_ | xor_ | not_ | div_ | mod_ | in_
  | true_ | false_
  | array | record | testPage | testRequestPage | textConst | dotNet | automation
  | temporary | inDataSet | withEvents | runOnClient | securityFiltering
deriving DecidableEq, Repr

namespace Keyword

def all : List Keyword :=
  [.object, .table, .page, .report, .codeunit, .query, .xmlPort, .menuSuite, .form, .properties,
   .fields, .keys, .fieldGroups, .code, .controls, .actions, .dataItems, .dataset, .requestPage,
   .labels, .elements, .requestForm, .menuNodes, .var, .procedure, .function, .local_, .trigger, .event,
   .begin_, .end_, .if_, .then_, .else_, .while_, .do_, .repeat_, .until_, .for_, .to, .downTo, .case_,
   .of, .exit, .break_, .with_, .and_, .or_, .xor_, .not_, .div_, .mod_, .in_, .true_, .false_, .array, .record,
   .testPage, .testRequestPage, .textConst, .dotNet, .automation, .temporary, .inDataSet, .withEvents,
   .runOnClient, .securityFiltering]

def spelling : Keyword → String
  | .object => "OBJECT"
  | .table => "TABLE"
  | .page => "PAGE"
  | .report => "REPORT"
  | .codeunit => "CODEUNIT"
  | .query => "QUERY"
  | .xmlPort => "XMLPORT"
  | .menuSuite => "MENUSUITE"
  | .form => "FORM"
  | .properties => "PROPERTIES"
  | .fields => "FIELDS"
  | .keys => "KEYS"
  | .fieldGroups => "FIELDGROUPS"
  | .code => "CODE"
  | .controls => "CONTROLS"
  | .actions => "ACTIONS"
  | .dataItems => "DATAITEMS"
  | .dataset => "DATASET"
  | .requestPage => "REQUESTPAGE"
  | .labels => "LABELS"
  | .elements => "ELEMENTS"
  | .requestForm => "REQUESTFORM"
  | .menuNodes => "MENUNODES"
  | .var => "VAR"
  | .procedure => "PROCEDURE"
  | .function => "FUNCTION"
  | .local_ => "LOCAL"
  | .trigger => "TRIGGER"
  | .event => "EVENT"
  | .begin_ => "BEGIN"
  | .end_ => "END"
  | .if_ => "IF"
  | .then_ => "THEN"
  | .else_ => "ELSE"
  | .while_ => "WHILE"
  | .do_ => "DO"
  | .repeat_ => "REPEAT"
  | .until_ => "UNTIL"
  | .for_ => "FOR"
  | .to => "TO"
  | .downTo => "DOWNTO"
  | .case_ => "CASE"
  | .of => "OF"
  | .exit => "EXIT"
  | .break_ => "BREAK"
  | .with_ => "WITH"
  | .and_ => "AND"
  | .or_ => "OR"
  | .xor_ => "XOR"
  | .not_ => "NOT"
  | .div_ => "DIV"
  | .mod_ => "MOD"
  | .in_ => "IN"
  | .true_ => "TRUE"
  | .false_ => "FALSE"
  | .array => "ARRAY"
  | .record => "RECORD"
  | .testPage => "TESTPAGE"
  | .testRequestPage => "TESTREQUESTPAGE"
  | .textConst => "TEXTCONST"
  | .dotNet => "DOTNET"
  | .automation => "AUTOMATION"
  | .temporary => "TEMPORARY"
  | .inDataSet => "INDATASET"
  | .withEvents => "WITHEVENTS"
  | .runOnClient => "RUNONCLIENT"
  | .securityFiltering => "SECURITYFILTERING"

def ofWord? (word : String) : Option Keyword :=
  let capitals := upperAscii word
  all.find? fun k => k.spelling == capitals

def isReadSection : Keyword → Bool
  | .properties | .fields | .keys | .fieldGroups | .code => true
  | _ => false

def isPassedSection : Keyword → Bool
  | .controls | .actions | .dataItems | .dataset | .requestPage | .labels | .elements | .requestForm |
    .menuNodes => true
  | _ => false

def isSection (k : Keyword) : Bool := k.isReadSection || k.isPassedSection

def isTypeName : Keyword → Bool
  | .array | .record | .codeunit | .page | .report | .query | .xmlPort | .testPage | .testRequestPage |
    .textConst | .dotNet | .automation | .code => true
  | _ => false

def isObjectReference : Keyword → Bool
  | .record | .codeunit | .page | .report | .query | .xmlPort | .testPage | .testRequestPage => true
  | _ => false

def isWordOperator : Keyword → Bool
  | .and_ | .or_ | .xor_ | .not_ | .div_ | .mod_ | .in_ => true
  | _ => false

def isStatementWord : Keyword → Bool
  | .begin_ | .end_ | .if_ | .then_ | .else_ | .while_ | .do_ | .repeat_ | .until_ | .for_ | .to |
    .downTo | .case_ | .of | .exit | .break_ | .with_ => true
  | _ => false

def isDeclarationStart : Keyword → Bool
  | .procedure | .function | .local_ | .trigger | .event => true
  | _ => false

def isPlainName : Keyword → Bool
  | .object | .table | .menuSuite | .form | .properties | .fields | .keys | .fieldGroups | .controls |
    .actions | .dataItems | .dataset | .requestPage | .labels | .elements | .requestForm | .menuNodes |
    .temporary | .inDataSet | .withEvents | .runOnClient | .securityFiltering | .event | .trigger => true
  | _ => false

/-- Whether a declaration accepts the word as a name. -/
def canName (k : Keyword) : Bool := k.isTypeName || k.isPlainName

def isReserved (k : Keyword) : Bool := !k.canName

end Keyword

def foreignModifiers : List (String × String) :=
  [("internal", "LOCAL or a global PROCEDURE"), ("protected", "LOCAL or a global PROCEDURE"),
   ("public", "a global PROCEDURE without LOCAL")]

def foreignModifier? (word : String) : Option (String × String) :=
  foreignModifiers.find? fun entry => sameIgnoringCase entry.1 word

def knownTriggers : List String :=
  ["OnInit", "OnOpenPage", "OnClosePage", "OnFindRecord", "OnNextRecord", "OnAfterGetRecord",
   "OnAfterGetCurrRecord", "OnNewRecord", "OnInsertRecord", "OnModifyRecord", "OnDeleteRecord",
   "OnQueryClosePage", "OnInsert", "OnModify", "OnDelete", "OnRename", "OnValidate", "OnLookup",
   "OnRun", "OnAction", "OnDrillDown", "OnAssistEdit", "OnControlAddIn", "OnInitReport", "OnPreReport",
   "OnPostReport", "OnPreDataItem", "OnPostDataItem", "OnInitXMLport", "OnPreXMLport", "OnPostXMLport",
   "OnBeforeOpen", "OnAfterAssignField", "OnBeforePassField", "OnAfterInitRecord",
   "OnBeforeInsertRecord"]

def isKnownTrigger (name : String) : Bool := knownTriggers.any fun known => sameIgnoringCase known name

end CalExport
