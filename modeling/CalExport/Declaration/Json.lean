import CalExport.Declaration.Basic
import CalExport.DataType.Json
import CalExport.Statement.Json

namespace CalExport

def Json.ofNumber : Option Int → Json := Json.ofOption Json.int

def Json.ofText : Option String → Json := Json.ofOption Json.string

def Statement.bodyToJson (style : Json.Style) (body : List Statement) : Json := .array (listToJson style body)

def Variable.toJson (style : Json.Style) (v : Variable) : Json :=
  .object [("name", v.name), ("id", .ofNumber v.id), ("data_type", v.dataType.toJson style),
    ("is_temporary", v.temporary), ("in_data_set", v.inDataSet), ("with_events", v.withEvents),
    ("run_on_client", v.runOnClient), ("security_filtering", .ofText v.securityFiltering),
    ("span", style.span v.span)]

def Parameter.toJson (style : Json.Style) (p : Parameter) : Json :=
  .object [("name", p.name), ("id", .ofNumber p.id), ("data_type", p.dataType.toJson style),
    ("by_reference", p.byReference), ("is_temporary", p.temporary), ("span", style.span p.span)]

def Procedure.toJson (style : Json.Style) (p : Procedure) : Json :=
  .object [("name", p.name), ("id", .ofNumber p.id), ("is_local", p.isLocal),
    ("parameters", .ofList (Parameter.toJson style) p.parameters),
    ("return_type", .ofOption (DataType.toJson style) p.returnType), ("return_name", .ofText p.returnName),
    ("variables", .ofList (Variable.toJson style) p.locals), ("body", Statement.bodyToJson style p.body),
    ("span", style.span p.span)]

def Trigger.toJson (style : Json.Style) (t : Trigger) : Json :=
  .object [("name", t.name), ("variables", .ofList (Variable.toJson style) t.locals),
    ("body", Statement.bodyToJson style t.body), ("span", style.span t.span)]

def EventHandler.toJson (style : Json.Style) (e : EventHandler) : Json :=
  .object [("subscriber_name", e.subscriber), ("event_name", e.event),
    ("parameters", .ofList (Parameter.toJson style) e.parameters),
    ("variables", .ofList (Variable.toJson style) e.locals), ("body", Statement.bodyToJson style e.body),
    ("span", style.span e.span)]

def CodeSection.toJson (style : Json.Style) (c : CodeSection) : Json :=
  .object [("variables", .ofList (Variable.toJson style) c.globals),
    ("procedures", .ofList (Procedure.toJson style) c.procedures),
    ("triggers", .ofList (Trigger.toJson style) c.triggers),
    ("events", .ofList (EventHandler.toJson style) c.events), ("span", style.span c.span)]

end CalExport
