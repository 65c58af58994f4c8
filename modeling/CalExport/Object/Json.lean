import CalExport.Object.Basic
import CalExport.Declaration.Json

namespace CalExport

def Property.toJson (style : Json.Style) (p : Property) : Json :=
  let (text, trigger) : String × List (String × Json) := match p.value with
    | .text s => (s, [])
    | .trigger locals body =>
      ("", ("trigger_body", Statement.bodyToJson style body)
        :: if locals.isEmpty then [] else [("trigger_variables", .ofList (Variable.toJson style) locals)])
  .object ([("name", Json.string p.name), ("value", Json.string text)] ++ trigger ++ [("span", style.span p.span)])

def Field.toJson (style : Json.Style) (f : Field) : Json :=
  .object [("field_no", .int f.number), ("field_class", f.fieldClass), ("name", f.name),
    ("data_type", f.dataType.toJson style), ("properties", .ofList (Property.toJson style) f.properties),
    ("triggers", .ofList (Trigger.toJson style) f.triggers), ("span", style.span f.span)]

def Key.toJson (style : Json.Style) (k : Key) : Json :=
  .object [("fields", .ofList Json.string k.fields), ("properties", .ofList (Property.toJson style) k.properties),
    ("span", style.span k.span)]

def FieldGroup.toJson (style : Json.Style) (g : FieldGroup) : Json :=
  .object [("id", .int g.id), ("name", g.name), ("fields", .ofList Json.string g.fields),
    ("span", style.span g.span)]

def ExportObject.toJson (style : Json.Style) (o : ExportObject) : Json :=
  .object [("kind", o.kind.name), ("id", .int o.id), ("name", o.name),
    ("properties", .ofList (Property.toJson style) o.properties), ("fields", .ofList (Field.toJson style) o.fields),
    ("keys", .ofList (Key.toJson style) o.keys), ("field_groups", .ofList (FieldGroup.toJson style) o.fieldGroups),
    ("code", .ofOption (CodeSection.toJson style) o.code), ("span", style.span o.span)]

def Document.toJson (style : Json.Style) (d : Document) : Json :=
  .object [("object", .ofOption (ExportObject.toJson style) d.object), ("span", style.span d.span)]

end CalExport
