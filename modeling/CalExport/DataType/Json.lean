import CalExport.DataType.Basic
import CalExport.Json.Style

namespace CalExport

def DotNetInfo.toJson (info : DotNetInfo) : Json :=
  .object [("assembly_reference", info.assembly), ("type_name", info.typeName)]

def AutomationInfo.toJson (info : AutomationInfo) : Json :=
  .object [("type_lib_guid", info.typeLib), ("version", info.version), ("class_guid", info.classId),
    ("type_lib_name", info.library), ("class_name", info.className)]

namespace DataType

/-- Every type has a name, a length and a table number; `before` and `behind` hold what only some have. -/
def toJson (style : Json.Style) (t : DataType) : Json :=
  let (before, behind) : List (String × Json) × List (String × Json) := match t with
    | .array dimensions temporary element _ =>
      ([("array_dimensions", .ofList (fun n : Nat => .int n) dimensions), ("element_type", toJson style element)]
        ++ if temporary then [("temporary_elements", Json.bool true)] else [], [])
    | .dotNet info _ => ([], Json.optionalMember "dotnet" (info.map DotNetInfo.toJson))
    | .automation info _ => ([], Json.optionalMember "automation" (info.map AutomationInfo.toJson))
    | .options _ value _ => ([], [("option_string", Json.string value)])
    | .simple .. | .reference .. | .textConst _ => ([], [])
  .object ([("type_name", Json.string t.name), ("length", .ofOption (fun n : Nat => .int n) t.length)] ++ before
    ++ [("table_id", .ofOption Json.int t.tableId)] ++ behind ++ [("span", style.span t.span)])

end DataType

end CalExport
