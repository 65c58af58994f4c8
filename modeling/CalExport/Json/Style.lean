import CalExport.Json.Basic
import CalExport.Text.Span

namespace CalExport

open Text

structure Json.Style where
  span : Span → Json
  decimal : Binary64 → Json

namespace Json

def ofPosition (p : Position) : Json := object [("offset", p.offset), ("line", p.line), ("column", p.column)]

def ofSpan (s : Span) : Json := object [("start", ofPosition s.start), ("end", ofPosition s.stop)]

def Style.plain : Style := ⟨ofSpan, number⟩

def optionalMember (key : String) : Option Json → List (String × Json)
  | none => []
  | some value => [(key, value)]

def ofList (f : α → Json) (l : List α) : Json := array (l.map f)

end Json

end CalExport
