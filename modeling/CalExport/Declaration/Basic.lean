import CalExport.Statement.Basic
import CalExport.DataType.Basic

namespace CalExport

open Text

structure Variable where
  name : String
  /-- The number behind `@`. -/
  id : Option Int
  dataType : DataType
  temporary : Bool
  inDataSet : Bool := false
  withEvents : Bool := false
  runOnClient : Bool := false
  securityFiltering : Option String := none
  span : Span

structure Parameter where
  name : String
  id : Option Int
  dataType : DataType
  byReference : Bool
  temporary : Bool
  span : Span

structure Procedure where
  name : String
  id : Option Int
  isLocal : Bool
  parameters : List Parameter
  returnType : Option DataType
  returnName : Option String
  locals : List Variable
  body : List Statement
  span : Span

structure Trigger where
  name : String
  locals : List Variable
  body : List Statement
  span : Span

structure EventHandler where
  subscriber : String
  event : String
  parameters : List Parameter
  locals : List Variable
  body : List Statement
  span : Span

structure CodeSection where
  globals : List Variable := []
  procedures : List Procedure := []
  triggers : List Trigger := []
  events : List EventHandler := []
  span : Span

inductive CodeItem where
  | globals (declared : List Variable)
  | procedure (p : Procedure)
  | trigger (t : Trigger)
  | event (e : EventHandler)

namespace CodeItem

def globals? : CodeItem → List Variable
  | .globals declared => declared
  | _ => []

def procedure? : CodeItem → Option Procedure
  | .procedure p => some p
  | _ => none

def trigger? : CodeItem → Option Trigger
  | .trigger t => some t
  | _ => none

def event? : CodeItem → Option EventHandler
  | .event e => some e
  | _ => none

end CodeItem

namespace CodeSection

def ofItems (items : List CodeItem) (span : Span) : CodeSection where
  globals := items.flatMap CodeItem.globals?
  procedures := items.filterMap CodeItem.procedure?
  triggers := items.filterMap CodeItem.trigger?
  events := items.filterMap CodeItem.event?
  span := span

def absent : CodeSection where
  span := ⟨⟨0, 0, 0⟩, ⟨0, 0, 0⟩⟩

end CodeSection

end CalExport
