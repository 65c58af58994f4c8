import CalExport.Journal.Event

namespace CalExport

abbrev Work (α : Type) := StateM (Array Event) α

abbrev Attempt (ε α : Type) := ExceptT ε (StateM (Array Event)) α

namespace Work

def report (e : Event) : Work Unit := modify fun events => events.push e

def reportAll (new : Array Event) : Work Unit := modify fun events => events ++ new

def attributed (on : Bool) (file : String) (id : Nat) (work : Work α) : Work α := do
  let (a, new) := work #[]
  reportAll (if on then new.map fun e => e.within file id else new)
  return a

end Work

namespace Attempt

def report (e : Event) : Attempt ε Unit := ExceptT.lift (Work.report e)

def fail (error : ε) (e : Event) : Attempt ε α := do
  report e
  throw error

end Attempt

end CalExport
