import CalExport.Journal.Event

namespace CalExport

def journalCapacity : Nat := 10000

structure Journal where
  level : Level
  events : Array Event := #[]

namespace Journal

/-- Adds an event to the newest ones, unless the level leaves it out. -/
def record (j : Journal) (e : Event) : Journal :=
  if j.level.admits e.level then
    { j with events := (if j.events.size < journalCapacity then j.events
        else j.events.extract (j.events.size - journalCapacity + 1) j.events.size).push e }
  else j

def clear (j : Journal) : Journal := { j with events := #[] }

def hasCode (j : Journal) (code : Code) : Bool := j.events.any fun e => e.code == code

def errors (j : Journal) : List Event := j.events.toList.filter Event.isError

def oldest? (j : Journal) : Option Event := j.events[0]?

end Journal

end CalExport
