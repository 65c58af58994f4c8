import CalExport.Journal.Work
import CalExport.Number.Decimal
import CalExport.Preferences.Basic

namespace CalExport.CommandLine

inductive Line where
  | text (s : String)
  | event (structured : Bool) (e : Event)
  | totalTime
  | rate (tokens : Nat)

/-- When lines are shown: seconds since the epoch, and the thousandths of a second that the run took. -/
structure Clock where
  now : Nat
  elapsed : Nat

def Line.render (clock : Clock) : Line → Option String
  | .text s => some s
  | .event structured e => some (if structured then { e with timestamp := clock.now }.formatJson else e.format)
  | .totalTime => some ("  Total time: " ++ Binary64.fixedRatio clock.elapsed 1000 2 ++ "s")
  | .rate tokens =>
    if clock.elapsed = 0 then none
    else some ("  Processing rate: " ++ Binary64.fixedRatio (1000 * tokens) clock.elapsed 0 ++ " tokens/sec")

structure Console where
  out : Array Line := #[]
  err : Array Line := #[]

abbrev Session (α : Type) := StateM Console α

def print (line : Line) : Session Unit := modify fun c => { c with out := c.out.push line }

def say (s : String) : Session Unit := print (.text s)

def complain (s : String) : Session Unit := modify fun c => { c with err := c.err.push (.text s) }

def relay (p : LogPreferences) (work : Work α) : Session α := do
  let (a, events) := work #[]
  let shown := events.filter fun e => p.console && p.effectiveLevel.admits e.level
  modify fun c => { c with err := c.err ++ shown.map (.event p.structured) }
  return a

end CalExport.CommandLine
