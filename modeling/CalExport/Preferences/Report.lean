import CalExport.Preferences.Basic
import CalExport.Journal.Memory

namespace CalExport

def buildInfo : String := "Generated from config/development.toml"

def Level.name : Level → String
  | .error => "Error"
  | .warning => "Warning"
  | .info => "Info"
  | .debug => "Debug"

namespace LogPreferences

def limitsAreSound : Bool := 100 ≤ journalCapacity && journalCapacity ≤ 100000 && 64 ≤ maxMessageLength

def limitLines : List String :=
  ["=== Compile-time ===", s!"- Log buffer size: {journalCapacity}", s!"- Max message length: {maxMessageLength}",
   s!"- Floor log level: {floorLevel.rank}"]

def choiceLines (p : LogPreferences) : List String :=
  ["=== Runtime ===", s!"- Min log level: {p.level.name}", s!"- Structured logging: {p.structured}",
   s!"- Console logging: {p.console}", s!"- Include file context: {p.fileContext}"]

/-- Limits and choices in full, for a report on a system where reporting has been started or not. -/
def report (p : LogPreferences) (started : Bool) : String :=
  "\n".intercalate (["=== Logging System Diagnostics ===", s!"Initialized: {started}", s!"Build: {buildInfo}", "",
    "Logging Configuration:"] ++ limitLines ++ p.choiceLines)

end LogPreferences

end CalExport
