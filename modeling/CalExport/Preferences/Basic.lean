import CalExport.Journal.Event

namespace CalExport

structure ParserPreferences where
  /-- Keep the stretches that recovery passed over. -/
  recordSkipped : Bool := true
  /-- Report every recovery. -/
  logRecovery : Bool := false
deriving DecidableEq, Repr

structure FilePreferences where
  /-- Extensions of export files, small and without the dot. -/
  extensions : List String := ["txt", "cal"]
  /-- Read a file that is not UTF-8 one byte a character. -/
  lossy : Bool := true
deriving DecidableEq, Repr

structure LogPreferences where
  structured : Bool := false
  console : Bool := true
  level : Level := .warning
  fileContext : Bool := true
deriving DecidableEq, Repr

structure Preferences where
  parser : ParserPreferences := {}
  files : FilePreferences := {}
  log : LogPreferences := {}
deriving DecidableEq, Repr

def floorLevel : Level := .warning

def LogPreferences.effectiveLevel (p : LogPreferences) : Level := p.level.max floorLevel

end CalExport
