import CalExport.Journal.Code
import CalExport.Text.Span
import CalExport.Json.Basic

namespace CalExport

open Text

inductive Level where
  | error | warning | info | debug
deriving DecidableEq, Repr

namespace Level

def rank : Level → Nat
  | .error => 0
  | .warning => 1
  | .info => 2
  | .debug => 3

def label : Level → String
  | .error => "ERROR"
  | .warning => "WARN"
  | .info => "INFO"
  | .debug => "DEBUG"

def max (a b : Level) : Level := if a.rank ≤ b.rank then b else a

def admits (l e : Level) : Bool := e.rank ≤ l.rank

end Level

def maxMessageLength : Nat := 4096

def unmeasured : String := "0"

structure Event where
  level : Level
  code : Code
  message : String
  timestamp : Nat := 0
  span : Option Span := none
  context : List (String × String) := []
deriving DecidableEq, Repr

namespace Event

def shorten (message : String) : String :=
  if message.length ≤ maxMessageLength then message
  else String.ofList (message.toList.take (maxMessageLength - 3)) ++ "..."

def make (level : Level) (code : Code) (message : String) : Event := { level, code, message := shorten message }

def error (code : Code) (message : String) : Event := make .error code message

def warning (message : String) : Event := make .warning ⟨"W000"⟩ message

def warningWith (code : Code) (message : String) : Event := make .warning code message

def info (message : String) : Event := make .info ⟨"I000"⟩ message

def success (code : Code) (message : String) : Event := make .info code message

def debug (message : String) : Event := make .debug ⟨"D000"⟩ message

def placed (e : Event) (span : Span) : Event := { e with span := some span }

def insertContext (key value : String) : List (String × String) → List (String × String)
  | [] => [(key, value)]
  | (k, v) :: rest =>
    if key = k then (key, value) :: rest
    else if key < k then (key, value) :: (k, v) :: rest
    else (k, v) :: insertContext key value rest

def set (e : Event) (key value : String) : Event := { e with context := insertContext key value e.context }

def within (e : Event) (file : String) (id : Nat) : Event := (e.set "file" file).set "file_id" (toString id)

def isError (e : Event) : Bool := e.level = .error

def isWarning (e : Event) : Bool := e.level = .warning

def isInfo (e : Event) : Bool := e.level = .info

def format (e : Event) : String :=
  let place := match e.span with
    | some s => s!" at {s.start.line}:{s.start.column}"
    | none => ""
  let pairs := e.context.map fun (key, value) => key ++ "=" ++ value
  let context := if pairs.isEmpty then "" else " (" ++ ", ".intercalate pairs ++ ")"
  "[" ++ e.level.label ++ "] " ++ e.code.text ++ " - " ++ e.message ++ place ++ context

def toJson (e : Event) : Json :=
  let span := match e.span with
    | some s =>
      [("span", Json.object [("start_line", s.start.line), ("start_column", s.start.column),
        ("end_line", s.stop.line), ("end_column", s.stop.column)])]
    | none => []
  let context :=
    if e.context.isEmpty then []
    else [("context", Json.object (e.context.map fun (key, value) => (key, Json.string value)))]
  Json.object ([("timestamp", (e.timestamp : Json)), ("level", e.level.label), ("code", e.code.text),
    ("message", e.message), ("category", e.code.category), ("severity", e.code.severity.name)] ++ span ++ context)

def formatJson (e : Event) : String := e.toJson.sorted.compact

end Event

end CalExport
