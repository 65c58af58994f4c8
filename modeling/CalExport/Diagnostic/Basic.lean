import CalExport.Diagnostic.Fault
import CalExport.Journal.Event

namespace CalExport

open Text

structure Diagnostic where
  code : Code
  message : String
  span : Span
deriving DecidableEq, Repr

namespace Diagnostic

def clean (message : String) : String :=
  String.ofList ((message.toList.map fun c => if isControl c then ' ' else c).take maxMessageLength)

def make (code : Code) (message : String) (span : Span) : Diagnostic := ⟨code, clean message, span⟩

def ofFault (fault : Fault) : Diagnostic := make fault.code fault.message fault.span

def display (d : Diagnostic) : String := d.span.start.display ++ ": [" ++ d.code.text ++ "] " ++ d.message

end Diagnostic

structure SkippedRegion where
  span : Span
  reason : String
  tokenCount : Nat
  text : String
deriving DecidableEq, Repr

end CalExport
