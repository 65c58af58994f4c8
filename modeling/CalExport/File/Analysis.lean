import CalExport.Analysis
import CalExport.File.Reading

namespace CalExport

inductive FileFailure where
  | reading (cause : FileError)
  | lexing (cause : LexError)
deriving DecidableEq, Repr

namespace FileFailure

def message : FileFailure → String
  | .reading cause => "File processing failed: " ++ cause.message
  | .lexing cause => "Lexical analysis failed: " ++ cause.message

def code : FileFailure → Code
  | .reading cause => cause.code
  | .lexing cause => cause.code

end FileFailure

structure FileAnalysis where
  metadata : Metadata
  analysis : Analysis

namespace FileAnalysis

def isClean (f : FileAnalysis) : Bool := f.analysis.isClean

def diagnosticCount (f : FileAnalysis) : Nat := f.analysis.diagnostics.length

def finished (f : FileAnalysis) : Event :=
  ((((((Event.success .operationDone "C/AL parsing pipeline finished").set "source" f.metadata.path.text).set
    "tokens" (toString f.analysis.tokenCount)).set "diagnostics" (toString f.diagnosticCount)).set
    "duration_ms" unmeasured).set "tokens_per_sec" unmeasured)

end FileAnalysis

namespace Preferences

def examine (p : Preferences) (fs : FileSystem) (path : Path) : Attempt FileFailure FileAnalysis := do
  Attempt.report ((Event.info "Starting C/AL parsing pipeline").set "file" path.text)
  let file ← ExceptT.adapt .reading (p.files.read fs path)
  let (result, events) := analyse p.parser file.source
  ExceptT.lift (Work.reportAll events)
  match result with
  | .error cause => throw (.lexing cause)
  | .ok analysis =>
    let found : FileAnalysis := ⟨file.metadata, analysis⟩
    Attempt.report found.finished
    return found

def examineFile (p : Preferences) (fs : FileSystem) (path : Path) : Work (Except FileFailure FileAnalysis) :=
  Work.attributed p.log.fileContext path.text 0 (p.examine fs path).run

end Preferences

end CalExport
