import CalExport.CommandLine.Options
import CalExport.CommandLine.Report
import CalExport.Preferences.Environment
import CalExport.Preferences.Toml

namespace CalExport.CommandLine

open Text

structure Setting where
  program : String
  arguments : List String
  environment : Environment
  files : FileSystem
  processors : Nat

abbrev ExitCode := UInt32

def defaultThreads (processors : Nat) : Nat := min (max processors 1) 8

def configText (fs : FileSystem) (path : Path) : Except String String :=
  match fs path with
  | .error .missing => .error "No such file or directory (os error 2)"
  | .error .notADirectory => .error "Not a directory (os error 20)"
  | .ok (.directory _) => .error "Is a directory (os error 21)"
  | .ok (.file content) =>
    match String.fromUTF8? content.toBytes with
    | some text => .ok text
    | none => .error "stream did not contain valid UTF-8"

def configured (p : Preferences) (fs : FileSystem) (path : String) : Except String Preferences :=
  match configText fs ⟨path⟩ with
  | .error cause => .error ("Cannot read " ++ path ++ ": " ++ cause)
  | .ok text =>
    match p.ofToml text with
    | .error cause => .error ("Invalid TOML in " ++ path ++ ": " ++ cause.message)
    | .ok changed => .ok { changed with log := p.log }

def runFile (o : Options) (p : Preferences) (fs : FileSystem) (path : Path) : Session Bool := do
  match ← relay p.log (p.examineFile fs path) with
  | .error cause =>
    complain ("error[" ++ cause.code.text ++ "]: " ++ cause.message)
    return true
  | .ok found =>
    if o.json then say (analysisJson found.analysis).pretty
    else (fileLines path o.quiet found.analysis).forM say
    return !found.isClean

def runDirectory (o : Options) (p : Preferences) (fs : FileSystem) (dir : Path) : Session Bool := do
  let batchOptions := o.batch p
  if !o.quiet && !o.json then
    say ("Starting batch processing: " ++ dir.text)
    say s!"Configuration: {o.threads} threads, recursive={o.selection.recursive}, fail_fast={o.failFast}"
  match ← relay p.log (Batch.run batchOptions fs dir).run with
  | .error cause =>
    complain ("Batch processing failed: " ++ cause.message)
    return true
  | .ok batch =>
    if !o.quiet && batchOptions.workers = 1 then (progressLines batch).forM say
    if o.json then say (batchJson batch).sorted.compact else (batchLines batch).forM print
    return decide (0 < batch.failed.length ∨ 0 < batch.withDiagnostics)

def runPath (s : Setting) (p : Preferences) (path : Path) (arguments : List String) : Session ExitCode := do
  let (o, warnings) := Options.read { threads := defaultThreads s.processors } arguments
  warnings.forM complain
  match o.config.elim (.ok p) (configured p s.files) with
  | .error cause =>
    complain ("Error: " ++ quoted cause)
    return 1
  | .ok p =>
    let failed ←
      if s.files.isFile path then runFile o p s.files path
      else if s.files.isDirectory path then runDirectory o p s.files path
      else do
        complain "Error: Input must be a C/AL export file or a directory"
        complain ("  Path: " ++ path.text)
        pure true
    return if failed then 1 else 0

def session (s : Setting) : Session ExitCode := do
  let p := s.environment.preferences
  relay p.log (Work.report (Event.success .initialized "Global logging system initialized"))
  match s.arguments with
  | [] =>
    (usageLines s.program).forM complain
    return 1
  | first :: rest =>
    if first = "--help" then
      (helpLines s.program).forM say
      return 0
    else runPath s p ⟨first⟩ rest

def run (s : Setting) : ExitCode × Console := session s {}

end CalExport.CommandLine
