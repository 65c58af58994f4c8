import CalExport.Batch.Basic
import CalExport.CommandLine.Console
import CalExport.Diagnostic.Basic
import CalExport.Object.Json
import CalExport.Preferences.Report

namespace CalExport

def Diagnostic.toJson (style : Json.Style) (d : Diagnostic) : Json :=
  .object [("code", d.code.text), ("message", d.message), ("span", style.span d.span)]

namespace CommandLine

def version : String := "0.1.0"

def usageLines (program : String) : List String :=
  ["Usage: " ++ program ++ " <object.txt|directory> [options]", "       " ++ program ++ " --help"]

def helpLines (program : String) : List String :=
  ["C/AL Parser v" ++ version,
   "Parses Dynamics NAV C/AL object exports into a syntax tree with diagnostics",
   "",
   "USAGE:",
   "    " ++ program ++ " <object.txt> [options]         # Parse one export",
   "    " ++ program ++ " <directory> [options]          # Parse every export in a directory",
   "",
   "OPTIONS:",
   "    --help              Show this help message",
   "    --json              Print the syntax tree and diagnostics as JSON",
   "    --config FILE       Load runtime preferences from a TOML file",
   "    --sequential        Force sequential processing (no parallelism)",
   "    --threads N         Set maximum number of worker threads (default: auto)",
   "    --no-recursive      Don't search subdirectories",
   "    --max-files N       Limit maximum files to process",
   "    --fail-fast         Stop on the first file that cannot be read",
   "    --quiet             Suppress progress reporting",
   "",
   "OUTPUT:",
   "    Single file: one 'line:column: [code] message' line per diagnostic",
   "    Directory:   diagnostic counts per file and a summary",
   "",
   "EXAMPLES:",
   "    " ++ program ++ " TAB18.TXT --json",
   "    " ++ program ++ " objects/ --threads 4",
   "    " ++ program ++ " objects/ --sequential --fail-fast",
   "",
   "BUILD:",
   "    " ++ buildInfo]

def analysisJson (a : Analysis) : Json :=
  .object [("document", a.document.toJson .plain), ("errors", .ofList (Diagnostic.toJson .plain) a.diagnostics)]

def objectLine (a : Analysis) : String :=
  match a.document.object with
  | some o =>
    s!"{o.kind.name} {o.id} {o.name}: {a.diagnostics.length} diagnostic(s), {a.tokenCount} tokens"
  | none => s!"No object found: {a.diagnostics.length} diagnostic(s)"

def fileLines (path : Path) (quiet : Bool) (a : Analysis) : List String :=
  (a.diagnostics.map fun d => path.text ++ ":" ++ d.display) ++ if quiet then [] else [objectLine a]

def batchJson (b : Batch) : Json :=
  let parsed := b.parsed.map fun (path, found) =>
    Json.object [("file", path.text), ("diagnostics", .ofList (Diagnostic.toJson .plain) found.analysis.diagnostics)]
  let failed := b.failed.map fun (path, cause) =>
    Json.object [("file", path.text),
      ("error", .object [("code", cause.code.text), ("message", cause.message)])]
  .object [("files", .array (parsed ++ failed)), ("files_processed", b.processed), ("failed", b.failed.length),
    ("total_diagnostics", b.totalDiagnostics)]

def parsedLines (path : Path) (found : FileAnalysis) : List String :=
  if found.isClean then []
  else (path.text ++ s!": {found.diagnosticCount} diagnostic(s)")
    :: found.analysis.diagnostics.map fun d => "  " ++ d.display

def failedLines (failed : List (Path × FileFailure)) : List String :=
  if failed.isEmpty then []
  else "" :: "Failed Files:" :: failed.map fun (path, cause) =>
    "  " ++ path.text ++ ": [" ++ cause.code.text ++ "] " ++ cause.message

def summaryLines (b : Batch) : List String :=
  ["", "Batch Processing Summary:", s!"  Files discovered: {b.discovered}", s!"  Files processed: {b.processed}",
   s!"  Parsed: {b.parsed.length} ({b.successPercent}%)", s!"  With diagnostics: {b.withDiagnostics}",
   s!"  Total diagnostics: {b.totalDiagnostics}", s!"  Failed: {b.failed.length}"]

def batchLines (b : Batch) : List Line :=
  let parsed := b.parsed.flatMap fun (path, found) => parsedLines path found
  (parsed ++ failedLines b.failed ++ summaryLines b).map Line.text
    ++ [.totalTime, .rate b.totalTokens]

def progressLines (b : Batch) : List String :=
  ((b.parsed.map Prod.fst ++ b.failed.map Prod.fst).mergeSort Path.le).zipIdx.map fun (path, i) =>
    s!"Processing file {i + 1} of {b.discovered}: {path.text}"

end CommandLine

end CalExport
