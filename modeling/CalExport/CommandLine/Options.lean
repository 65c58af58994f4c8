import CalExport.Batch.Run

namespace CalExport.CommandLine

structure Options where
  json : Bool := false
  config : Option String := none
  threads : Nat
  selection : Selection := {}
  failFast : Bool := false
  quiet : Bool := false
deriving DecidableEq, Repr

def count? (text : String) : Option Nat :=
  let digits := match text.toList with
    | '+' :: rest => rest
    | cs => cs
  if digits.isEmpty || !digits.all Char.isDigit then none
  else
    let n := digits.foldl (fun n c => 10 * n + (c.toNat - 48)) 0
    if n < UInt64.size then some n else none

namespace Options

def setThreads (o : Options) (n : Nat) : Options := { o with threads := max n 1 }

def setMaxFiles (o : Options) (n : Nat) : Options := { o with selection := { o.selection with maxFiles := some n } }

def flag? (o : Options) : String → Option Options
  | "--json" => some { o with json := true }
  | "--sequential" => some { o with threads := 1 }
  | "--no-recursive" => some { o with selection := { o.selection with recursive := false } }
  | "--fail-fast" => some { o with failFast := true }
  | "--quiet" => some { o with quiet := true }
  | _ => none

/-- The options, and what there is to complain about. -/
def read (o : Options) : List String → Options × List String
  | [] => (o, [])
  | ["--threads"] => (o, ["Warning: --threads requires a number"])
  | ["--max-files"] => (o, ["Warning: --max-files requires a number"])
  | ["--config"] => (o, ["Warning: --config requires a file path"])
  | word :: rest =>
    match word, rest with
    | "--threads", value :: rest =>
      match count? value with
      | some n => (o.setThreads n).read rest
      | none =>
        let (result, warnings) := o.read rest
        (result, ("Warning: Invalid thread count '" ++ value ++ "', using default") :: warnings)
    | "--max-files", value :: rest =>
      match count? value with
      | some n => (o.setMaxFiles n).read rest
      | none =>
        let (result, warnings) := o.read rest
        (result, ("Warning: Invalid max files '" ++ value ++ "', ignoring") :: warnings)
    | "--config", value :: rest => { o with config := some value }.read rest
    | other, rest =>
      match o.flag? other with
      | some changed => changed.read rest
      | none =>
        let (result, warnings) := o.read rest
        (result, ("Warning: Unknown option '" ++ other ++ "'") :: warnings)

def batch (o : Options) (p : Preferences) : BatchOptions :=
  { threads := o.threads, selection := o.selection, failFast := o.failFast, preferences := p }

end Options

end CalExport.CommandLine
