import CalExport.File.Analysis
import CalExport.Number.Decimal

namespace CalExport

structure Outcome where
  path : Path
  result : Except FileFailure FileAnalysis

def Outcome.isFailure (o : Outcome) : Bool :=
  match o.result with
  | .ok _ => false
  | .error _ => true

structure Batch where
  /-- Files with a tree, whether or not there are diagnostics for them. -/
  parsed : List (Path × FileAnalysis) := []
  /-- Files that could not be read or cut into tokens. -/
  failed : List (Path × FileFailure) := []
  processed : Nat := 0
  discovered : Nat := 0

namespace Batch

def addParsed (b : Batch) (path : Path) (found : FileAnalysis) : Batch :=
  { b with parsed := b.parsed ++ [(path, found)], processed := b.processed + 1 }

def addFailed (b : Batch) (path : Path) (cause : FileFailure) : Batch :=
  { b with failed := b.failed ++ [(path, cause)], processed := b.processed + 1 }

def add (b : Batch) (o : Outcome) : Batch :=
  match o.result with
  | .ok found => b.addParsed o.path found
  | .error cause => b.addFailed o.path cause

def withDiagnostics (b : Batch) : Nat := (b.parsed.filter fun (_, found) => !found.isClean).length

def totalDiagnostics (b : Batch) : Nat := b.parsed.foldr (fun (_, found) n => found.diagnosticCount + n) 0

def totalTokens (b : Batch) : Nat := b.parsed.foldr (fun (_, found) n => found.analysis.tokenCount + n) 0

def successRate (b : Batch) : Binary64 := Binary64.ofRatio b.parsed.length b.processed

def successPercent (b : Batch) : String := (b.successRate.mul (Binary64.ofRatio 100 1)).fixed 1

def merge (a b : Batch) : Batch :=
  { a with parsed := a.parsed ++ b.parsed, failed := a.failed ++ b.failed, processed := a.processed + b.processed }

def sorted (b : Batch) : Batch :=
  { b with
    parsed := b.parsed.mergeSort fun x y => x.1.le y.1
    failed := b.failed.mergeSort fun x y => x.1.le y.1 }

def seconds (milliseconds : Nat) : String := Binary64.fixedRatio milliseconds 1000 2

def summary (b : Batch) (milliseconds : Nat) : String :=
  s!"Batch processing completed: {b.processed} files processed, {b.parsed.length} parsed ({b.successPercent}%), "
    ++ s!"{b.withDiagnostics} with diagnostics, {b.failed.length} failed, {seconds milliseconds}s total"

end Batch

end CalExport
