import CalExport.Batch.Basic
import CalExport.Batch.Discovery

namespace CalExport

def maxWorkers : Nat := 16

def maxChunk : Nat := 50

structure BatchOptions where
  threads : Nat := 1
  selection : Selection := {}
  /-- Stop when a file cannot be read. -/
  failFast : Bool := false
  preferences : Preferences := {}
deriving DecidableEq, Repr

namespace BatchOptions

def workers (o : BatchOptions) : Nat := min (max o.threads 1) maxWorkers

end BatchOptions

namespace Batch

def ceilDiv (num den : Nat) : Nat := (num + den - 1) / den

def chunkSize (files workers : Nat) : Nat := min (max (ceilDiv files (max workers 1)) 1) maxChunk

/-- Consecutive blocks of a list; the last may be shorter. No block is empty. -/
def blocks (size : Nat) : List α → List (List α)
  | [] => []
  | a :: rest => (a :: rest.take (size - 1)) :: blocks size (rest.drop (size - 1))
termination_by l => l.length
decreasing_by
  simp only [List.length_drop, List.length_cons]
  omega

/-- What happens to one file, given its number in the batch. -/
abbrev Examiner := Nat → Path → Work (Except FileFailure FileAnalysis)

def reportStop : Work Unit := Work.report (Event.warning "Fail-fast mode enabled, stopping batch processing")

/-- Files one after the other, added to a batch. With `failFast` the first failure is the last file. -/
def runSequence (examine : Examiner) (failFast : Bool) (b : Batch) : List (Path × Nat) → Work Batch
  | [] => return b
  | (path, id) :: rest => do
    let outcome : Outcome := ⟨path, ← examine id path⟩
    if failFast && outcome.isFailure then
      reportStop
      return b.add outcome
    else runSequence examine failFast (b.add outcome) rest

def ofSequence (examine : Examiner) (failFast : Bool) (files : List Path) : Work Batch :=
  runSequence examine failFast { discovered := files.length } files.zipIdx

/-- The files that each worker gets of a chunk, and where in the chunk they start. Workers get the same number of files
each, until there are none left. -/
def shares (workers : Nat) (chunk : List Path) : List (Nat × List Path) :=
  let size := ceilDiv chunk.length workers
  ((List.range workers).takeWhile fun worker => worker * size < chunk.length).map fun worker =>
    (worker * size, chunk.extract (worker * size) (min ((worker + 1) * size) chunk.length))

def runShare (examine : Examiner) (firstId : Nat) (share : Nat × List Path) : Work (List Outcome) :=
  share.2.zipIdx.mapM fun (path, localId) => do return ⟨path, ← examine (firstId + share.1 + localId) path⟩

/-- The order in which the outcomes of all workers reach the collector. -/
abbrev Arrival := List (List Outcome) → List Outcome

def runChunk (examine : Examiner) (arrival : Arrival) (workers firstId : Nat) (chunk : List Path) : Work Batch := do
  return (arrival (← (shares workers chunk).mapM (runShare examine firstId))).foldl add {}

/-- Chunk after chunk, each with its place among the chunks. With `failFast` the first chunk with a failure is the
last. -/
def runChunks (examine : Examiner) (arrival : Arrival) (workers size : Nat) (failFast : Bool) (b : Batch) :
    List (List Path × Nat) → Work Batch
  | [] => return b
  | (chunk, index) :: rest => do
    let merged := b.merge (← runChunk examine arrival workers (index * size) chunk)
    if failFast && decide (0 < merged.failed.length) then
      reportStop
      return merged
    else runChunks examine arrival workers size failFast merged rest

/-- The results of examining files with workers, in the order of paths whatever the order of arrival. -/
def ofWorkers (examine : Examiner) (arrival : Arrival) (workers : Nat) (failFast : Bool) (files : List Path) :
    Work Batch := do
  let size := chunkSize files.length workers
  return (← runChunks examine arrival workers size failFast { discovered := files.length }
    (blocks size files).zipIdx).sorted

def outcomeEvent (path : Path) : Except FileFailure FileAnalysis → Event
  | .ok found =>
    ((Event.debug "File parsed").set "file" path.text).set "diagnostics" (toString found.diagnosticCount)
  | .error cause =>
    ((Event.error cause.code "File processing failed").set "file" path.text).set "error" cause.message

def examiner (p : Preferences) (fs : FileSystem) : Examiner := fun id path =>
  Work.attributed p.log.fileContext path.text id do
    let result ← (p.examine fs path).run
    Work.report (outcomeEvent path result)
    return result

/-- Adds the counts of a batch to the event that closes it. -/
def closing (b : Batch) (message : String) : Event :=
  (((((Event.success .operationDone message).set "files_processed" (toString b.processed)).set
    "parsed" (toString b.parsed.length)).set "failed" (toString b.failed.length)).set
    "diagnostics" (toString b.totalDiagnostics)).set "duration_ms" unmeasured

def sequential (o : BatchOptions) (fs : FileSystem) (dir : Path) : Attempt BatchError Batch := do
  Attempt.report ((Event.info "Starting sequential batch processing").set "directory" dir.text)
  let files ← o.selection.discover o.preferences.files fs dir
  let batch ← ExceptT.lift (ofSequence (examiner o.preferences fs) o.failFast files)
  Attempt.report (batch.closing "Sequential batch processing completed")
  return batch

def parallel (o : BatchOptions) (fs : FileSystem) (dir : Path) : Attempt BatchError Batch := do
  Attempt.report (((Event.info "Starting parallel batch processing").set "directory" dir.text).set
    "max_threads" (toString o.workers))
  let files ← o.selection.discover o.preferences.files fs dir
  Attempt.report ((((Event.debug "Parallel processing configuration").set "total_files" (toString files.length)).set
    "chunk_size" (toString (chunkSize files.length o.workers))).set "threads" (toString o.workers))
  let batch ← ExceptT.lift (ofWorkers (examiner o.preferences fs) List.flatten o.workers o.failFast files)
  Attempt.report ((batch.closing "Parallel batch processing completed").set "threads_used" (toString o.workers))
  return batch

def run (o : BatchOptions) (fs : FileSystem) (dir : Path) : Attempt BatchError Batch :=
  if o.workers = 1 then sequential o fs dir else parallel o fs dir

end Batch

end CalExport
