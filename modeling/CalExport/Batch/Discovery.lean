import CalExport.File.Reading

namespace CalExport

def maxBatchFiles : Nat := 20000

inductive BatchError where
  | directoryNotFound (path : String)
  | noFiles (path : String)
  | tooManyFiles
deriving DecidableEq, Repr

def BatchError.message : BatchError → String
  | .directoryNotFound path => "Directory not found: " ++ path
  | .noFiles path => "No C/AL export files found in directory: " ++ path
  | .tooManyFiles => s!"Too many files found: more than {maxBatchFiles}"

structure Selection where
  recursive : Bool := true
  maxFiles : Option Nat := none
deriving DecidableEq, Repr

mutual

/-- Behind the files found so far, the accepted ones at a place: itself or, with `recursive`, those of the directory
there. -/
def gatherAt (accepts : Path → Bool) (recursive : Bool) (path : Path) (found : Array Path) : Node → Array Path
  | .file _ => if accepts path then found.push path else found
  | .directory entries => if recursive then gather accepts recursive path found entries else found

/-- Behind the files found so far, the accepted ones among the entries of a directory. A file that is one too many for
a batch is the last one of its directory. -/
def gather (accepts : Path → Bool) (recursive : Bool) (dir : Path) (found : Array Path) :
    List (String × Node) → Array Path
  | [] => found
  | (name, node) :: rest =>
    let more := gatherAt accepts recursive (dir.child name) found node
    if node.isFile && accepts (dir.child name) && maxBatchFiles < more.size then more
    else gather accepts recursive dir more rest

end

namespace Selection

def limit (s : Selection) : Nat :=
  match s.maxFiles with
  | some most => min most maxBatchFiles
  | none => maxBatchFiles

/-- Cuts a sorted list to what the selection allows. Without a wish for fewer, too many are an error. -/
def cut (s : Selection) (files : List Path) : Attempt BatchError (List Path) := do
  if s.limit < files.length then
    if s.maxFiles.isNone then throw .tooManyFiles
    else
      Attempt.report (((Event.warning "Reached maximum file limit").set "files_found" (toString files.length)).set
        "limit" (toString s.limit))
      return files.take s.limit
  else return files

def select (s : Selection) (dir : Path) (found : List Path) : Attempt BatchError (List Path) := do
  if found.isEmpty then throw (.noFiles dir.text)
  else
    let files ← s.cut found
    Attempt.report (((Event.success .filesFound "File discovery completed").set
      "files_found" (toString files.length)).set "directory" dir.text)
    return files

def discover (s : Selection) (p : FilePreferences) (fs : FileSystem) (dir : Path) : Attempt BatchError (List Path) := do
  Attempt.report (((Event.info "Starting file discovery").set "directory" dir.text).set
    "recursive" (toString s.recursive))
  match fs.find? dir with
  | some (.directory entries) =>
    s.select dir ((gather p.accepts s.recursive dir #[] entries).toList.mergeSort Path.le)
  | _ => throw (.directoryNotFound dir.text)

end Selection

end CalExport
