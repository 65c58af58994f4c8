import CalExport.CommandLine.Run
import Std.Time.DateTime.Timestamp

namespace CalExport.CommandLine

def maxDirectoryDepth : Nat := 1000

/-- What a path leads to on the disk. A file that is too large to be read is known by its size only, and what cannot
be read is not there. -/
def fetch : Nat → String → IO (Option Node)
  | 0, _ => return none
  | levels + 1, path => do
    let place := (← IO.currentDir) / path
    try
      if ← place.isDir then
        let mut entries := #[]
        for entry in ← place.readDir do
          if let some node ← fetch levels (Path.child ⟨path⟩ entry.fileName).text then
            entries := entries.push (entry.fileName, node)
        return some (.directory entries.toList)
      else if ← place.pathExists then
        let size := (← place.metadata).byteSize.toNat
        if isTooLarge size then return some (.file (.zeros size))
        else return some (.file (.bytes (← IO.FS.readBinFile place)))
      else return none
    catch _ => return none

def fetchAll : List String → IO FileSystem
  | [] => return fun _ => .error .missing
  | path :: rest => do
    let others ← fetchAll rest
    match ← fetch maxDirectoryDepth path with
    | some node => return (node.mount ⟨path⟩).orElse others
    | none => return others

def pathsOf : List String → List String
  | [] => []
  | first :: rest => first :: ((Options.read { threads := 1 } rest).1.config).toList

def printLines (stream : IO.FS.Stream) (clock : Clock) (lines : Array Line) : IO Unit :=
  lines.forM fun line => (line.render clock).forM stream.putStrLn

end CalExport.CommandLine

open CalExport CalExport.CommandLine in
def main (arguments : List String) : IO UInt32 := do
  let started ← IO.monoMsNow
  let settings ← Environment.names.mapM fun name => do return (name, ← IO.getEnv name)
  let files ← fetchAll (pathsOf arguments)
  let program := ((← IO.appPath).fileName).getD "cal_export"
  let (code, console) := run
    { program, arguments, files, processors := 4, environment := fun name => (settings.lookup name).join }
  let now := (← Std.Time.Timestamp.now).toSecondsSinceUnixEpoch.val.toNat
  let clock : Clock := ⟨now, (← IO.monoMsNow) - started⟩
  printLines (← IO.getStderr) clock console.err
  printLines (← IO.getStdout) clock console.out
  return code
