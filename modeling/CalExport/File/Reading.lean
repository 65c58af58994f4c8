import CalExport.File.Encoding
import CalExport.File.Size
import CalExport.File.Tree
import CalExport.Journal.Work
import CalExport.Preferences.Basic
import CalExport.Text.Basic
import CalExport.Text.Quoted

namespace CalExport

open Text

inductive FileError where
  | notFound (path : String)
  | invalidExtension (extension : Option String) (allowed : List String)
  | tooLarge (size : Nat)
  | empty
  | invalidEncoding (path : String)
  | invalidPath (path : String)
deriving DecidableEq, Repr

namespace FileError

def message : FileError → String
  | .notFound path => "File not found: " ++ path
  | .invalidExtension extension allowed =>
    let found := match extension with
      | some text => "Some(" ++ quoted text ++ ")"
      | none => "None"
    "Invalid file extension: expected one of [" ++ ", ".intercalate (allowed.map quoted) ++ "], found " ++ found
  | .tooLarge size => s!"File too large: {size} bytes (max: {maxFileSize})"
  | .empty => "File is empty"
  | .invalidEncoding path => "File is not valid UTF-8: " ++ path
  | .invalidPath path => "Invalid file path: " ++ path

def code : FileError → Code
  | .notFound _ => .fileNotFound
  | .invalidExtension .. => .invalidExtension
  | .tooLarge _ => .fileTooLarge
  | .empty => .emptyFile
  | .invalidEncoding _ => .invalidEncoding
  | .invalidPath _ => .invalidPath

def event (e : FileError) (message : String) : Event := Event.error e.code message

end FileError

structure Metadata where
  path : Path
  size : Nat
  extension : Option String
  lineCount : Nat
  encoding : Encoding

structure SourceFile where
  source : String
  metadata : Metadata

def SourceFile.isBlank (f : SourceFile) : Bool := f.source.toList.all Text.isBlank

namespace FilePreferences

def withExtensions (p : FilePreferences) (extensions : List String) : FilePreferences :=
  { p with extensions := extensions.map lowerCase }

/-- Whether a path has the extension of an export file. -/
def accepts (p : FilePreferences) (path : Path) : Bool := path.extension?.any fun e => p.extensions.contains e

def locate (fs : FileSystem) (path : Path) : Attempt FileError Content := do
  if path.isEmpty then
    let error := FileError.invalidPath path.text
    Attempt.fail error (error.event "Empty file path provided")
  else
    match fs.find? path with
    | none =>
      let error := FileError.notFound path.text
      Attempt.fail error ((error.event "File not found").set "path" path.text)
    | some (.directory _) =>
      let error := FileError.invalidPath path.text
      Attempt.fail error ((error.event "Path is not a file").set "path" path.text)
    | some (.file content) => return content

def check (p : FilePreferences) (path : Path) (size : Nat) : Attempt FileError Unit := do
  if isTooLarge size then
    let error := FileError.tooLarge size
    Attempt.fail error ((((error.event "File exceeds compile-time maximum size limit").set "file" path.text).set
      "size" (humanSize size)).set "limit" (humanSize maxFileSize))
  else if size = 0 then
    Attempt.fail .empty ((FileError.empty.event "File is empty").set "file" path.text)
  else if p.accepts path then return
  else
    let error := FileError.invalidExtension path.extension? p.extensions
    Attempt.fail error (((error.event "File is not a recognised C/AL export").set "file" path.text).set
      "allowed" (",".intercalate p.extensions))

def decode (p : FilePreferences) (path : Path) (bytes : ByteArray) : Attempt FileError (String × Encoding) := do
  match Encoding.decode? p.lossy bytes with
  | none =>
    let error := FileError.invalidEncoding path.text
    Attempt.fail error ((error.event "Export is not UTF-8").set "file" path.text)
  | some (text, encoding) =>
    if encoding = .latin1 then
      Attempt.report (((Event.warning "Export is not UTF-8, decoding as Latin-1").set "file" path.text).set
        "first_invalid_byte" (toString (Encoding.firstInvalid bytes)))
    return (text, encoding)

def read (p : FilePreferences) (fs : FileSystem) (path : Path) : Attempt FileError SourceFile := do
  Attempt.report ((Event.debug "Starting file processing").set "file" path.text)
  let content ← locate fs path
  p.check path content.size
  let bytes := content.toBytes
  Attempt.report (((Event.debug "File content read").set "file" path.text).set "bytes" (toString bytes.size))
  let (source, encoding) ← p.decode path bytes
  let lines := lineCount source
  Attempt.report (((((((Event.success .fileRead "File processed successfully").set "file" path.text).set
    "size" (humanSize content.size)).set "lines" (toString lines)).set "encoding" encoding.name).set
    "large_file" (toString (isLargeFile content.size))).set "duration_ms" unmeasured)
  return ⟨source, ⟨path, content.size, path.extension?, lines, encoding⟩⟩

end FilePreferences

end CalExport
