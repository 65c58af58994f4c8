import CalExport.Preferences.Basic
import CalExport.Text.Basic
import CalExport.Text.LowerCase

namespace CalExport

open Text

abbrev Environment := String → Option String

def Level.ofText? (text : String) : Option Level :=
  match lowerCase text with
  | "error" | "0" => some .error
  | "warning" | "warn" | "1" => some .warning
  | "info" | "2" => some .info
  | "debug" | "3" => some .debug
  | _ => none

namespace Environment

def flag (env : Environment) (name : String) (default : Bool) : Bool :=
  match env name with
  | some "true" => true
  | some "false" => false
  | _ => default

def extensions (text : String) : List String :=
  ((parts ',' text.toList).map fun part => lowerCase (String.ofList ((trim part).dropWhile (· == '.')))).filter
    fun extension => !extension.isEmpty

def parser (env : Environment) : ParserPreferences where
  recordSkipped := env.flag "CAL_PARSER_RECORD_SKIPPED_REGIONS" true
  logRecovery := env.flag "CAL_PARSER_LOG_RECOVERY_DETAILS" false

def files (env : Environment) : FilePreferences where
  extensions :=
    match (env "CAL_FILE_EXTENSIONS").map extensions with
    | none | some [] => ["txt", "cal"]
    | some chosen => chosen
  lossy := env.flag "CAL_FILE_LOSSY_DECODING" true

def log (env : Environment) : LogPreferences where
  structured := env.flag "CAL_LOGGING_USE_STRUCTURED" false
  console := env.flag "CAL_LOGGING_ENABLE_CONSOLE" true
  level := ((env "CAL_LOGGING_MIN_LEVEL").bind Level.ofText?).getD .warning
  fileContext := env.flag "CAL_LOGGING_INCLUDE_FILE_CONTEXT" true

def preferences (env : Environment) : Preferences := ⟨env.parser, env.files, env.log⟩

end Environment

def Environment.names : List String :=
  ["CAL_PARSER_RECORD_SKIPPED_REGIONS", "CAL_PARSER_LOG_RECOVERY_DETAILS", "CAL_FILE_EXTENSIONS",
   "CAL_FILE_LOSSY_DECODING", "CAL_LOGGING_USE_STRUCTURED", "CAL_LOGGING_ENABLE_CONSOLE", "CAL_LOGGING_MIN_LEVEL",
   "CAL_LOGGING_INCLUDE_FILE_CONTEXT"]

end CalExport
