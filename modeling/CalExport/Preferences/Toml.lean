import CalExport.Preferences.Report
import CalExport.Toml.Document

namespace CalExport

namespace Toml

def Item.asBoolean (key : String) : Item → Except Error Bool
  | .boolean b => .ok b
  | _ => .error (.wrongType key "a boolean")

def Item.asString (key : String) : Item → Except Error String
  | .string s => .ok s
  | _ => .error (.wrongType key "a string")

def Item.asStrings (key : String) : Item → Except Error (List String)
  | .array items => items.mapM (Item.asString key)
  | _ => .error (.wrongType key "an array of strings")

def levelNamed (key name : String) : Except Error Level :=
  match [Level.error, .warning, .info, .debug].find? fun level => level.name == name with
  | some level => .ok level
  | none => .error (.wrongType key "a level")

def Item.isVoid : Item → Bool
  | .array [] | .table _ [] => true
  | _ => false

def Item.asLevel (key : String) : Item → Except Error Level
  | .string name => levelNamed key name
  | .table kind ((name, item) :: rest) =>
    if item.isVoid ∧ (kind ≠ .inline ∨ rest = []) then levelNamed key name else .error (.wrongType key "a level")
  | _ => .error (.wrongType key "a level")

/-- A group of preferences: how to find the item of one by its key and its place. Dates count as empty groups. -/
def Item.asGroup (key : String) : Item → Except Error (String → Nat → Option Item)
  | .table _ entries => .ok fun name _ => entries.lookup name
  | .array items => .ok fun _ place => items[place]?
  | .tables rows => .ok fun _ place => rows[place]?.map (Item.table .header)
  | .dateTime _ => .ok fun _ _ => none
  | _ => .error (.wrongType key "a table")

def orElse (default : α) (read : Item → Except Error α) : Option Item → Except Error α
  | some item => read item
  | none => .ok default

end Toml

open Toml

def ParserPreferences.ofToml (p : ParserPreferences) (item : Item) : Except Error ParserPreferences := do
  let get ← item.asGroup "parser"
  return {
    recordSkipped :=
      ← orElse p.recordSkipped (Item.asBoolean "record_skipped_regions") (get "record_skipped_regions" 0)
    logRecovery := ← orElse p.logRecovery (Item.asBoolean "log_recovery_details") (get "log_recovery_details" 1) }

def FilePreferences.ofToml (p : FilePreferences) (item : Item) : Except Error FilePreferences := do
  let get ← item.asGroup "file_processor"
  return {
    extensions := ← orElse p.extensions (Item.asStrings "allowed_extensions") (get "allowed_extensions" 0)
    lossy := ← orElse p.lossy (Item.asBoolean "lossy_decoding") (get "lossy_decoding" 1) }

def LogPreferences.ofToml (p : LogPreferences) (item : Item) : Except Error LogPreferences := do
  let get ← item.asGroup "logging"
  return {
    structured := ← orElse p.structured (Item.asBoolean "use_structured_logging") (get "use_structured_logging" 0)
    console := ← orElse p.console (Item.asBoolean "enable_console_logging") (get "enable_console_logging" 1)
    level := ← orElse p.level (Item.asLevel "min_log_level") (get "min_log_level" 2)
    fileContext := ← orElse p.fileContext (Item.asBoolean "include_file_context") (get "include_file_context" 3) }

def Preferences.ofToml (p : Preferences) (text : String) : Except Error Preferences := do
  let entries ← Toml.ofString text
  return {
    parser := ← orElse p.parser p.parser.ofToml (entries.lookup "parser")
    files := ← orElse p.files p.files.ofToml (entries.lookup "file_processor")
    log := ← orElse p.log p.log.ofToml (entries.lookup "logging") }

end CalExport
