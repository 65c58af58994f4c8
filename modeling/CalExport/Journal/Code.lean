namespace CalExport

structure Code where
  text : String
deriving DecidableEq, Repr

inductive Severity where
  | critical | high | medium | low
deriving DecidableEq, Repr

def Severity.name : Severity → String
  | .critical => "Critical"
  | .high => "High"
  | .medium => "Medium"
  | .low => "Low"

structure Code.Entry where
  code : String
  category : String
  severity : Severity
  recoverable : Bool
  halts : Bool
  description : String
  action : String
deriving DecidableEq, Repr

namespace Code

def internalError : Code := ⟨"ERR001"⟩
def initializationFailure : Code := ⟨"ERR002"⟩
def fileNotFound : Code := ⟨"E005"⟩
def invalidExtension : Code := ⟨"E006"⟩
def fileTooLarge : Code := ⟨"E007"⟩
def emptyFile : Code := ⟨"E008"⟩
def permissionDenied : Code := ⟨"E009"⟩
def invalidEncoding : Code := ⟨"E010"⟩
def ioError : Code := ⟨"E011"⟩
def invalidPath : Code := ⟨"E012"⟩
def invalidCharacter : Code := ⟨"E020"⟩
def unterminatedString : Code := ⟨"E021"⟩
def invalidNumber : Code := ⟨"E022"⟩
def identifierTooLong : Code := ⟨"E023"⟩
def stringTooLarge : Code := ⟨"E024"⟩
def tooManyTokens : Code := ⟨"E027"⟩
def unterminatedComment : Code := ⟨"E028"⟩
def unexpectedToken : Code := ⟨"E050"⟩
def unexpectedEndOfInput : Code := ⟨"E051"⟩
def missingDelimiter : Code := ⟨"E052"⟩
def reservedKeywordAsIdentifier : Code := ⟨"E053"⟩
def invalidIntegerLiteral : Code := ⟨"E054"⟩
def invalidTypeDescriptor : Code := ⟨"E055"⟩
def arrayDimensionLimit : Code := ⟨"E056"⟩
def invalidForTarget : Code := ⟨"E057"⟩
def missingName : Code := ⟨"E058"⟩
def unknownTrigger : Code := ⟨"E059"⟩
def foreignConstruct : Code := ⟨"E060"⟩
def nestingTooDeep : Code := ⟨"E087"⟩
def diagnosticLimitReached : Code := ⟨"E088"⟩
def operationDone : Code := ⟨"I001"⟩
def initialized : Code := ⟨"I004"⟩
def fileRead : Code := ⟨"I006"⟩
def filesFound : Code := ⟨"I007"⟩
def tokenized : Code := ⟨"I020"⟩
def treeBuilt : Code := ⟨"I040"⟩
def sectionSkipped : Code := ⟨"I041"⟩

def registry : List Entry :=
  [⟨"ERR001", "System", .critical, false, true, "Critical internal system error",
    "File a bug report with the failing input"⟩,
   ⟨"ERR002", "System", .critical, false, true, "System initialization failure",
    "Check configuration and environment variables"⟩,
   ⟨"E005", "FileProcessing", .high, false, false, "File not found",
    "Verify the path exists"⟩,
   ⟨"E006", "FileProcessing", .medium, true, false, "File extension is not a recognised C/AL export",
    "Export objects as .txt or adjust CAL_FILE_EXTENSIONS"⟩,
   ⟨"E007", "FileProcessing", .high, false, false, "File exceeds the compile-time size limit",
    "Split the export into smaller object files"⟩,
   ⟨"E008", "FileProcessing", .low, true, false, "File is empty",
    "Nothing to parse"⟩,
   ⟨"E009", "FileProcessing", .high, false, false, "Permission denied",
    "Check file permissions"⟩,
   ⟨"E010", "FileProcessing", .medium, false, false, "File is not valid UTF-8 and lossy decoding is disabled",
    "Enable CAL_FILE_LOSSY_DECODING or re-export as UTF-8"⟩,
   ⟨"E011", "FileProcessing", .high, false, false, "I/O error while reading file",
    "Retry or check the storage device"⟩,
   ⟨"E012", "FileProcessing", .medium, false, false, "Invalid file path",
    "Provide a path to a regular file"⟩,
   ⟨"E020", "Lexical", .low, true, false, "Character not valid in C/AL source",
    "Remove the character or quote the surrounding name"⟩,
   ⟨"E021", "Lexical", .medium, true, false, "String literal not terminated before end of line",
    "Close the string with a single quote"⟩,
   ⟨"E022", "Lexical", .medium, true, false, "Malformed numeric literal",
    "Check digits and the D/T/DT suffix"⟩,
   ⟨"E023", "Lexical", .medium, false, false, "Identifier exceeds the compile-time length limit",
    "Shorten the identifier"⟩,
   ⟨"E024", "Lexical", .high, false, false, "String literal exceeds the compile-time size limit",
    "Shorten the literal"⟩,
   ⟨"E027", "Lexical", .high, false, true, "Token count exceeds the compile-time limit",
    "Split the export into smaller object files"⟩,
   ⟨"E028", "Lexical", .medium, true, false, "Block comment not terminated",
    "Close the comment"⟩,
   ⟨"E050", "Syntax", .high, true, false, "Unexpected token",
    "Check the construct against C/AL syntax"⟩,
   ⟨"E051", "Syntax", .high, true, false, "Input ended inside a construct",
    "The export may be truncated; re-export the object"⟩,
   ⟨"E052", "Syntax", .medium, true, false, "Missing delimiter",
    "Insert the missing ';' or closing bracket"⟩,
   ⟨"E053", "Syntax", .high, true, false, "Reserved keyword used as a name",
    "Rename the variable or quote the name"⟩,
   ⟨"E054", "Syntax", .medium, true, false, "Integer literal out of range",
    "Use a value within 64-bit range"⟩,
   ⟨"E055", "Syntax", .medium, true, false, "Malformed DotNet or Automation type descriptor",
    "Re-export the object from the development environment"⟩,
   ⟨"E056", "Syntax", .medium, true, false, "Array declares more than ten dimensions",
    "Reduce the number of array dimensions"⟩,
   ⟨"E057", "Syntax", .medium, true, false, "FOR loop variable must be a name or field reference",
    "Use a plain variable as the loop counter"⟩,
   ⟨"E058", "Syntax", .medium, true, false, "Declaration is missing its name",
    "Add the missing name"⟩,
   ⟨"E059", "Syntax", .low, true, false, "Trigger name is not a known C/AL trigger",
    "Check the trigger name spelling"⟩,
   ⟨"E060", "Syntax", .medium, true, false, "AL-only construct found in C/AL source",
    "Rewrite the construct with its C/AL equivalent"⟩,
   ⟨"E087", "Syntax", .high, true, false, "Nesting exceeds the maximum parse depth",
    "Reduce nesting of statements or expressions"⟩,
   ⟨"E088", "Syntax", .medium, true, false, "Diagnostic limit reached; further diagnostics were dropped",
    "Fix the reported problems and parse again"⟩,
   ⟨"I001", "Success", .low, true, false, "Operation completed successfully",
    "None"⟩,
   ⟨"I004", "Success", .low, true, false, "System initialization completed",
    "None"⟩,
   ⟨"I006", "Success", .low, true, false, "File processed",
    "None"⟩,
   ⟨"I007", "Success", .low, true, false, "File discovery completed",
    "None"⟩,
   ⟨"I020", "Success", .low, true, false, "Tokenization completed",
    "None"⟩,
   ⟨"I040", "Success", .low, true, false, "Syntax tree construction completed",
    "None"⟩,
   ⟨"I041", "Success", .low, true, false, "Unsupported section skipped",
    "None"⟩]

def entry? (c : Code) : Option Entry := registry.find? fun e => e.code == c.text

def severity (c : Code) : Severity := (c.entry?.map Entry.severity).getD .medium

def isRecoverable (c : Code) : Bool := (c.entry?.map Entry.recoverable).getD true

def halts (c : Code) : Bool := (c.entry?.map Entry.halts).getD false

def description (c : Code) : String := (c.entry?.map Entry.description).getD "Unknown error"

def action (c : Code) : String := (c.entry?.map Entry.action).getD "No specific action available"

def category (c : Code) : String := (c.entry?.map Entry.category).getD "Unknown"

end Code

end CalExport
