import CalExport.Diagnostic.Description
import CalExport.DataType.Descriptor
import CalExport.Journal.Code
import CalExport.Token.Cursor

namespace CalExport

open Text

def maxArrayDimensions : Nat := 10

inductive Fault where
  | unexpectedToken (expected found : String) (span : Span)
  | unexpectedEnd (expected : String) (span : Span)
  | reservedKeyword (keyword : Keyword) (role : String) (span : Span)
  | invalidInteger (found : String) (span : Span)
  | invalidDescriptor (cause : DescriptorError) (span : Span)
  | tooManyDimensions (count : Nat) (span : Span)
  | invalidForTarget (span : Span)
  | missingName (what : String) (span : Span)
  | unknownTrigger (name : String) (span : Span)
  | foreignConstruct (construct instead : String) (span : Span)
  | missingDelimiter (delimiter found : String) (span : Span)
  | nestingTooDeep (span : Span)
deriving DecidableEq, Repr

namespace Fault

def expected (what : String) (found : Token) : Fault :=
  if found.kind = .eof then .unexpectedEnd what found.span
  else .unexpectedToken what found.description found.span

def missing (delimiter : String) (found : Token) : Fault := .missingDelimiter delimiter found.description found.span

def message : Fault → String
  | .unexpectedToken expected found _ => "Expected " ++ expected ++ ", found " ++ found
  | .unexpectedEnd expected _ => "Unexpected end of input, expected " ++ expected
  | .reservedKeyword keyword role _ => "Cannot use reserved keyword '" ++ keyword.spelling ++ "' as " ++ role
  | .invalidInteger found _ => "Invalid integer literal " ++ found
  | .invalidDescriptor cause _ => "Invalid type descriptor: " ++ cause.message
  | .tooManyDimensions count _ =>
    s!"Array declares {count} dimensions, at most {maxArrayDimensions} are allowed"
  | .invalidForTarget _ => "FOR loop variable must be a name or a member access"
  | .missingName what _ => "Missing " ++ what ++ " name"
  | .unknownTrigger name _ => "Unknown trigger " ++ name
  | .foreignConstruct construct instead _ => construct ++ " is not supported in C/AL, use " ++ instead ++ " instead"
  | .missingDelimiter delimiter found _ => "Missing '" ++ delimiter ++ "' before " ++ found
  | .nestingTooDeep _ => "Maximum nesting depth exceeded"

def code : Fault → Code
  | .unexpectedToken .. => .unexpectedToken
  | .unexpectedEnd .. => .unexpectedEndOfInput
  | .reservedKeyword .. => .reservedKeywordAsIdentifier
  | .invalidInteger .. => .invalidIntegerLiteral
  | .invalidDescriptor .. => .invalidTypeDescriptor
  | .tooManyDimensions .. => .arrayDimensionLimit
  | .invalidForTarget _ => .invalidForTarget
  | .missingName .. => .missingName
  | .unknownTrigger .. => .unknownTrigger
  | .foreignConstruct .. => .foreignConstruct
  | .missingDelimiter .. => .missingDelimiter
  | .nestingTooDeep _ => .nestingTooDeep

def span : Fault → Span
  | .unexpectedToken _ _ span | .unexpectedEnd _ span | .reservedKeyword _ _ span | .invalidInteger _ span
  | .invalidDescriptor _ span | .tooManyDimensions _ span | .invalidForTarget span | .missingName _ span
  | .unknownTrigger _ span | .foreignConstruct _ _ span | .missingDelimiter _ _ span | .nestingTooDeep span => span

end Fault

end CalExport
