import CalExport.DataType.Descriptor
import CalExport.Token.Keyword
import CalExport.Text.Span

namespace CalExport

open Text

inductive DataType where
  /-- `Integer`, `Code20`, `Text[30]`. -/
  | simple (name : String) (length : Option Nat) (span : Span)
  /-- `Record 18`, `Codeunit 80`, or without a number. -/
  | reference (target : Keyword) (id : Option Int) (span : Span)
  | array (dimensions : List Nat) (temporary : Bool) (element : DataType) (span : Span)
  /-- `TextConst 'ENU=...'`; the texts are not kept. -/
  | textConst (span : Span)
  | dotNet (info : Option DotNetInfo) (span : Span)
  | automation (info : Option AutomationInfo) (span : Span)
  /-- An option type spelled out: the literal as it stands and what it holds. -/
  | options (literal value : String) (span : Span)
deriving Repr, DecidableEq, Inhabited

namespace DataType

def targetName : Keyword → String
  | .record => "Record"
  | .codeunit => "Codeunit"
  | .page => "Page"
  | .report => "Report"
  | .query => "Query"
  | .xmlPort => "XMLport"
  | .testPage => "TestPage"
  | .testRequestPage => "TestRequestPage"
  | .form => "Form"
  | other => other.spelling

def span : DataType → Span
  | .simple _ _ span | .reference _ _ span | .array _ _ _ span | .textConst span | .dotNet _ span
  | .automation _ span | .options _ _ span => span

def name : DataType → String
  | .simple name _ _ => name
  | .reference target none _ => targetName target
  | .reference target (some id) _ => targetName target ++ " " ++ toString id
  | .array dimensions temporary element _ =>
    "ARRAY [" ++ ",".intercalate (dimensions.map toString) ++ "] OF " ++ (if temporary then "TEMPORARY " else "")
      ++ element.name
  | .textConst _ => "TextConst"
  | .dotNet _ _ => "DotNet"
  | .automation _ _ => "Automation"
  | .options literal _ _ => literal

def length : DataType → Option Nat
  | .simple _ length _ => length
  | _ => none

def tableId : DataType → Option Int
  | .reference .record id _ => id
  | _ => none

def isArray : DataType → Bool
  | .array .. => true
  | _ => false

end DataType

end CalExport
