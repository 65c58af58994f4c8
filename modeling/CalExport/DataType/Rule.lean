import CalExport.DataType.Basic
import CalExport.Rule.Leaf

namespace CalExport.Rule

open Text

def sizableTypes : List String := ["Code", "Text", "Decimal"]

/-- `Code20` as `Code` and 20. Other names have no length, nor have digits beyond 32 bits. -/
def splitSize (name : String) : String × Option Nat :=
  let cs := name.toList
  let digits := (cs.reverse.takeWhile Char.isDigit).reverse
  let base := String.ofList (cs.take (cs.length - digits.length))
  let length := digitsValue (String.ofList digits)
  if digits.isEmpty || !(sizableTypes.any fun t => sameIgnoringCase t base) || UInt32.size ≤ length then (name, none)
  else (base, some length)

def simpleType : Rule DataType := do
  let start ← here
  let name := (← advance).text
  let (base, embedded) := splitSize name
  if ← accept .leftBracket then
    let length ← size
    let _ ← expect .rightBracket
    return .simple s!"{base}[{length}]" (some length) (← spanFrom start)
  else return .simple name embedded (← spanFrom start)

def objectNumber : Rule (Option Int) := do
  if ← check .integer then some <$> integer else return none

def referenceType (target : Keyword) : Rule DataType := do
  let start ← here
  let _ ← advance
  let id ← objectNumber
  return .reference target id (← spanFrom start)

def skipTextRound (_ : Unit) : Parse (ForInStep Unit) := do
  if ← accept .string then
    let _ ← accept .comma
    return .yield ()
  else return .done ()

def skipTexts : Parse Unit := loop () skipTextRound

def textConstType : Rule DataType := do
  let start ← here
  let _ ← expect (.keyword .textConst)
  skipTexts
  return .textConst (← spanFrom start)

/-- Reads a descriptor behind a type's keyword. A missing or malformed one is reported and leaves the type without. -/
def descriptor (typeName : String) (read : String → Except DescriptorError α) : Parse (Option α) := do
  let token ← peek
  match token.kind with
  | .quotedIdentifier | .string =>
    let _ ← advance
    match read token.value with
    | .ok info => return some info
    | .error cause =>
      report (.invalidDescriptor cause token.span)
      return none
  | _ =>
    report (.invalidDescriptor (.missingDescriptor typeName) token.span)
    return none

def dotNetType : Rule DataType := do
  let start ← here
  let _ ← expect (.keyword .dotNet)
  let info ← descriptor "DotNet" DotNetInfo.ofString
  return .dotNet info (← spanFrom start)

def automationType : Rule DataType := do
  let start ← here
  let _ ← expect (.keyword .automation)
  let info ← descriptor "Automation" AutomationInfo.ofString
  return .automation info (← spanFrom start)

def dimensionRound (dimensions : Array Nat) : Rule (ForInStep (Array Nat)) := do
  if ← accept .comma then return .yield (dimensions.push (← size)) else return .done dimensions

def dimensions : Rule (Array Nat) := do
  let opening ← expect .leftBracket
  let found ← tryLoop #[← size] dimensionRound
  let closing ← expect .rightBracket
  if maxArrayDimensions < found.size then
    report (.tooManyDimensions found.size (opening.span.merge closing.span))
    return found
  else return found

def arrayType (element : Rule DataType) : Rule DataType := do
  let start ← here
  let _ ← expect (.keyword .array)
  let found ← dimensions
  let _ ← expect (.keyword .of)
  let temporary ← accept (.keyword .temporary)
  let element ← element
  return .array found.toList temporary element (← spanFrom start)

/-- A type; `element` reads the element type of an array. -/
def dataTypeWith (element : Rule DataType) : Rule DataType := do
  let token ← peek
  match token.kind with
  | .keyword .array => arrayType element
  | .keyword .textConst => textConstType
  | .keyword .dotNet => dotNetType
  | .keyword .automation => automationType
  | .string =>
    let _ ← advance
    return .options token.text token.value token.span
  | .identifier | .keyword .code => simpleType
  | .keyword k =>
    if k.isObjectReference || k == .form then referenceType k else throw (.expected "data type" token)
  | _ => throw (.expected "data type" token)

/-- Element types with so many nesting levels left. -/
def elementType : Nat → Rule DataType
  | 0 => tooDeep
  | n + 1 => fun s => nested (dataTypeWith (elementType n)) s

def dataType : Rule DataType := fun s => dataTypeWith (elementType s.freeLevels) s

end CalExport.Rule
