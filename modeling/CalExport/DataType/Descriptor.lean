import CalExport.Text.Basic

namespace CalExport

open Text

structure DotNetInfo where
  assembly : String
  typeName : String
deriving DecidableEq, Repr

structure AutomationInfo where
  typeLib : String
  version : String
  classId : String
  library : String
  className : String
deriving DecidableEq, Repr

inductive DescriptorError where
  | missingDescriptor (typeName : String)
  | missingAssembly
  | missingTypeName
  | malformedAutomation
deriving DecidableEq, Repr

def DescriptorError.message : DescriptorError → String
  | .missingDescriptor typeName => typeName ++ " type must be followed by a quoted descriptor"
  | .missingAssembly => "DotNet descriptor does not start with a quoted assembly reference"
  | .missingTypeName => "DotNet descriptor has no type name after the assembly reference"
  | .malformedAutomation =>
    "Automation descriptor does not match \x7bTypeLib\x7d Version:\x7bClass\x7d:'Library'.Class"

def splitAtChar? (c : Char) (cs : List Char) : Option (List Char × List Char) :=
  match cs.dropWhile (· != c) with
  | [] => none
  | _ :: behind => some (cs.takeWhile (· != c), behind)

def afterChar? (c : Char) : List Char → Option (List Char)
  | d :: rest => if d = c then some rest else none
  | [] => none

namespace DotNetInfo

def quotedPart? (cs : List Char) : Option (List Char × List Char) := do
  splitAtChar? '\'' (← afterChar? '\'' cs)

def ofChars (cs : List Char) : Except DescriptorError DotNetInfo :=
  match quotedPart? cs with
  | none => .error .missingAssembly
  | some (inside, behind) =>
    let assembly := trim inside
    if assembly.isEmpty then .error .missingAssembly
    else
      match (afterChar? '.' behind).map trim with
      | none | some [] => .error .missingTypeName
      | some typeName => .ok ⟨String.ofList assembly, String.ofList typeName⟩

def ofString (s : String) : Except DescriptorError DotNetInfo := ofChars s.toList

end DotNetInfo

namespace AutomationInfo

def isGuidChar (c : Char) : Bool :=
  c.isDigit || ('a' ≤ c && c ≤ 'f') || ('A' ≤ c && c ≤ 'F') || c == '-'

def run? (p : Char → Bool) (cs : List Char) : Option (List Char × List Char) :=
  let found := cs.takeWhile p
  if found.isEmpty then none else some (found, cs.dropWhile p)

def guid? (cs : List Char) : Option (List Char × List Char) := do
  let (inside, behind) ← run? isGuidChar (← afterChar? '\x7b' cs)
  return (inside, ← afterChar? '\x7d' behind)

def isVersion : List Char → Bool
  | [] => false
  | [c] => c.isDigit
  | '.' :: _ => false
  | c :: '.' :: rest => c.isDigit && isVersion rest
  | c :: rest => c.isDigit && isVersion rest

def version? (cs : List Char) : Option (List Char × List Char) := do
  let (found, behind) ← run? (fun c => c.isDigit || c == '.') cs
  if isVersion found then some (found, behind) else none

def ofChars? (cs : List Char) : Option AutomationInfo := do
  let (typeLib, rest) ← guid? (trim cs)
  let (_, rest) ← run? isBlank rest
  let (version, rest) ← version? rest
  let (classId, rest) ← guid? (← afterChar? ':' rest)
  let (library, rest) ← splitAtChar? '\'' (← afterChar? '\'' (← afterChar? ':' rest))
  let className ← afterChar? '.' rest
  if className.isEmpty || className.contains '\n' then none
  else some ⟨String.ofList typeLib, String.ofList version, String.ofList classId, String.ofList library,
    String.ofList className⟩

def ofString (s : String) : Except DescriptorError AutomationInfo :=
  match ofChars? s.toList with
  | some info => .ok info
  | none => .error .malformedAutomation

end AutomationInfo

end CalExport
