import CalExport.Rule.Step

namespace CalExport.Rule

def semicolon : Parse Unit := do
  if !(← accept .semicolon) then report (.missing ";" (← peek))

def digitsValue (text : String) : Nat := text.toList.foldl (fun n c => 10 * n + (c.toNat - 48)) 0

/-- The value of a token's digits up to a largest one; beyond it 0, with a report. -/
def boundedValue (largest : Nat) (token : Token) : Parse Nat := do
  let value := digitsValue token.text
  if value ≤ largest then return value
  else
    report (.invalidInteger token.description token.span)
    return 0

def integerValue (token : Token) : Parse Int := do return (← boundedValue 0x7fffffffffffffff token)

def integer : Rule Int := do
  let negative ← accept .minus
  let value ← integerValue (← expect .integer)
  return if negative then -value else value

def size : Rule Nat := do boundedValue 0xffffffff (← expect .integer)

def autoNumber : Rule (Option Int) := do
  if ← accept .atSign then return some (← integer) else return none

/-- A name that is being declared, with its number. A reserved word is named in the fault, with the `role` it was to
play. -/
def declaredName (role : String) : Rule (String × Option Int) := do
  let token ← peek
  if token.kind.canName then
    let _ ← advance
    return (token.value, ← autoNumber)
  else
    match token.kind with
    | .keyword k => throw (.reservedKeyword k role token.span)
    | _ => throw (.expected role token)

def declarationFollows (s : Parser) : Bool :=
  match (s.peekAhead 1).kind with
  | .colon | .atSign => true
  | _ => false

def opensBracket : Kind → Bool
  | .leftParen | .leftBracket | .leftBrace => true
  | _ => false

def closesBracket : Kind → Bool
  | .rightParen | .rightBracket | .rightBrace => true
  | _ => false

/-- Open brackets after one more token. Any closing bracket closes the innermost open one. -/
def bracketsAfter (depth : Nat) (kind : Kind) : Nat :=
  if opensBracket kind then depth + 1 else if closesBracket kind then depth - 1 else depth

def rawRound (stops : Kind → Bool) : Array Token × Nat → Parse (ForInStep (Array Token × Nat))
  | (taken, depth) => do
    let kind ← peekKind
    if kind = .eof ∨ (depth = 0 ∧ !opensBracket kind ∧ stops kind) then return .done (taken, depth)
    else
      let token ← advance
      return .yield (taken.push token, bracketsAfter depth kind)

/-- Passes tokens up to one that `stops`, which counts only outside the brackets that were opened on the way. -/
def raw (stops : Kind → Bool) : Parse (List Token) := do
  let (tokens, _) ← loop (#[], 0) (rawRound stops)
  return tokens.toList

def endsColumn : Kind → Bool
  | .semicolon | .rightBrace => true
  | _ => false

end CalExport.Rule
