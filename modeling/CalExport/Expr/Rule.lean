import CalExport.Expr.Basic
import CalExport.Rule.Leaf

namespace CalExport.Rule

structure Deeper where
  expression : Rule Expr
  unary : Rule Expr

def leftAssocRound (operator? : Kind → Option BinaryOp) (right : BinaryOp → Rule Expr) (left : Expr) :
    Rule (ForInStep Expr) := do
  match operator? (← peekKind) with
  | none => return .done left
  | some op =>
    let _ ← advance
    return .yield (.join op left (← right op))

def leftAssoc (operator? : Kind → Option BinaryOp) (operand : Rule Expr) (right : BinaryOp → Rule Expr) :
    Rule Expr := do
  tryLoop (← operand) (leftAssocRound operator? right)

def orOp? : Kind → Option BinaryOp
  | .keyword .or_ => some .or
  | .keyword .xor_ => some .xor
  | _ => none

def andOp? : Kind → Option BinaryOp
  | .keyword .and_ => some .and
  | _ => none

def equalityOp? : Kind → Option BinaryOp
  | .equal => some .equal
  | .notEqual => some .notEqual
  | _ => none

def relationOp? : Kind → Option BinaryOp
  | .less => some .less
  | .lessEqual => some .lessEqual
  | .greater => some .greater
  | .greaterEqual => some .greaterEqual
  | .keyword .in_ => some .isIn
  | _ => none

def sumOp? : Kind → Option BinaryOp
  | .plus => some .add
  | .minus => some .subtract
  | _ => none

def productOp? : Kind → Option BinaryOp
  | .times => some .multiply
  | .divide => some .divide
  | .keyword .div_ => some .integerDivide
  | .keyword .mod_ => some .modulo
  | _ => none

def unaryOp? : Kind → Option UnaryOp
  | .keyword .not_ => some .not
  | .minus => some .negate
  | .plus => some .plus
  | _ => none

def commaRound (item : Rule α) (items : Array α) : Rule (ForInStep (Array α)) := do
  let next ← item
  if ← accept .comma then return .yield (items.push next) else return .done (items.push next)

def commaSeparated (item : Rule α) : Rule (List α) := do
  return (← tryLoop #[] (commaRound item)).toList

def listUpTo (close : Kind) (item : Rule α) : Rule (List α) := do
  if ← check close then return [] else commaSeparated item

def memberName (expected : String) : Rule String := do
  let token ← peek
  match token.kind with
  | .identifier | .quotedIdentifier | .keyword _ | .string | .integer => return (← advance).value
  | _ => throw (.expected expected token)

def endsExpression (k : Keyword) : Bool :=
  k.isStatementWord || k.isWordOperator || k.isDeclarationStart || k == .var

def decimalValue (text : String) : Binary64 :=
  let digits := text.toList.filter Char.isDigit
  let places := (text.toList.dropWhile (· != '.')).tail.length
  .ofDecimal (digitsValue (String.ofList digits)) places

def withoutSuffix (n : Nat) (text : String) : String := String.ofList (text.toList.take (text.length - n))

/-- The literal a token stands for, when it is one. Only an integer may be out of range, which is reported. -/
def literalOf? (token : Token) : Parse (Option Literal) :=
  match token.kind with
  | .integer => do return some (.integer (← integerValue token))
  | .decimal => return some (.decimal (decimalValue token.text))
  | .string => return some (.string token.value)
  | .date => return some (.date (withoutSuffix 1 token.text))
  | .time => return some (.time (withoutSuffix 1 token.text))
  | .dateTime => return some (.dateTime (withoutSuffix 2 token.text))
  | .keyword .true_ => return some (.boolean true)
  | .keyword .false_ => return some (.boolean false)
  | _ => return none

def rangeGoesOn : Kind → Bool
  | .comma | .rightBracket | .colon | .eof => false
  | _ => true

section

variable (sub : Deeper)

def rangeEndWith : Rule (Option Expr) := do
  if rangeGoesOn (← peekKind) then some <$> sub.expression else return none

def elementWith : Rule Expr := do
  let start ← here
  if ← accept .dotDot then
    let last ← sub.expression
    return .range none (some last) (← spanFrom start)
  else
    let first ← sub.expression
    if ← accept .dotDot then
      let last ← rangeEndWith sub
      return .range (some first) last (← spanFrom start)
    else return first

def setLiteralWith : Rule Expr := do
  let start ← here
  let _ ← expect .leftBracket
  let elements ← listUpTo .rightBracket (elementWith sub)
  let _ ← expect .rightBracket
  return .set elements (← spanFrom start)

def parenthesizedWith : Rule Expr := do
  let _ ← expect .leftParen
  let inner ← sub.expression
  let _ ← expect .rightParen
  return inner

def wordOrLiteral (token : Token) : Rule Expr := do
  if token.kind.isLiteral then
    let _ ← advance
    match ← literalOf? token with
    | some value => return .literal value token.text token.span
    | none => throw (.expected "expression" token)
  else
    match token.kind with
    | .keyword k =>
      if endsExpression k then throw (.expected "expression" token)
      else
        let _ ← advance
        return .identifier token.text token.span
    | _ => throw (.expected "expression" token)

def primaryWith : Rule Expr := do
  let token ← peek
  match token.kind with
  | .leftParen => parenthesizedWith sub
  | .leftBracket => setLiteralWith sub
  | .identifier | .quotedIdentifier =>
    let _ ← advance
    return .identifier token.value token.span
  | _ => wordOrLiteral token

def trailerRound (start : Nat) (e : Expr) : Rule (ForInStep Expr) := do
  match ← peekKind with
  | .dot =>
    let _ ← advance
    let name ← memberName "member name after '.'"
    return .yield (.member e name false (← spanFrom start))
  | .doubleColon =>
    let _ ← advance
    let name ← memberName "option value after '::'"
    return .yield (.member e name true (← spanFrom start))
  | .leftParen =>
    let _ ← advance
    let arguments ← listUpTo .rightParen sub.expression
    let _ ← expect .rightParen
    return .yield (.call e arguments (← spanFrom start))
  | .leftBracket =>
    let _ ← advance
    let indices ← listUpTo .rightBracket sub.expression
    let _ ← expect .rightBracket
    return .yield (.index e indices (← spanFrom start))
  | _ => return .done e

def operandWith : Rule Expr := do
  let start ← here
  tryLoop (← primaryWith sub) (trailerRound sub start)

def unaryWith : Rule Expr := do
  let token ← peek
  match unaryOp? token.kind with
  | none => operandWith sub
  | some op =>
    let _ ← advance
    let operand ← sub.unary
    return .unary op operand (token.span.merge operand.span)

def productWith : Rule Expr := leftAssoc productOp? (unaryWith sub) fun _ => unaryWith sub

def sumWith : Rule Expr := leftAssoc sumOp? (productWith sub) fun _ => productWith sub

def relationRightWith (op : BinaryOp) : Rule Expr := do
  if op = .isIn ∧ (← check .leftBracket) then setLiteralWith sub else sumWith sub

def relationWith : Rule Expr := leftAssoc relationOp? (sumWith sub) (relationRightWith sub)

def equalityWith : Rule Expr := leftAssoc equalityOp? (relationWith sub) fun _ => relationWith sub

def conjunctionWith : Rule Expr := leftAssoc andOp? (equalityWith sub) fun _ => equalityWith sub

def disjunctionWith : Rule Expr := leftAssoc orOp? (conjunctionWith sub) fun _ => conjunctionWith sub

/-- `? a : b` behind a condition is not C/AL: it is reported and both branches are passed. -/
def ternaryWith : Rule Unit := do
  let token ← expect .questionMark
  report (.foreignConstruct "The ternary operator '?'" "IF ... THEN ... ELSE" token.span)
  let _ ← disjunctionWith sub
  if ← accept .colon then
    let _ ← disjunctionWith sub

/-- A whole expression; of `condition ? a : b` the condition is kept. -/
def expressionWith : Rule Expr := do
  let condition ← disjunctionWith sub
  if ← check .questionMark then
    ternaryWith sub
    return condition
  else return condition

end

def deeper : Nat → Deeper
  | 0 => { expression := tooDeep, unary := tooDeep }
  | n + 1 =>
    { expression := fun s => nested (expressionWith (deeper n)) s
      unary := fun s => nested (unaryWith (deeper n)) s }

def deeperAt (s : Parser) : Deeper := deeper s.freeLevels

def expression : Rule Expr := fun s => (deeperAt s).expression s

def operand : Rule Expr := fun s => operandWith (deeperAt s) s

def setLiteral : Rule Expr := fun s => setLiteralWith (deeperAt s) s

def element : Rule Expr := fun s => elementWith (deeperAt s) s

end CalExport.Rule
