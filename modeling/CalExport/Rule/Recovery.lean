import CalExport.Rule.Step

namespace CalExport.Rule

def skipItemRound (base : Nat) (recovery : List Kind) (_ : Unit) : Parse (ForInStep Unit) := do
  let kind ← peekKind
  let opened ← openBeyond base
  if kind = .eof then return .done ()
  else if kind = .rightBrace then
    if opened = 0 then return .done ()
    else
      let _ ← advance
      return if opened = 1 then .done () else .yield ()
  else if opened = 0 ∧ kind ∈ recovery then return .done ()
  else
    let _ ← advance
    return .yield ()

/-- Passes tokens after an item failed that began at brace depth `base`: to a token of `recovery` at that depth, in
front of the brace that closes the enclosing block, or behind the one that closes the item. -/
def skipItem (base : Nat) (recovery : List Kind) : Parse Unit := loop () (skipItemRound base recovery)

/-- Passes a token when none was passed since `start`, unless a closing brace or the end of the input is next. -/
def forceProgress (start : Nat) : Parse Unit := do
  let kind ← peekKind
  if (← passedSince start) = 0 ∧ kind ≠ .eof ∧ kind ≠ .rightBrace then
    let _ ← advance

def recoverItem (base start : Nat) (recovery : List Kind) : Parse Unit := do
  let skipStart ← here
  skipItem base recovery
  let _ ← accept .semicolon
  forceProgress start
  recordSkipped skipStart "error recovery"

/-- Tries a rule. When it fails, reports why and passes the rest of the item. Some token is passed then, unless a
closing brace or the end of the input is next. -/
def withRecovery (recovery : List Kind) (rule : Rule α) : Parse (Option α) := do
  let base ← depth
  let start ← here
  match ← attempt rule with
  | .ok a => return some a
  | .error fault =>
    report fault
    recoverItem base start recovery
    return none

def isStatementBoundary : Kind → Bool
  | .keyword .begin_ | .keyword .end_ | .keyword .until_ | .keyword .var => true
  | .keyword k => k.isDeclarationStart
  | .rightBrace => true
  | _ => false

def skipStatementRound (_ : Unit) : Parse (ForInStep Unit) := do
  let kind ← peekKind
  if kind = .eof ∨ isStatementBoundary kind then return .done ()
  else
    let _ ← advance
    return if kind = .semicolon then .done () else .yield ()

def skipStatement : Parse Unit := do
  let start ← here
  loop () skipStatementRound
  recordSkipped start "statement recovery"

/-- Whether a section begins here; `Code` does so only before a brace, since it names a type too. -/
def sectionStarts (s : Parser) : Bool :=
  match s.peek.kind with
  | .keyword .code => s.checkNext .leftBrace
  | .keyword k => k.isSection
  | _ => false

/-- Passes tokens up to the next section or the end of the object, at most `depth` braces deep. -/
def skipToSection (depth : Nat) (reason : String) : Parse Unit := do
  let start ← here
  skipWhile fun s => !(s.braceDepth ≤ depth && (s.check .rightBrace || sectionStarts s))
  let count ← passedSince start
  if 0 < count then
    note (((Event.debug "Skipped to section boundary").set "reason" reason).set "tokens" (toString count))
    recordSkipped start reason

def documentationStarts (s : Parser) : Bool :=
  s.peek.kind == .keyword .begin_ && (s.peekAhead 1).kind == .keyword .end_
    && (s.peekAhead 2).kind == .dot

/-- Whether the search for the next declaration of a CODE section at some brace depth stops here. -/
def declarationBoundary (depth : Nat) (s : Parser) : Bool :=
  let boundary := match s.peek.kind with
    | .keyword k => k.isDeclarationStart
    | .rightBrace => decide (s.braceDepth ≤ depth)
    | _ => false
  boundary || documentationStarts s

def skipDeclaration (depth : Nat) : Parse Unit := do
  let start ← here
  skipWhile fun s => !declarationBoundary depth s
  recordSkipped start "declaration recovery"

end CalExport.Rule
