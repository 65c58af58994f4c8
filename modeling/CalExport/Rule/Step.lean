import CalExport.Parser

namespace CalExport.Rule

open Text

def note (e : Event) : Parse Unit := modify fun s => { s with events := s.events.push e }

def look (f : Parser → α) : Parse α := fun s => (f s, s)

def test (condition : Parser → Bool) : Parse Bool := look condition

def peek : Parse Token := look (·.peek)

def peekKind : Parse Kind := look (·.peek.kind)

def peekAhead (n : Nat) : Parse Token := look (·.peekAhead n)

def previous : Parse Token := look (·.previous)

def check (kind : Kind) : Parse Bool := look (·.check kind)

def checkNext (kind : Kind) : Parse Bool := look (·.checkNext kind)

def atEnd : Parse Bool := look (·.atEnd)

def here : Parse Nat := look (·.position)

def passedSince (start : Nat) : Parse Nat := look (·.position - start)

def depth : Parse Nat := look (·.braceDepth)

def openBeyond (base : Nat) : Parse Nat := look (·.braceDepth - base)

def spanFrom (start : Nat) : Parse Span := look (·.spanFrom start)

def advance : Parse Token := fun s => (s.peek, { s with toCursor := s.toCursor.next })

def advanceIf (kind : Kind) : Parse (Option Token) := do
  if ← check kind then return some (← advance) else return none

/-- Passes the next token when it has the given kind, and tells whether it did. -/
def accept (kind : Kind) : Parse Bool := do return (← advanceIf kind).isSome

def advanceBy : Nat → Parse (List Token)
  | 0 => return []
  | n + 1 => do
    let token ← advance
    return token :: (← advanceBy n)

def expect (kind : Kind) : Rule Token := do
  let found ← peek
  if found.kind = kind then advance else throw (.expected kind.describe found)

/-- Keeps a diagnostic while there is room, and marks the first one that finds none. -/
def record (d : Diagnostic) : Parse Unit := fun s =>
  if s.diagnostics.size < maxDiagnostics then
    let event := (((Event.debug "Recorded diagnostic").set "code" d.code.text).set "line"
      (toString d.span.start.line)).set "column" (toString d.span.start.column)
    ((), { s with diagnostics := s.diagnostics.push d, events := s.events.push event })
  else if s.capped then ((), s)
  else
    let event := ((Event.warningWith .diagnosticLimitReached "Diagnostic limit reached").placed d.span).set "limit"
      (toString maxDiagnostics)
    let last := Diagnostic.make .diagnosticLimitReached
      s!"More than {maxDiagnostics} diagnostics, the rest are not reported" d.span
    ((), { s with capped := true, diagnostics := s.diagnostics.push last, events := s.events.push event })

def report (fault : Fault) : Parse Unit := record (.ofFault fault)

/-- Notes that the tokens since `start` were passed over. -/
def recordSkipped (start : Nat) (reason : String) : Parse Unit := fun s =>
  if s.position ≤ start then ((), s)
  else
    let count := s.position - start
    let event := ((Event.debug "Skipped tokens").set "reason" reason).set "tokens" (toString count)
    let s := if s.preferences.logRecovery then { s with events := s.events.push event } else s
    if s.preferences.recordSkipped then
      let region : SkippedRegion :=
        ⟨s.spanFrom start, reason, count, joinTokens (s.tokensBetween start s.position)⟩
      ((), { s with skipped := s.skipped.push region })
    else ((), s)

def tooDeep : Rule α := fun s => (.error (.nestingTooDeep s.peek.span), s)

def enterNesting : Rule Unit := fun s =>
  if s.nesting < maxNesting then (.ok (), s.withNesting (s.nesting + 1)) else tooDeep s

def leaveNesting : Parse Unit := fun s => ((), s.withNesting (s.nesting - 1))

def nested (rule : Rule α) : Rule α := fun s =>
  match enterNesting s with
  | (.error fault, s) => (.error fault, s)
  | (.ok (), s) =>
    let (result, s) := rule s
    (result, (leaveNesting s).2)

def rounds (step : α → Parse (ForInStep α)) : Nat → α → Parse α
  | 0, a => fun s => (a, s)
  | n + 1, a => fun s =>
    match step a s with
    | (.yield b, s) => rounds step n b s
    | (.done b, s) => (b, s)

theorem rounds_yield {step : α → Parse (ForInStep α)} {a b : α} {s t : Parser} (h : step a s = (.yield b, t))
    (n : Nat) : rounds step (n + 1) a s = rounds step n b t := by
  simp only [rounds, h]

theorem rounds_done {step : α → Parse (ForInStep α)} {a b : α} {s t : Parser} (h : step a s = (.done b, t))
    (n : Nat) : rounds step (n + 1) a s = (b, t) := by
  simp only [rounds, h]

def loop (a : α) (step : α → Parse (ForInStep α)) : Parse α := fun s => rounds step (s.left + 1) a s

def tryRounds (step : α → Rule (ForInStep α)) : Nat → α → Rule α
  | 0, a => fun s => (.ok a, s)
  | n + 1, a => fun s =>
    match step a s with
    | (.ok (.yield b), s) => tryRounds step n b s
    | (.ok (.done b), s) => (.ok b, s)
    | (.error fault, s) => (.error fault, s)

theorem tryRounds_yield {step : α → Rule (ForInStep α)} {a b : α} {s t : Parser}
    (h : step a s = (.ok (.yield b), t)) (n : Nat) : tryRounds step (n + 1) a s = tryRounds step n b t := by
  simp only [tryRounds, h]

theorem tryRounds_done {step : α → Rule (ForInStep α)} {a b : α} {s t : Parser}
    (h : step a s = (.ok (.done b), t)) (n : Nat) : tryRounds step (n + 1) a s = (.ok b, t) := by
  simp only [tryRounds, h]

theorem tryRounds_error {step : α → Rule (ForInStep α)} {a : α} {fault : Fault} {s t : Parser}
    (h : step a s = (.error fault, t)) (n : Nat) : tryRounds step (n + 1) a s = (.error fault, t) := by
  simp only [tryRounds, h]

def tryLoop (a : α) (step : α → Rule (ForInStep α)) : Rule α := fun s => tryRounds step (s.left + 1) a s

def skipRound (continues : Parser → Bool) (_ : Unit) : Parse (ForInStep Unit) := fun s =>
  if !s.atEnd && continues s then (.yield (), (advance s).2) else (.done (), s)

def skipWhile (continues : Parser → Bool) : Parse Unit := loop () (skipRound continues)

def attempt (rule : Rule α) : Parse (Except Fault α) := rule.run

end CalExport.Rule
