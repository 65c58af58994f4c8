import CalExport.Token.Lexeme
import CalExport.Journal.Event
import CalExport.Text.Basic

namespace CalExport

open Text

/-- Longest string literal, in bytes with its apostrophes. -/
def maxStringSize : Nat := 1048576

def maxTokenCount : Nat := 5000000

def maxIdentifierLength : Nat := 1024

inductive LexError where
  | stringTooLarge (size : Nat) (span : Span)
  | tooManyTokens (count : Nat)
deriving DecidableEq, Repr

namespace LexError

def message : LexError → String
  | .stringTooLarge size span => s!"String too large: {size} bytes (max {maxStringSize}) at {span.display}"
  | .tooManyTokens count => s!"Too many tokens: {count} (max {maxTokenCount})"

def code : LexError → Code
  | .stringTooLarge .. => .stringTooLarge
  | .tooManyTokens _ => .tooManyTokens

end LexError

structure Metrics where
  tokens : Nat := 0
  keywords : Nat := 0
  identifiers : Nat := 0
  comments : Nat := 0
  openStrings : Nat := 0
  openComments : Nat := 0
  unknown : Nat := 0
deriving DecidableEq, Repr, Inhabited

def Metrics.count (m : Metrics) (kind : Kind) : Metrics :=
  let m := { m with tokens := m.tokens + 1 }
  match kind with
  | .keyword _ => { m with keywords := m.keywords + 1 }
  | .identifier | .quotedIdentifier => { m with identifiers := m.identifiers + 1 }
  | .unknown => { m with unknown := m.unknown + 1 }
  | _ => m

structure Lexer where
  mode : Mode := {}
  position : Position := Position.start
  tokens : Array Token := #[]
  metrics : Metrics := {}
  events : Array Event := #[]

namespace Lexer

def note (s : Lexer) (e : Event) : Lexer := { s with events := s.events.push e }

def push (s : Lexer) (kind : Kind) (text : String) (span : Span) : Lexer :=
  { s with tokens := s.tokens.push ⟨kind, text, span⟩, metrics := s.metrics.count kind }

def comment (s : Lexer) (inBraces closed : Bool) (span : Span) : Lexer :=
  let metrics := { s.metrics with comments := s.metrics.comments + 1 }
  if closed then { s with metrics }
  else
    let what := if inBraces then "Brace comment not terminated" else "Block comment not terminated"
    { s with metrics := { metrics with openComments := metrics.openComments + 1 } }.note
      ((Event.warningWith .unterminatedComment what).placed span)

/-- Records a string literal, unless it is too large. -/
def string (s : Lexer) (closed : Bool) (text : String) (span : Span) : Except (Lexer × LexError) Lexer :=
  if maxStringSize < span.length then
    let event := (Event.error .stringTooLarge "String literal exceeds size limit").placed span
    throw (s.note (event.set "size" (toString span.length)), .stringTooLarge span.length span)
  else if closed then return s.push .string text span
  else
    let event := (Event.warningWith .unterminatedString "String literal not terminated before end of line").placed span
    let s := { s with metrics := { s.metrics with openStrings := s.metrics.openStrings + 1 } }
    return (s.note (event.set "line" (toString span.start.line))).push .string text span

def token (s : Lexer) (kind : Kind) (text : String) (span : Span) : Lexer :=
  let s := match kind with
    | .identifier =>
      if maxIdentifierLength < text.length then
        s.note (((Event.warningWith .identifierTooLong "Identifier exceeds length limit").placed span).set "length"
          (toString text.length))
      else s
    | .unknown => s.note ((Event.debug "Unknown character").set "code_point" (codePoint (text.toList.headD ' ')))
    | _ => s
  s.push kind text span

/-- Takes the piece `cs` off the front of the text and moves behind it. -/
def take (s : Lexer) (piece : Piece) (cs rest : List Char) : Except (Lexer × LexError) Lexer := do
  let stop := s.position.after cs
  let span : Span := ⟨s.position, stop⟩
  let mode := s.mode.after piece.content cs rest
  let recorded ← match piece.content with
    | .blank => pure s
    | .comment inBraces closed => pure (s.comment inBraces closed span)
    | .token kind => pure (s.token kind (String.ofList cs) span)
    | .string closed => s.string closed (String.ofList cs) span
  return { recorded with mode, position := stop }

def finish (s : Lexer) : Lexer :=
  let done := { s with tokens := s.tokens.push ⟨.eof, "", Span.point s.position⟩ }
  done.note (((Event.success .tokenized "Lexical analysis completed").set "tokens" (toString s.metrics.tokens)).set
    "unterminated_strings" (toString s.metrics.openStrings))

def tooMany (s : Lexer) : Lexer :=
  s.note (((Event.error .tooManyTokens "Token limit exceeded").placed (Span.point s.position)).set "limit"
    (toString maxTokenCount))

/-- Takes pieces until the text is used up or a limit is met. -/
def run (s : Lexer) : List Char → Lexer × Option LexError
  | [] => (s.finish, none)
  | c :: rest =>
    if maxTokenCount ≤ s.tokens.size then (s.tooMany, some (.tooManyTokens s.tokens.size))
    else
      let piece := s.mode.pieceAt c rest
      let behind := rest.drop piece.more
      match s.take piece (c :: rest.take piece.more) behind with
      | .ok next => next.run behind
      | .error (stopped, e) => (stopped, some e)
termination_by cs => cs.length
decreasing_by simp only [List.length_drop, List.length_cons]; omega

def start (source : String) : Lexer :=
  ({} : Lexer).note (((Event.debug "Starting lexical analysis").set "bytes" (toString source.utf8ByteSize)).set
    "max_tokens_allowed" (toString maxTokenCount))

/-- Everything that reading a source yields, what it reported on the way included. -/
def read (source : String) : Lexer × Option LexError := (start source).run source.toList

end Lexer

/-- The tokens of a source, the end of the input last, with the counts. -/
def tokenize (source : String) : Except LexError (Array Token × Metrics) :=
  match Lexer.read source with
  | (done, none) => .ok (done.tokens, done.metrics)
  | (_, some e) => .error e

end CalExport
