import CalExport.Token.Basic
import CalExport.Text.Letter
import CalExport.Text.Basic

namespace CalExport

open Text

namespace Lexeme

def blockComment (count : Nat) : List Char → Nat × Bool
  | '*' :: ')' :: _ => (count + 2, true)
  | _ :: rest => blockComment (count + 1) rest
  | [] => (count, false)

def braceComment (count : Nat) : List Char → Nat × Bool
  | '\x7d' :: _ => (count + 1, true)
  | _ :: rest => braceComment (count + 1) rest
  | [] => (count, false)

def endsLine (c : Char) : Bool := c == '\n' || c == '\r'

/-- Length of a string behind its opening apostrophe, and whether it is closed. Two apostrophes stand for one, and
a string that is not closed ends with its line. -/
def string (count : Nat) : List Char → Nat × Bool
  | '\'' :: '\'' :: rest => string (count + 2) rest
  | '\'' :: _ => (count + 1, true)
  | c :: rest => if endsLine c then (count, false) else string (count + 1) rest
  | [] => (count, false)

def quotedIdentifier (count : Nat) : List Char → Nat
  | '"' :: _ => count + 1
  | c :: rest => if endsLine c then count else quotedIdentifier (count + 1) rest
  | [] => count

def digits (cs : List Char) : Nat := (cs.takeWhile Char.isDigit).length

def startsWord (cs : List Char) : Bool := cs.head?.any isWordChar

/-- The suffix that makes digits a date, a time or both, with its length; it must end a word. -/
def suffix : List Char → Kind × Nat
  | c :: rest =>
    if c.toUpper = 'D' ∧ (rest.head?.map Char.toUpper) = some 'T' ∧ !startsWord rest.tail then (.dateTime, 2)
    else if c.toUpper = 'D' ∧ !startsWord rest then (.date, 1)
    else if c.toUpper = 'T' ∧ !startsWord rest then (.time, 1)
    else (.integer, 0)
  | [] => (.integer, 0)

/-- Kind and length of a number behind its first digit. A point counts only before another digit, so that `1..5` is a
range. -/
def number (rest : List Char) : Kind × Nat :=
  let whole := digits rest
  match rest.drop whole with
  | '.' :: d :: more => if d.isDigit then (.decimal, whole + 2 + digits more) else (.integer, whole)
  | behind =>
    let (kind, length) := suffix behind
    (kind, whole + length)

/-- Length of a word behind its first character. In the skeleton of an object an apostrophe glued to a word belongs to
it. -/
def word (skeleton : Bool) (rest : List Char) : Nat :=
  (rest.takeWhile fun c => isWordChar c || (skeleton && c == '\'')).length

def symbol (c : Char) (next : Option Char) : Kind × Nat :=
  match c, next with
  | ':', some '=' => (.assign, 1)
  | ':', some ':' => (.doubleColon, 1)
  | ':', _ => (.colon, 0)
  | '+', some '=' => (.plusAssign, 1)
  | '+', _ => (.plus, 0)
  | '-', some '=' => (.minusAssign, 1)
  | '-', _ => (.minus, 0)
  | '*', some '=' => (.timesAssign, 1)
  | '*', _ => (.times, 0)
  | '/', some '=' => (.divideAssign, 1)
  | '/', _ => (.divide, 0)
  | '<', some '>' => (.notEqual, 1)
  | '<', some '=' => (.lessEqual, 1)
  | '<', _ => (.less, 0)
  | '>', some '=' => (.greaterEqual, 1)
  | '>', _ => (.greater, 0)
  | '=', _ => (.equal, 0)
  | '.', some '.' => (.dotDot, 1)
  | '.', _ => (.dot, 0)
  | ',', _ => (.comma, 0)
  | ';', _ => (.semicolon, 0)
  | '(', _ => (.leftParen, 0)
  | ')', _ => (.rightParen, 0)
  | '[', _ => (.leftBracket, 0)
  | ']', _ => (.rightBracket, 0)
  | '\x7b', _ => (.leftBrace, 0)
  | '\x7d', _ => (.rightBrace, 0)
  | '@', _ => (.atSign, 0)
  | '?', _ => (.questionMark, 0)
  | _, _ => (.unknown, 0)

end Lexeme

/-- What the text before a piece has left behind. -/
structure Mode where
  /-- Open BEGINs and CASEs; braces are comments while there are any. -/
  codeDepth : Nat := 0
  /-- Open braces that are structure. -/
  braceDepth : Nat := 0
  /-- Braces that were open in front of the CODE section, while inside it. -/
  codeSection : Option Nat := none
  /-- A property value began with VAR, so that its BEGIN opens code. -/
  awaitsBody : Bool := false
  previous : Option Kind := none
  /-- Only white space since the last line feed. -/
  lineIsBlank : Bool := true
deriving DecidableEq, Repr

inductive Piece.Content where
  | blank
  | comment (inBraces closed : Bool)
  | token (kind : Kind)
  | string (closed : Bool)
deriving DecidableEq, Repr

/-- What stands at the front of a text, with the number of its characters beyond the first. -/
structure Piece where
  content : Piece.Content
  more : Nat
deriving DecidableEq, Repr

namespace Mode

def inSkeleton (m : Mode) : Bool := m.codeDepth == 0 && m.codeSection.isNone

def pieceAt (m : Mode) (c : Char) (rest : List Char) : Piece :=
  if isBlank c then ⟨.blank, 0⟩
  else if c = '/' ∧ rest.head? = some '/' then
    ⟨.comment false true, (rest.takeWhile (· != '\n')).length⟩
  else if c = '(' ∧ rest.head? = some '*' then
    let (length, closed) := Lexeme.blockComment 0 rest.tail
    ⟨.comment false closed, length + 1⟩
  else if c = '\x7b' ∧ 0 < m.codeDepth then
    let (length, closed) := Lexeme.braceComment 0 rest
    ⟨.comment true closed, length⟩
  else if c = '\'' then
    let (length, closed) := Lexeme.string 0 rest
    ⟨.string closed, length⟩
  else if c = '"' then ⟨.token .quotedIdentifier, Lexeme.quotedIdentifier 0 rest⟩
  else if c = '#' ∧ m.lineIsBlank then
    ⟨.token .directive, (rest.takeWhile (!Lexeme.endsLine ·)).length⟩
  else if c.isDigit then
    let (kind, length) := Lexeme.number rest
    ⟨.token kind, length⟩
  else if isWordStart c then
    let length := Lexeme.word m.inSkeleton rest
    let word := String.ofList (c :: rest.take length)
    ⟨.token (((Keyword.ofWord? word).map Kind.keyword).getD .identifier), length⟩
  else
    let (kind, length) := Lexeme.symbol c rest.head?
    ⟨.token kind, length⟩

/-- Whether BEGIN behind an equals sign opens a trigger, told by what follows it on its line: nothing, a comment or
END. In `Description=Begin of period` it is text. -/
def opensTrigger (rest : List Char) : Bool :=
  match trim (rest.takeWhile (· != '\n')) with
  | [] => true
  | '/' :: '/' :: _ => true
  | e :: n :: d :: more => e.toUpper = 'E' && n.toUpper = 'N' && d.toUpper = 'D' && !Lexeme.startsWord more
  | _ => false

def beginOpensCode (m : Mode) (rest : List Char) : Bool :=
  0 < m.codeDepth || m.codeSection.isSome || m.awaitsBody || (m.previous == some .equal && opensTrigger rest)

/-- Follows code blocks and braces over one token; `rest` is what stands behind it. -/
def track (m : Mode) (kind : Kind) (rest : List Char) : Mode :=
  match kind with
  | .keyword .begin_ =>
    if m.beginOpensCode rest then { m with codeDepth := m.codeDepth + 1, awaitsBody := false } else m
  | .keyword .case_ => if 0 < m.codeDepth then { m with codeDepth := m.codeDepth + 1 } else m
  | .keyword .end_ => { m with codeDepth := m.codeDepth - 1 }
  | .keyword .var => if m.previous = some .equal then { m with awaitsBody := true } else m
  | .leftBrace =>
    let opensSection := m.previous = some (.keyword .code) ∧ m.codeSection = none
    { m with
      codeSection := if opensSection then some m.braceDepth else m.codeSection
      braceDepth := m.braceDepth + 1 }
  | .rightBrace =>
    let depth := m.braceDepth - 1
    { m with
      codeSection := if m.codeSection = some depth then none else m.codeSection
      braceDepth := depth }
  | _ => m

def blankAfter (blank : Bool) (cs : List Char) : Bool :=
  cs.foldl (fun b c => if c = '\n' then true else b && isBlank c) blank

/-- The mode behind a piece of the given characters, with `rest` to come. -/
def after (m : Mode) (content : Piece.Content) (cs rest : List Char) : Mode :=
  let tracked := match content with
    | .token kind => { m.track kind rest with previous := some kind }
    | .string _ => { m with previous := some .string }
    | .blank | .comment .. => m
  { tracked with lineIsBlank := blankAfter m.lineIsBlank cs }

end Mode

end CalExport
