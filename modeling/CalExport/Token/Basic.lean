import CalExport.Token.Kind
import CalExport.Text.Span

namespace CalExport

open Text

structure Token where
  kind : Kind
  text : String
  span : Span
deriving DecidableEq, Repr, Inhabited

/-- Every doubled apostrophe read as one. `front` is what was read before, last character first. -/
def undouble (front : List Char) : List Char → List Char
  | '\'' :: '\'' :: rest => undouble ('\'' :: front) rest
  | c :: rest => undouble (c :: front) rest
  | [] => front.reverse

def stripDelimiters (delimiter : Char) (cs : List Char) : List Char :=
  let inner := if cs.head? = some delimiter then cs.tail else cs
  if inner.getLast? = some delimiter then inner.dropLast else inner

namespace Token

def endAfter (span : Span) : Token := ⟨.eof, "", Span.point span.stop⟩

/-- What the token stands for: the contents of strings and of quoted names, else its text. -/
def value (t : Token) : String :=
  match t.kind with
  | .string => String.ofList (undouble [] (stripDelimiters '\'' t.text.toList))
  | .quotedIdentifier => String.ofList (stripDelimiters '"' t.text.toList)
  | _ => t.text

def follows (t previous : Token) : Bool := previous.span.stop.offset == t.span.start.offset

def display (t : Token) : String := s!"{t.kind.describe} at {t.span.start.display}"

end Token

/-- The texts of a run of tokens, with one space wherever the source had a gap. -/
def joinTokens : List Token → String
  | [] => ""
  | t :: rest => go t.text t rest
where
  go (text : String) (previous : Token) : List Token → String
    | [] => text
    | t :: rest => go (if t.follows previous then text ++ t.text else text ++ " " ++ t.text) t rest

end CalExport
