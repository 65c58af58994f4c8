import CalExport.Token.Basic
import CalExport.Text.Basic

namespace CalExport

open Text

def maxFragmentLength : Nat := 32

def fragment (text : String) : String :=
  let cs := text.toList
  let shown := (cs.take maxFragmentLength).map fun c => if isControl c || c == '\'' then '?' else c
  String.ofList (if maxFragmentLength < cs.length then shown ++ ['.', '.', '.'] else shown)

def Token.description (t : Token) : String :=
  match t.kind with
  | .keyword k => "'" ++ k.spelling ++ "'"
  | .identifier | .quotedIdentifier => "identifier '" ++ fragment t.value ++ "'"
  | .string => s!"string literal ({t.value.length} chars)"
  | .integer | .decimal | .date | .time | .dateTime => "'" ++ fragment t.text ++ "'"
  | .directive => "preprocessor directive"
  | .unknown =>
    match t.text.toList with
    | c :: _ => "character " ++ codePoint c
    | [] => "unknown character"
  | .eof => "end of input"
  | kind => kind.describe

end CalExport
