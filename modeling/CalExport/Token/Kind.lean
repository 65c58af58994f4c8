import CalExport.Token.Keyword

namespace CalExport

inductive Kind where
  | keyword (k : Keyword)
  | identifier | quotedIdentifier
  | string | integer | decimal | date | time | dateTime
  | assign | plusAssign | minusAssign | timesAssign | divideAssign
  | equal | notEqual | less | lessEqual | greater | greaterEqual
  | plus | minus | times | divide
  | dot | dotDot | doubleColon | comma | semicolon | colon
  | leftParen | rightParen | leftBracket | rightBracket | leftBrace | rightBrace
  | atSign | questionMark
  | directive | unknown | eof
deriving DecidableEq, Repr, Inhabited

namespace Kind

instance : Coe Keyword Kind := ⟨keyword⟩

def symbol? : Kind → Option String
  | .assign => some ":="
  | .plusAssign => some "+="
  | .minusAssign => some "-="
  | .timesAssign => some "*="
  | .divideAssign => some "/="
  | .equal => some "="
  | .notEqual => some "<>"
  | .less => some "<"
  | .lessEqual => some "<="
  | .greater => some ">"
  | .greaterEqual => some ">="
  | .plus => some "+"
  | .minus => some "-"
  | .times => some "*"
  | .divide => some "/"
  | .dot => some "."
  | .dotDot => some ".."
  | .doubleColon => some "::"
  | .comma => some ","
  | .semicolon => some ";"
  | .colon => some ":"
  | .leftParen => some "("
  | .rightParen => some ")"
  | .leftBracket => some "["
  | .rightBracket => some "]"
  | .leftBrace => some "\x7b"
  | .rightBrace => some "\x7d"
  | .atSign => some "@"
  | .questionMark => some "?"
  | _ => none

def describe : Kind → String
  | .keyword k => k.spelling
  | .identifier => "identifier"
  | .quotedIdentifier => "quoted identifier"
  | .string => "string literal"
  | .integer => "integer"
  | .decimal => "decimal"
  | .date => "date literal"
  | .time => "time literal"
  | .dateTime => "datetime literal"
  | .directive => "preprocessor directive"
  | .unknown => "unknown character"
  | .eof => "end of input"
  | kind => "'" ++ kind.symbol?.getD "" ++ "'"

def isLiteral : Kind → Bool
  | .string | .integer | .decimal | .date | .time | .dateTime => true
  | .keyword .true_ | .keyword .false_ => true
  | _ => false

def isAssignment : Kind → Bool
  | .assign | .plusAssign | .minusAssign | .timesAssign | .divideAssign => true
  | _ => false

def keyword? : Kind → Option Keyword
  | .keyword k => some k
  | _ => none

/-- Whether a declaration accepts a token of this kind as a name. -/
def canName : Kind → Bool
  | .identifier | .quotedIdentifier => true
  | .keyword k => k.canName
  | _ => false

end Kind

end CalExport
