import CalExport.Number.Binary64
import CalExport.Text.Span

namespace CalExport

open Text

inductive BinaryOp where
  | or | xor | and
  | equal | notEqual | less | lessEqual | greater | greaterEqual | isIn
  | add | subtract | multiply | divide | integerDivide | modulo
deriving DecidableEq, Repr

def BinaryOp.spelling : BinaryOp → String
  | .or => "OR"
  | .xor => "XOR"
  | .and => "AND"
  | .equal => "="
  | .notEqual => "<>"
  | .less => "<"
  | .lessEqual => "<="
  | .greater => ">"
  | .greaterEqual => ">="
  | .isIn => "IN"
  | .add => "+"
  | .subtract => "-"
  | .multiply => "*"
  | .divide => "/"
  | .integerDivide => "DIV"
  | .modulo => "MOD"

inductive UnaryOp where
  | not | negate | plus
deriving DecidableEq, Repr

def UnaryOp.spelling : UnaryOp → String
  | .not => "NOT"
  | .negate => "-"
  | .plus => "+"

inductive Literal where
  | integer (value : Int)
  | decimal (value : Binary64)
  | string (value : String)
  | boolean (value : Bool)
  | date (digits : String)
  | time (digits : String)
  | dateTime (digits : String)
deriving DecidableEq, Repr

inductive Expr where
  | identifier (name : String) (span : Span)
  | literal (value : Literal) (text : String) (span : Span)
  | binary (op : BinaryOp) (left right : Expr) (span : Span)
  | unary (op : UnaryOp) (operand : Expr) (span : Span)
  /-- `object.name`, or `object::name` when `qualified`. -/
  | member (object : Expr) (name : String) (qualified : Bool) (span : Span)
  | call (callee : Expr) (arguments : List Expr) (span : Span)
  | index (array : Expr) (indices : List Expr) (span : Span)
  /-- `[1,5..10,20]`. -/
  | set (elements : List Expr) (span : Span)
  /-- `a..b`, `..b` or `a..`. -/
  | range (first last : Option Expr) (span : Span)
deriving Repr, Inhabited

namespace Expr

def span : Expr → Span
  | .identifier _ span | .literal _ _ span | .binary _ _ _ span | .unary _ _ span | .member _ _ _ span
  | .call _ _ span | .index _ _ span | .set _ span | .range _ _ span => span

def placeholder (span : Span) : Expr := .identifier "" span

def join (op : BinaryOp) (left right : Expr) : Expr := .binary op left right (left.span.merge right.span)

end Expr

end CalExport
