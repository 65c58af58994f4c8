import CalExport.Expr.Basic
import CalExport.Json.Style

namespace CalExport

def Literal.kindName : Literal → String
  | .integer _ => "Integer"
  | .decimal _ => "Decimal"
  | .string _ => "String"
  | .boolean _ => "Boolean"
  | .date _ => "Date"
  | .time _ => "Time"
  | .dateTime _ => "DateTime"

def Literal.toJson (style : Json.Style) : Literal → Json
  | .integer value => .int value
  | .decimal value => style.decimal value
  | .boolean value => .bool value
  | .string text | .date text | .time text | .dateTime text => .string text

namespace Expr

mutual

def toJson (style : Json.Style) : Expr → Json
  | .identifier name span => .object [("kind", "Identifier"), ("name", name), ("span", style.span span)]
  | .literal value text span =>
    .object [("kind", "Literal"), ("literal", value.kindName), ("raw", text), ("value", value.toJson style),
      ("span", style.span span)]
  | .binary op left right span =>
    .object [("kind", "Binary"), ("operator", op.spelling), ("left", toJson style left),
      ("right", toJson style right), ("span", style.span span)]
  | .unary op operand span =>
    .object [("kind", "Unary"), ("operator", op.spelling), ("operand", toJson style operand),
      ("span", style.span span)]
  | .member object name qualified span =>
    .object [("kind", "MemberAccess"), ("object", toJson style object), ("member", name), ("scope", qualified),
      ("span", style.span span)]
  | .call callee arguments span =>
    .object [("kind", "Call"), ("callee", toJson style callee), ("arguments", .array (listToJson style arguments)),
      ("span", style.span span)]
  | .index array indices span =>
    .object [("kind", "ArrayAccess"), ("array", toJson style array), ("indices", .array (listToJson style indices)),
      ("span", style.span span)]
  | .set elements span =>
    .object [("kind", "Set"), ("elements", .array (listToJson style elements)), ("span", style.span span)]
  | .range first last span =>
    .object [("kind", "Range"), ("start", optionToJson style first), ("end", optionToJson style last),
      ("span", style.span span)]

def listToJson (style : Json.Style) : List Expr → List Json
  | [] => []
  | e :: rest => toJson style e :: listToJson style rest

def optionToJson (style : Json.Style) : Option Expr → Json
  | none => .null
  | some e => toJson style e

end

mutual

def render : Expr → String
  | .identifier name _ => "<" ++ name ++ ">"
  | .literal _ text _ => text
  | .binary op left right _ => "(" ++ op.spelling ++ " " ++ left.render ++ " " ++ right.render ++ ")"
  | .unary op operand _ => "(" ++ op.spelling ++ " " ++ operand.render ++ ")"
  | .member object name qualified _ =>
    "(" ++ (if qualified then "::" else ".") ++ " " ++ object.render ++ " <" ++ name ++ ">)"
  | .call callee arguments _ => "(call " ++ callee.render ++ renderList arguments ++ ")"
  | .index array indices _ => "(index " ++ array.render ++ renderList indices ++ ")"
  | .set elements _ => "(set" ++ renderList elements ++ ")"
  | .range first last _ => "(range " ++ renderOption first ++ " " ++ renderOption last ++ ")"

def renderList : List Expr → String
  | [] => ""
  | e :: rest => " " ++ e.render ++ renderList rest

def renderOption : Option Expr → String
  | none => "_"
  | some e => e.render

end

end Expr

end CalExport
