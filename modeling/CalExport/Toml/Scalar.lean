import CalExport.Toml.Basic

namespace CalExport.Toml

abbrev Reader (α : Type) := List Char → Except Error (α × List Char)

def isTomlBlank (c : Char) : Bool := c == ' ' || c == '\t'

def isPlain (c : Char) : Bool := c == '\t' || (32 ≤ c.toNat && c.toNat ≠ 127)

def isHexDigit (c : Char) : Bool := c.isDigit || ('a' ≤ c && c ≤ 'f') || ('A' ≤ c && c ≤ 'F')

def isOctalDigit (c : Char) : Bool := '0' ≤ c && c ≤ '7'

def isBinaryDigit (c : Char) : Bool := c == '0' || c == '1'

def digitValue (c : Char) : Nat :=
  if c.isDigit then c.toNat - 48 else if 'a' ≤ c then c.toNat - 87 else c.toNat - 55

def numeral (base : Nat) (digits : List Char) : Nat := digits.foldl (fun n c => base * n + digitValue c) 0

def charOfNumber? (n : Nat) : Option Char := if h : n.isValidChar then some (Char.ofNatAux n h) else none

def charOfDigits (digits : List Char) : Except Error Char :=
  if digits.all isHexDigit then
    match charOfNumber? (numeral 16 digits) with
    | some c => .ok c
    | none => .error (.outOfRange "character")
  else .error (.unexpected "hexadecimal digits")

def escape : Reader Char
  | 'b' :: rest => .ok (Char.ofNat 8, rest)
  | 't' :: rest => .ok ('\t', rest)
  | 'n' :: rest => .ok ('\n', rest)
  | 'f' :: rest => .ok (Char.ofNat 12, rest)
  | 'r' :: rest => .ok ('\r', rest)
  | '"' :: rest => .ok ('"', rest)
  | '\\' :: rest => .ok ('\\', rest)
  | 'u' :: a :: b :: c :: d :: rest => do return (← charOfDigits [a, b, c, d], rest)
  | 'U' :: a :: b :: c :: d :: e :: f :: g :: h :: rest => do return (← charOfDigits [a, b, c, d, e, f, g, h], rest)
  | _ => .error (.unexpected "an escape sequence")

/-- Whether a backslash stands at the end of its line. -/
def endsLine (cs : List Char) : Bool :=
  match cs.dropWhile isTomlBlank with
  | '\n' :: _ | '\r' :: '\n' :: _ => true
  | _ => false

/-- One or two quotes in front of the three that close belong to the string. -/
def closing (quote : Char) (done : List Char) : List Char → List Char × List Char
  | a :: b :: rest =>
    if a = quote ∧ b = quote then (quote :: quote :: done, rest)
    else if a = quote then (quote :: done, b :: rest)
    else (done, a :: b :: rest)
  | [a] => if a = quote then (quote :: done, []) else (done, [a])
  | [] => (done, [])

def basicString (fuel : Nat) (done : List Char) : Reader String := fun cs =>
  match fuel, cs with
  | 0, _ | _, [] => .error (.unexpected "a closing quote")
  | fuel + 1, c :: rest =>
    if c = '"' then .ok (String.ofList done.reverse, rest)
    else if c = '\\' then do
      let (e, rest) ← escape rest
      basicString fuel (e :: done) rest
    else if isPlain c then basicString fuel (c :: done) rest
    else .error (.unexpected "a closing quote")

/-- A string in three quotes, behind them. While `skipping` after a backslash at the end of a line, white space and
line ends mean nothing. -/
def longString (fuel : Nat) (skipping : Bool) (done : List Char) : Reader String := fun cs =>
  match fuel, cs with
  | 0, _ | _, [] => .error (.unexpected "closing quotes")
  | _ + 1, '"' :: '"' :: '"' :: rest =>
    let (done, rest) := closing '"' done rest
    .ok (String.ofList done.reverse, rest)
  | fuel + 1, '\r' :: '\n' :: rest => longString fuel skipping (if skipping then done else '\n' :: done) rest
  | fuel + 1, c :: rest =>
    if skipping && (isTomlBlank c || c == '\n') then longString fuel true done rest
    else if c = '\\' then
      if endsLine rest then longString fuel true done rest
      else do
        let (e, rest) ← escape rest
        longString fuel false (e :: done) rest
    else if isPlain c || c == '\n' then longString fuel false (c :: done) rest
    else .error (.unexpected "closing quotes")

def literalString (done : List Char) : Reader String
  | [] => .error (.unexpected "a closing apostrophe")
  | c :: rest =>
    if c = '\'' then .ok (String.ofList done.reverse, rest)
    else if isPlain c then literalString (c :: done) rest
    else .error (.unexpected "a closing apostrophe")

def longLiteral (done : List Char) : Reader String
  | [] => .error (.unexpected "closing apostrophes")
  | '\'' :: '\'' :: '\'' :: rest =>
    let (done, rest) := closing '\'' done rest
    .ok (String.ofList done.reverse, rest)
  | '\r' :: '\n' :: rest => longLiteral ('\n' :: done) rest
  | c :: rest =>
    if isPlain c || c == '\n' then longLiteral (c :: done) rest else .error (.unexpected "closing apostrophes")

def dropLineEnd : List Char → List Char
  | '\n' :: rest | '\r' :: '\n' :: rest => rest
  | cs => cs

def shortString : Reader String := fun cs =>
  match cs with
  | '"' :: rest => basicString (rest.length + 1) [] rest
  | '\'' :: rest => literalString [] rest
  | _ => .error (.unexpected "a string")

def string : Reader String := fun cs =>
  match cs with
  | '"' :: '"' :: '"' :: rest => longString (rest.length + 1) false [] (dropLineEnd rest)
  | '\'' :: '\'' :: '\'' :: rest => longLiteral [] (dropLineEnd rest)
  | _ => shortString cs

def moreDigits (isDigit : Char → Bool) : Reader (List Char)
  | [] => .ok ([], [])
  | ['_'] => .error (.unexpected "a digit")
  | '_' :: c :: rest =>
    if isDigit c then do
      let (digits, behind) ← moreDigits isDigit rest
      return (c :: digits, behind)
    else .error (.unexpected "a digit")
  | c :: rest =>
    if isDigit c then do
      let (digits, behind) ← moreDigits isDigit rest
      return (c :: digits, behind)
    else .ok ([], c :: rest)

def someDigits (isDigit : Char → Bool) : Reader (List Char)
  | c :: rest =>
    if isDigit c then do
      let (digits, behind) ← moreDigits isDigit rest
      return (c :: digits, behind)
    else .error (.unexpected "a digit")
  | [] => .error (.unexpected "a digit")

def wholeDigits : Reader (List Char)
  | '0' :: rest => .ok (['0'], rest)
  | cs => someDigits Char.isDigit cs

def sign : List Char → Bool × List Char
  | '-' :: rest => (true, rest)
  | '+' :: rest => (false, rest)
  | cs => (false, cs)

def maxInteger : Int := 9223372036854775807

def integerItem (n : Int) : Except Error Item :=
  if -maxInteger - 1 ≤ n ∧ n ≤ maxInteger then .ok (.integer n) else .error (.outOfRange "integer")

/-- The float nearest to `digits * 10 ^ exponent`. Only exponents near the range of floats are worked out. -/
def magnitude (digits : List Char) (exponent : Int) : Binary64 :=
  let significant := digits.dropWhile (· == '0')
  let size := (significant.length : Int) + exponent
  if significant.isEmpty ∨ size < -400 then ⟨0⟩
  else if 400 < size then Binary64.infinity
  else if exponent < 0 then Binary64.ofRatio (numeral 10 significant) (Nat.pow 10 (-exponent).toNat)
  else Binary64.ofRatio (numeral 10 significant * Nat.pow 10 exponent.toNat) 1

def signed (negative : Bool) (x : Binary64) : Binary64 := if negative then ⟨x.bits ||| 0x8000000000000000⟩ else x

def floatItem (negative : Bool) (digits : List Char) (exponent : Int) : Except Error Item :=
  let x := magnitude digits exponent
  if x = Binary64.infinity ∧ !negative then .error (.outOfRange "float") else .ok (.float (signed negative x))

def exponent : Reader Int
  | c :: rest =>
    if c == 'e' || c == 'E' then do
      let (negative, rest) := sign rest
      let (digits, behind) ← someDigits Char.isDigit rest
      let n : Int := numeral 10 digits
      return (if negative then -n else n, behind)
    else .ok (0, c :: rest)
  | [] => .ok (0, [])

def radix (base : Nat) (isDigit : Char → Bool) : Reader Item := fun cs => do
  let (digits, rest) ← someDigits isDigit cs
  return (← integerItem (numeral base digits), rest)

def nan : Binary64 := ⟨0x7ff8000000000000⟩

def number : Reader Item := fun cs =>
  let (negative, unsigned) := sign cs
  match cs, unsigned with
  | '0' :: 'x' :: rest, _ => radix 16 isHexDigit rest
  | '0' :: 'o' :: rest, _ => radix 8 isOctalDigit rest
  | '0' :: 'b' :: rest, _ => radix 2 isBinaryDigit rest
  | _, 'i' :: 'n' :: 'f' :: rest => .ok (.float (signed negative Binary64.infinity), rest)
  | _, 'n' :: 'a' :: 'n' :: rest => .ok (.float (signed negative nan), rest)
  | _, _ => do
    let (whole, rest) ← wholeDigits unsigned
    match rest with
    | '.' :: rest =>
      let (fraction, rest) ← someDigits Char.isDigit rest
      let (power, rest) ← exponent rest
      return (← floatItem negative (whole ++ fraction) (power - fraction.length), rest)
    | c :: _ =>
      if c == 'e' || c == 'E' then
        let (power, rest) ← exponent rest
        return (← floatItem negative whole power, rest)
      else return (← integerItem (if negative then -(numeral 10 whole : Int) else numeral 10 whole), rest)
    | [] => return (← integerItem (if negative then -(numeral 10 whole : Int) else numeral 10 whole), [])

def twoDigits (low high : Nat) : Reader Nat
  | a :: b :: rest =>
    let n := numeral 10 [a, b]
    if a.isDigit && b.isDigit && decide (low ≤ n ∧ n ≤ high) then .ok (n, rest)
    else .error (.unexpected "two digits")
  | _ => .error (.unexpected "two digits")

def character (c : Char) : Reader Unit
  | d :: rest => if d = c then .ok ((), rest) else .error (.unexpected (String.singleton c))
  | [] => .error (.unexpected (String.singleton c))

def startsDate : List Char → Bool
  | a :: b :: c :: d :: '-' :: _ => [a, b, c, d].all Char.isDigit
  | _ => false

def startsTime : List Char → Bool
  | a :: b :: ':' :: _ => (twoDigits 0 23 [a, b]).toBool
  | _ => false

def daysInMonth (year month : Nat) : Nat :=
  if month = 2 then
    if year % 4 = 0 ∧ (year % 100 ≠ 0 ∨ year % 400 = 0) then 29 else 28
  else if month = 4 ∨ month = 6 ∨ month = 9 ∨ month = 11 then 30
  else 31

def date (cs : List Char) : Except Error (List Char) := do
  let year := numeral 10 (cs.take 4)
  let (month, rest) ← twoDigits 1 12 (cs.drop 5)
  let (_, rest) ← character '-' rest
  let (_, rest) ← twoDigits 1 (daysInMonth year month) rest
  return rest

def time (cs : List Char) : Except Error (List Char) := do
  let (_, rest) ← twoDigits 0 23 cs
  let (_, rest) ← character ':' rest
  let (_, rest) ← twoDigits 0 59 rest
  let (_, rest) ← character ':' rest
  let (_, rest) ← twoDigits 0 60 rest
  match rest with
  | '.' :: c :: behind => return if c.isDigit then behind.dropWhile Char.isDigit else rest
  | _ => return rest

def offset (cs : List Char) : Except Error (List Char) :=
  match cs with
  | c :: rest =>
    if c == 'Z' || c == 'z' then .ok rest
    else if c == '+' || c == '-' then do
      let (_, rest) ← twoDigits 0 23 rest
      let (_, rest) ← character ':' rest
      let (_, rest) ← twoDigits 0 59 rest
      return rest
    else .ok cs
  | [] => .ok []

def dateAndTime (cs : List Char) : Except Error (List Char) := do
  let rest ← date cs
  match rest with
  | c :: behind =>
    if (c == 'T' || c == 't' || c == ' ') && startsTime behind then offset (← time behind) else return rest
  | [] => return []

def dateTime : Reader Item := fun cs => do
  let rest ← if startsDate cs then dateAndTime cs else time cs
  return (.dateTime (String.ofList (cs.take (cs.length - rest.length))), rest)

def numeric : Reader Item := fun cs =>
  if startsDate cs || startsTime cs then dateTime cs else number cs

end CalExport.Toml
