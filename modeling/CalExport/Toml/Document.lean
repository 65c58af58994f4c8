import CalExport.Toml.Scalar

namespace CalExport.Toml

def depthLimit : Nat := 80

def skipBlanks (cs : List Char) : List Char := cs.dropWhile isTomlBlank

def lineEnd? : List Char → Option (List Char)
  | '\n' :: rest | '\r' :: '\n' :: rest => some rest
  | _ => none

def finishLine (cs : List Char) : Except Error (List Char) :=
  let rest := match skipBlanks cs with
    | '#' :: behind => behind.dropWhile isPlain
    | other => other
  if rest.isEmpty then .ok []
  else
    match lineEnd? rest with
    | some behind => .ok behind
    | none => .error (.unexpected "the end of the line")

def skipLines (fuel : Nat) (cs : List Char) : Except Error (List Char) :=
  match fuel with
  | 0 => .ok cs
  | fuel + 1 =>
    let rest := skipBlanks cs
    match rest with
    | '#' :: behind =>
      match lineEnd? (behind.dropWhile isPlain) with
      | some next => skipLines fuel next
      | none => .error (.unexpected "a line end")
    | c :: _ =>
      match lineEnd? rest with
      | some next => skipLines fuel next
      | none => if c = '\r' then .error (.unexpected "a line end") else .ok rest
    | [] => .ok []

def isBareKeyChar (c : Char) : Bool := c.isAlphanum || c == '-' || c == '_'

def simpleKey : Reader String := fun cs =>
  match cs with
  | '"' :: _ | '\'' :: _ => shortString cs
  | _ =>
    let name := cs.takeWhile isBareKeyChar
    if name.isEmpty then .error (.unexpected "a key") else .ok (String.ofList name, cs.dropWhile isBareKeyChar)

def keyParts (fuel : Nat) : Reader (List String) := fun cs =>
  match fuel with
  | 0 => .error (.unexpected "a key")
  | fuel + 1 => do
    let (part, rest) ← simpleKey (skipBlanks cs)
    match skipBlanks rest with
    | '.' :: behind =>
      let (parts, rest) ← keyParts fuel behind
      return (part :: parts, rest)
    | other => return ([part], other)

def key : Reader (List String) := fun cs => do
  let (parts, rest) ← keyParts (cs.length + 1) cs
  if parts.length < depthLimit then return (parts, rest) else throw .tooDeep

def arrayItems (value : Reader Item) (fuel : Nat) : Reader (List Item) := fun cs =>
  match fuel with
  | 0 => .error (.unexpected "]")
  | fuel + 1 => do
    let start ← skipLines (cs.length + 1) cs
    match start with
    | ']' :: rest => return ([], rest)
    | _ =>
      let (item, rest) ← value start
      let rest ← skipLines (rest.length + 1) rest
      match rest with
      | ',' :: behind =>
        let (items, rest) ← arrayItems value fuel behind
        return (item :: items, rest)
      | ']' :: behind => return ([item], behind)
      | _ => throw (.unexpected "a comma or ]")

def pair (value : Reader Item) : Reader Pair := fun cs => do
  let (path, rest) ← key cs
  let (_, rest) ← character '=' rest
  let (item, rest) ← value (skipBlanks rest)
  return ((path, item), rest)

def inlinePairs (value : Reader Item) (fuel : Nat) : Reader (List Pair) := fun cs =>
  match fuel with
  | 0 => .error (.unexpected "a closing brace")
  | fuel + 1 => do
    let (first, rest) ← pair value cs
    match skipBlanks rest with
    | ',' :: behind =>
      let (pairs, rest) ← inlinePairs value fuel behind
      return (first :: pairs, rest)
    | '\x7d' :: behind => return ([first], behind)
    | _ => throw (.unexpected "a comma or a closing brace")

def inlineTable (value : Reader Item) : Reader Item := fun cs => do
  match skipBlanks cs with
  | '\x7d' :: rest => return (.table .inline [], rest)
  | rest =>
    let (pairs, rest) ← inlinePairs value (rest.length + 1) rest
    return (.table .inline (← fill [] pairs), rest)

def scalar : Reader Item := fun cs =>
  match cs with
  | 't' :: 'r' :: 'u' :: 'e' :: rest => .ok (.boolean true, rest)
  | 'f' :: 'a' :: 'l' :: 's' :: 'e' :: rest => .ok (.boolean false, rest)
  | 'i' :: _ | 'n' :: _ | '+' :: _ | '-' :: _ => numeric cs
  | c :: _ =>
    if c == '"' || c == '\'' then do
      let (s, rest) ← string cs
      return (.string s, rest)
    else if c.isDigit then numeric cs
    else .error (.unexpected "a value")
  | [] => .error (.unexpected "a value")

def value : Nat → Reader Item
  | 0, cs =>
    match cs with
    | '[' :: _ | '\x7b' :: _ => .error .tooDeep
    | _ => scalar cs
  | levels + 1, cs =>
    match cs with
    | '[' :: rest => do
      let (items, rest) ← arrayItems (value levels) (rest.length + 1) rest
      return (.array items, rest)
    | '\x7b' :: rest => inlineTable (value levels) rest
    | _ => scalar cs

def header : Reader Section := fun cs => do
  match cs with
  | '[' :: '[' :: rest =>
    let (path, rest) ← key rest
    let (_, rest) ← character ']' rest
    let (_, rest) ← character ']' rest
    return (⟨path, true, []⟩, rest)
  | _ =>
    let (path, rest) ← key (cs.drop 1)
    let (_, rest) ← character ']' rest
    return (⟨path, false, []⟩, rest)

structure Draft where
  pairs : List Pair := []
  sections : List Section := []

def Draft.add (d : Draft) (p : Pair) : Draft :=
  match d.sections with
  | [] => { d with pairs := d.pairs ++ [p] }
  | s :: rest => { d with sections := { s with pairs := s.pairs ++ [p] } :: rest }

def lines (fuel : Nat) (d : Draft) (cs : List Char) : Except Error Draft :=
  match fuel with
  | 0 => .ok d
  | fuel + 1 => do
    let start := skipBlanks cs
    match start with
    | [] => return d
    | '[' :: _ =>
      let (s, rest) ← header start
      lines fuel { d with sections := s :: d.sections } (← finishLine rest)
    | c :: _ =>
      if c == '#' || c == '\n' || c == '\r' then lines fuel d (← finishLine start)
      else
        let (p, rest) ← pair (value (depthLimit - 1)) start
        lines fuel (d.add p) (← finishLine rest)

def dropMark : List Char → List Char
  | c :: cs => if c.toNat = 0xfeff then cs else c :: cs
  | [] => []

def ofString (text : String) : Except Error Entries := do
  let cs := dropMark text.toList
  let draft ← lines (cs.length + 1) {} cs
  draft.sections.reverse.foldlM Section.addTo (← fill [] draft.pairs)

end CalExport.Toml
