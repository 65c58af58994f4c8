import CalExport.Number.Decimal

namespace CalExport

inductive Json where
  | null
  | bool (b : Bool)
  | int (n : Int)
  | number (x : Binary64)
  | string (s : String)
  | array (items : List Json)
  | object (members : List (String × Json))
deriving Inhabited

namespace Json

instance : Coe String Json := ⟨string⟩
instance : Coe Bool Json := ⟨bool⟩
instance : Coe Nat Json := ⟨fun n => int n⟩

def ofOption (f : α → Json) : Option α → Json
  | none => null
  | some a => f a

def escapeChar (c : Char) : List Char :=
  match c with
  | '"' => ['\\', '"']
  | '\\' => ['\\', '\\']
  | '\n' => ['\\', 'n']
  | '\r' => ['\\', 'r']
  | '\t' => ['\\', 't']
  | _ =>
    let n := c.toNat
    if n = 8 then ['\\', 'b']
    else if n = 12 then ['\\', 'f']
    else if n < 32 then ['\\', 'u', '0', '0', Nat.digitChar (n / 16), Nat.digitChar (n % 16)]
    else [c]

def writeString (out : String) (s : String) : String :=
  (s.foldl (fun acc c => (escapeChar c).foldl String.push acc) (out.push '"')).push '"'

def writeNumber (out : String) (x : Binary64) : String :=
  if x.isFinite then out ++ x.display else out ++ "null"

mutual

def write (out : String) : Json → String
  | .null => out ++ "null"
  | .bool b => out ++ if b then "true" else "false"
  | .int n => out ++ toString n
  | .number x => writeNumber out x
  | .string s => writeString out s
  | .array items => (writeItems (out.push '[') items).push ']'
  | .object members => (writeMembers (out.push '\x7b') members).push '\x7d'

def writeItems (out : String) : List Json → String
  | [] => out
  | [item] => write out item
  | item :: rest => writeItems ((write out item).push ',') rest

def writeMembers (out : String) : List (String × Json) → String
  | [] => out
  | [(key, value)] => write ((writeString out key).push ':') value
  | (key, value) :: rest => writeMembers ((write ((writeString out key).push ':') value).push ',') rest

end

def compact (j : Json) : String := j.write ""

def newLine (out : String) (level : Nat) : String := (List.replicate (2 * level) ' ').foldl String.push (out.push '\n')

mutual

def writePretty (level : Nat) (out : String) : Json → String
  | .array [] => out ++ "[]"
  | .array (item :: rest) =>
    (newLine (writePrettyItems (level + 1) (out.push '[') (item :: rest)) level).push ']'
  | .object [] => (out.push '\x7b').push '\x7d'
  | .object (m :: rest) =>
    (newLine (writePrettyMembers (level + 1) (out.push '\x7b') (m :: rest)) level).push '\x7d'
  | .null => out ++ "null"
  | .bool b => out ++ if b then "true" else "false"
  | .int n => out ++ toString n
  | .number x => writeNumber out x
  | .string s => writeString out s

def writePrettyItems (level : Nat) (out : String) : List Json → String
  | [] => out
  | [item] => writePretty level (newLine out level) item
  | item :: rest => writePrettyItems level ((writePretty level (newLine out level) item).push ',') rest

def writePrettyMembers (level : Nat) (out : String) : List (String × Json) → String
  | [] => out
  | [(key, value)] => writePretty level (writeString (newLine out level) key ++ ": ") value
  | (key, value) :: rest =>
    writePrettyMembers level ((writePretty level (writeString (newLine out level) key ++ ": ") value).push ',') rest

end

def pretty (j : Json) : String := j.writePretty 0 ""

def insertMember (key : String) (value : Json) : List (String × Json) → List (String × Json)
  | [] => [(key, value)]
  | (k, v) :: rest => if key ≤ k then (key, value) :: (k, v) :: rest else (k, v) :: insertMember key value rest

mutual

def sorted : Json → Json
  | .array items => .array (sortedItems items)
  | .object members => .object (sortedMembers members)
  | other => other

def sortedItems : List Json → List Json
  | [] => []
  | item :: rest => sorted item :: sortedItems rest

def sortedMembers : List (String × Json) → List (String × Json)
  | [] => []
  | (key, value) :: rest => insertMember key (sorted value) (sortedMembers rest)

end

end Json

end CalExport
