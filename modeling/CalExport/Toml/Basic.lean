import CalExport.Number.Binary64

namespace CalExport.Toml

inductive TableKind where
  /-- By a header of its own, or as the document. -/
  | header
  /-- On the way to a longer header. -/
  | implied
  /-- On the way to the last part of a dotted key. -/
  | dotted
  /-- Between braces. -/
  | inline
deriving DecidableEq, Repr

inductive Item where
  | string (s : String)
  | integer (n : Int)
  | float (x : Binary64)
  | boolean (b : Bool)
  | dateTime (text : String)
  | array (items : List Item)
  /-- Tables under one header in double brackets, each with its entries. -/
  | tables (rows : List (List (String × Item)))
  | table (kind : TableKind) (entries : List (String × Item))

abbrev Entries := List (String × Item)

inductive Error where
  | unexpected (wanted : String)
  | duplicateKey (key : String)
  | notATable (key : String)
  | outOfRange (what : String)
  | tooDeep
  | wrongType (key wanted : String)
deriving DecidableEq, Repr

def Error.message : Error → String
  | .unexpected wanted => "expected " ++ wanted
  | .duplicateKey key => "duplicate key " ++ key
  | .notATable key => key ++ " is not a table that can be extended"
  | .outOfRange what => what ++ " out of range"
  | .tooDeep => "nested too deep"
  | .wrongType key wanted => key ++ " has to be " ++ wanted

namespace Entries

def put (key : String) (item : Item) : Entries → Entries
  | [] => [(key, item)]
  | (k, old) :: rest => if k = key then (key, item) :: rest else (k, old) :: put key item rest

/-- Puts an item under a dotted key. The tables on the way may not have headers of their own, and the last of them
is one that only dotted keys have made. -/
def define (item : Item) : List String → Entries → Except Error Entries
  | [], _ => .error (.unexpected "a key")
  | [key], entries => if (entries.lookup key).isSome then .error (.duplicateKey key) else .ok (entries ++ [(key, item)])
  | key :: next :: rest, entries =>
    match entries.lookup key with
    | none => do return entries ++ [(key, .table .dotted (← define item (next :: rest) []))]
    | some (.table kind inner) =>
      if kind = .dotted ∨ (kind = .implied ∧ rest ≠ []) then do
        return put key (.table kind (← define item (next :: rest) inner)) entries
      else .error (.duplicateKey key)
    | some (.tables rows) =>
      match rows.getLast? with
      | some last =>
        if rest = [] then .error (.duplicateKey key)
        else do return put key (.tables (rows.dropLast ++ [← define item (next :: rest) last])) entries
      | none => .error (.duplicateKey key)
    | some _ => .error (.notATable key)

/-- Changes what a header names. Tables on the way are made if they are missing; of the tables under a header in
double brackets the last one is meant. -/
def change (f : Option Item → Except Error Item) : List String → Entries → Except Error Entries
  | [], _ => .error (.unexpected "a key")
  | [key], entries => do
    let item ← f (entries.lookup key)
    return entries.filter (fun entry => entry.1 ≠ key) ++ [(key, item)]
  | key :: next :: rest, entries =>
    match entries.lookup key with
    | none => do return entries ++ [(key, .table .implied (← change f (next :: rest) []))]
    | some (.table kind inner) =>
      if kind = .inline then .error (.notATable key)
      else do return put key (.table kind (← change f (next :: rest) inner)) entries
    | some (.tables rows) =>
      match rows.getLast? with
      | some last => do return put key (.tables (rows.dropLast ++ [← change f (next :: rest) last])) entries
      | none => .error (.notATable key)
    | some _ => .error (.notATable key)

end Entries

abbrev Pair := List String × Item

def fill (entries : Entries) (pairs : List Pair) : Except Error Entries :=
  pairs.foldlM (fun entries pair => entries.define pair.2 pair.1) entries

structure Section where
  path : List String
  inDoubleBrackets : Bool
  pairs : List Pair

def Section.addTo (document : Entries) (s : Section) : Except Error Entries :=
  let key := s.path.getLastD ""
  let open_ (existing : Option Item) : Except Error Item :=
    if s.inDoubleBrackets then do
      let row ← fill [] s.pairs
      match existing with
      | none => return .tables [row]
      | some (.tables rows) => return .tables (rows ++ [row])
      | some _ => throw (.duplicateKey key)
    else
      match existing with
      | none => return .table .header (← fill [] s.pairs)
      | some (.table .implied entries) => return .table .header (← fill entries s.pairs)
      | some _ => throw (.duplicateKey key)
  document.change open_ s.path

end CalExport.Toml
