import CalExport.File.Path

namespace CalExport

inductive Content where
  | bytes (data : ByteArray)
  | zeros (count : Nat)

namespace Content

def size : Content → Nat
  | .bytes data => data.size
  | .zeros count => count

def toBytes : Content → ByteArray
  | .bytes data => data
  | .zeros count => ⟨Array.replicate count 0⟩

end Content

/-- A file, or a directory with its entries in any order. -/
inductive Node where
  | file (content : Content)
  | directory (entries : List (String × Node))

inductive LookupError where
  | missing
  | notADirectory
deriving DecidableEq, Repr

abbrev FileSystem := Path → Except LookupError Node

namespace Node

def isFile : Node → Bool
  | .file _ => true
  | .directory _ => false

def isDirectory : Node → Bool
  | .file _ => false
  | .directory _ => true

def walk (above : List Node) (here : Node) : List String → Except LookupError Node
  | [] => .ok here
  | name :: rest =>
    match here with
    | .file _ => .error .notADirectory
    | .directory entries =>
      if name = ".." then
        match above with
        | parent :: further => walk further parent rest
        | [] => .error .missing
      else
        match entries.lookup name with
        | some next => walk (here :: above) next rest
        | none => .error .missing

def mount (node : Node) (place : Path) : FileSystem := fun path =>
  if path.isEmpty || path.isAbsolute != place.isAbsolute || !place.names.isPrefixOf path.names then .error .missing
  else
    match node.walk [] (path.names.drop place.names.length) with
    | .ok (.file content) => if path.endsAsDirectory then .error .notADirectory else .ok (.file content)
    | result => result

def resolve (root : Node) : FileSystem := root.mount ⟨"."⟩

def putEntry (name : String) (node : Node) : List (String × Node) → List (String × Node)
  | [] => [(name, node)]
  | (n, old) :: rest => if n = name then (name, node) :: rest else (n, old) :: putEntry name node rest

def insert (here : Node) (new : Node) : List String → Node
  | [] => new
  | name :: rest =>
    match here with
    | .file _ => here
    | .directory entries =>
      let next := (entries.lookup name).getD (.directory [])
      .directory (putEntry name (next.insert new rest) entries)

def empty : Node := .directory []

def insertFile (root : Node) (path : Path) (content : Content) : Node := root.insert (.file content) path.names

def insertDirectory (root : Node) (path : Path) : Node :=
  match root.walk [] path.names with
  | .ok _ => root
  | .error _ => root.insert .empty path.names

end Node

namespace FileSystem

def orElse (fs other : FileSystem) : FileSystem := fun path =>
  match fs path with
  | .ok node => .ok node
  | .error _ => other path

def find? (fs : FileSystem) (path : Path) : Option Node := (fs path).toOption

def isFile (fs : FileSystem) (path : Path) : Bool := (fs.find? path).any Node.isFile

def isDirectory (fs : FileSystem) (path : Path) : Bool := (fs.find? path).any Node.isDirectory

end FileSystem

end CalExport
