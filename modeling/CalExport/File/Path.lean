import CalExport.Text.LowerCase
import CalExport.Text.Basic

namespace CalExport

open Text

structure Path where
  text : String
deriving DecidableEq, Repr

namespace Path

def names (p : Path) : List String :=
  ((parts '/' p.text.toList).filter fun part => part ≠ [] && part ≠ ['.']).map String.ofList

def isEmpty (p : Path) : Bool := p.text.isEmpty

def isAbsolute (p : Path) : Bool := p.text.toList.head? = some '/'

def endsAsDirectory (p : Path) : Bool :=
  match (parts '/' p.text.toList).getLast? with
  | some [] | some ['.'] => true
  | _ => false

def child (p : Path) (name : String) : Path :=
  match p.text.toList.getLast? with
  | none | some '/' => ⟨p.text ++ name⟩
  | some _ => ⟨p.text ++ "/" ++ name⟩

def fileName? (p : Path) : Option String :=
  match p.names.getLast? with
  | some ".." | none => none
  | some name => some name

def extensionOf? (name : String) : Option String :=
  let behind := (name.toList.reverse.takeWhile (· != '.')).reverse
  let before := name.toList.length - behind.length
  if before ≤ 1 then none else some (String.ofList behind)

def extension? (p : Path) : Option String := (p.fileName?.bind extensionOf?).map lowerCase

def namesLe : List String → List String → Bool
  | [], _ => true
  | _ :: _, [] => false
  | a :: as, b :: bs => if a = b then namesLe as bs else decide (a < b)

def le (p q : Path) : Bool := namesLe p.names q.names

end Path

end CalExport
