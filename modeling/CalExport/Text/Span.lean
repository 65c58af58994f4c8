import CalExport.Text.Position

namespace CalExport.Text

structure Span where
  start : Position
  stop : Position
deriving DecidableEq, Repr, Inhabited

namespace Span

def point (p : Position) : Span := ⟨p, p⟩

def origin : Span := point Position.start

def merge (a b : Span) : Span where
  start := if a.start.offset ≤ b.start.offset then a.start else b.start
  stop := if b.stop.offset ≤ a.stop.offset then a.stop else b.stop

def length (s : Span) : Nat := s.stop.offset - s.start.offset

def isEmpty (s : Span) : Bool := s.start.offset == s.stop.offset

def contains (a b : Span) : Bool := a.start.offset ≤ b.start.offset && b.stop.offset ≤ a.stop.offset

def display (s : Span) : String :=
  if s.start.line = s.stop.line then s!"{s.start.line}:{s.start.column}-{s.stop.column}"
  else s!"{s.start.display}-{s.stop.display}"

theorem merge_self (s : Span) : s.merge s = s := by
  cases s
  simp [merge]

end Span

def dropBytes : Nat → List Char → Option (List Char)
  | 0, cs => some cs
  | _ + 1, [] => none
  | n + 1, c :: cs => if c.utf8Size ≤ n + 1 then dropBytes (n + 1 - c.utf8Size) cs else none
termination_by _ cs => cs.length

def charsInBytes (count : Nat) : Nat → List Char → Option Nat
  | 0, _ => some count
  | _ + 1, [] => none
  | n + 1, c :: cs => if c.utf8Size ≤ n + 1 then charsInBytes (count + 1) (n + 1 - c.utf8Size) cs else none
termination_by _ cs => cs.length

def Span.cut (s : Span) (cs : List Char) : List Char :=
  let found := do
    let rest ← dropBytes s.start.offset cs
    if s.start.offset ≤ s.stop.offset then
      (charsInBytes 0 (s.stop.offset - s.start.offset) rest).map fun n => rest.take n
    else none
  found.getD []

def Span.slice (s : Span) (source : String) : String := String.ofList (s.cut source.toList)

end CalExport.Text
