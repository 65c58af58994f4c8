import CalExport.Token.Basic

namespace CalExport

open Text

structure Cursor where
  tokens : Array Token
  eof : Token
  position : Nat := 0
  braceDepth : Nat := 0
  kind_eof : eof.kind = .eof
  kind_ne_eof : ∀ t ∈ tokens, t.kind ≠ .eof
  position_le : position ≤ tokens.size := by exact Nat.zero_le _

inductive CursorError where
  | unexpectedToken (expected found : Kind) (span : Span)
  | unexpectedEnd (expected : Kind) (span : Span)
deriving DecidableEq, Repr

namespace CursorError

def span : CursorError → Span
  | .unexpectedToken _ _ span | .unexpectedEnd _ span => span

def message : CursorError → String
  | .unexpectedToken expected found span =>
    s!"Expected {expected.describe}, found {found.describe} at {span.display}"
  | .unexpectedEnd expected span => s!"Expected {expected.describe}, but reached end of input at {span.display}"

end CursorError

namespace Cursor

/-- At the front of some tokens. The end of the input stands behind the last token that is none itself. -/
def ofTokens (all : Array Token) : Cursor :=
  let tokens := all.filter fun t => t.kind ≠ .eof
  let last := tokens.back? <|> all.back?
  { tokens
    eof := Token.endAfter ((last.map Token.span).getD Span.origin)
    kind_eof := rfl
    kind_ne_eof := by
      intro t ht
      simpa using (Array.mem_filter.1 ht).2 }

def tokenAt (c : Cursor) (i : Nat) : Token := c.tokens[i]?.getD c.eof

def peek (c : Cursor) : Token := c.tokenAt c.position

def peekAhead (c : Cursor) (n : Nat) : Token := c.tokenAt (c.position + n)

def previous (c : Cursor) : Token := if c.position = 0 then c.peek else c.tokenAt (c.position - 1)

def atEnd (c : Cursor) : Bool := c.tokens.size ≤ c.position

def left (c : Cursor) : Nat := c.tokens.size - c.position

def check (c : Cursor) (kind : Kind) : Bool := c.peek.kind == kind

def checkNext (c : Cursor) (kind : Kind) : Bool := (c.peekAhead 1).kind == kind

def depthAfter (depth : Nat) : Kind → Nat
  | .leftBrace => depth + 1
  | .rightBrace => depth - 1
  | _ => depth

/-- Behind the next token; nothing moves at the end of the input. -/
def next (c : Cursor) : Cursor :=
  if h : c.atEnd then c
  else
    { c with
      position := c.position + 1
      braceDepth := depthAfter c.braceDepth c.peek.kind
      position_le := Nat.lt_of_not_le fun hle => h (decide_eq_true hle) }

def expect (c : Cursor) (kind : Kind) : Except CursorError (Token × Cursor) :=
  let found := c.peek
  if found.kind = kind then .ok (found, c.next)
  else if found.kind = .eof then .error (.unexpectedEnd kind found.span)
  else .error (.unexpectedToken kind found.kind found.span)

/-- From the token at `start` to the token passed last; zero width at the next token when none was passed since. -/
def spanFrom (c : Cursor) (start : Nat) : Span :=
  if c.position ≤ start then Span.point c.peek.span.start
  else (c.tokenAt start).span.merge c.previous.span

def tokensBetween (c : Cursor) (start stop : Nat) : List Token := (c.tokens.extract start stop).toList

theorem check_iff {c : Cursor} {kind : Kind} : c.check kind = true ↔ c.peek.kind = kind := beq_iff_eq

@[simp] theorem tokens_next (c : Cursor) : c.next.tokens = c.tokens := by
  unfold next
  split <;> rfl

@[simp] theorem eof_next (c : Cursor) : c.next.eof = c.eof := by
  unfold next
  split <;> rfl

theorem position_next_le (c : Cursor) : c.position ≤ c.next.position := by
  unfold next
  split <;> simp

theorem atEnd_iff {c : Cursor} : c.atEnd = true ↔ c.position = c.tokens.size := by
  have h := c.position_le
  simp only [atEnd, decide_eq_true_eq]
  omega

theorem atEnd_iff_left {c : Cursor} : c.atEnd = true ↔ c.left = 0 := by
  simp only [atEnd, left, decide_eq_true_eq]
  omega

/-- The end of the input is seen there and nowhere else. -/
theorem kind_peek_eq_eof {c : Cursor} : c.peek.kind = .eof ↔ c.atEnd = true := by
  unfold peek tokenAt
  rw [atEnd_iff]
  rcases Nat.lt_or_eq_of_le c.position_le with hlt | heq
  · rw [Array.getElem?_eq_getElem hlt, Option.getD_some]
    have hkind := c.kind_ne_eof _ (Array.getElem_mem hlt)
    exact ⟨fun h => absurd h hkind, fun h => absurd h (Nat.ne_of_lt hlt)⟩
  · rw [heq, Array.getElem?_eq_none (Nat.le_refl _), Option.getD_none]
    exact ⟨fun _ => rfl, fun _ => c.kind_eof⟩

theorem position_next {c : Cursor} (h : c.atEnd = false) : c.next.position = c.position + 1 := by
  simp [next, h]

theorem braceDepth_next {c : Cursor} (h : c.atEnd = false) :
    c.next.braceDepth = depthAfter c.braceDepth c.peek.kind := by
  simp [next, h]

theorem left_next_lt {c : Cursor} (h : c.atEnd = false) : c.next.left < c.left := by
  have hp : c.position < c.tokens.size := by simpa [atEnd] using h
  simp only [left, tokens_next, position_next h]
  omega

end Cursor

end CalExport
