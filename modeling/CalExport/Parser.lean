import CalExport.Diagnostic.Basic
import CalExport.Preferences.Basic

namespace CalExport

open Text

def maxNesting : Nat := 128

/-- Most diagnostics of one document; one more tells that there were others. -/
def maxDiagnostics : Nat := 10000

structure Parser extends Cursor where
  nesting : Nat := 0
  diagnostics : Array Diagnostic := #[]
  /-- The limit on diagnostics has been met and reported. -/
  capped : Bool := false
  skipped : Array SkippedRegion := #[]
  preferences : ParserPreferences := {}
  events : Array Event := #[]

abbrev Parse (α : Type) := StateM Parser α

abbrev Rule (α : Type) := ExceptT Fault (StateM Parser) α

namespace Parser

def ofTokens (tokens : Array Token) (preferences : ParserPreferences) : Parser :=
  { Cursor.ofTokens tokens with preferences }

def freeLevels (s : Parser) : Nat := maxNesting - s.nesting

def withNesting (s : Parser) (n : Nat) : Parser := { s with nesting := n }

@[simp] theorem toCursor_withNesting (s : Parser) (n : Nat) : (s.withNesting n).toCursor = s.toCursor := rfl

@[simp] theorem nesting_withNesting (s : Parser) (n : Nat) : (s.withNesting n).nesting = n := rfl

theorem nesting_lt_of_freeLevels {s : Parser} {n : Nat} (h : s.freeLevels = n + 1) : s.nesting < maxNesting := by
  unfold freeLevels at h
  omega

theorem freeLevels_deeper {s : Parser} {n : Nat} (h : s.freeLevels = n + 1) :
    (s.withNesting (s.nesting + 1)).freeLevels = n := by
  unfold freeLevels at h ⊢
  rw [nesting_withNesting]
  omega

end Parser

end CalExport
