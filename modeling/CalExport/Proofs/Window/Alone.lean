import CalExport.Proofs.Ahead
import CalExport.Proofs.Window.Declaration

namespace CalExport.Rule

variable {l more : List Token} {s t e : Parser} {preferences : ParserPreferences}

def aloneOn (preferences : ParserPreferences) (l : List Token) : Parser := .ofTokens l.toArray preferences

theorem tokens_aloneOn (h : ahead s = l ++ more) : (aloneOn preferences l).tokens = l.toArray := by
  apply filter_eq_of_eofFree
  intro x hx
  apply kind_of_mem_ahead (s := s)
  rw [h]
  exact List.mem_append_left more (List.mem_toArray.1 hx)

theorem ahead_aloneOn (h : ahead s = l ++ more) : ahead (aloneOn preferences l) = l := by
  rw [ahead, tokens_aloneOn h]
  rfl

theorem tokenAt_aloneOn (h : ahead s = l ++ more) {i : Nat} (hi : i < l.length) :
    (aloneOn preferences l).tokenAt i = l[i] := by
  rw [Cursor.tokenAt, tokens_aloneOn h, List.getElem?_toArray, List.getElem?_eq_getElem hi, Option.getD_some]

theorem kind_tokenAt_aloneOn (h : ahead s = l ++ more) : ((aloneOn preferences l).tokenAt l.length).kind = .eof := by
  rw [Cursor.tokenAt, tokens_aloneOn h, List.getElem?_toArray, List.getElem?_eq_none (Nat.le_refl _), Option.getD_none]
  exact (aloneOn preferences l).kind_eof

theorem kind_tokenAt_of_ahead (h : ahead s = l ++ more) : (s.tokenAt (l.length + s.position)).kind = nextKind more := by
  have hskip := kind_peek (skip l.length s)
  rw [ahead_skip h, Cursor.peek, position_skip h, Nat.add_comm] at hskip
  rw [← hskip, Cursor.tokenAt, Cursor.tokenAt, tokens_skip, eof_skip]

namespace Window

def ofAhead (preferences : ParserPreferences) (h : ahead s = l ++ more) : Window where
  first := (aloneOn preferences l).tokenAt
  second i := s.tokenAt (i + s.position)
  sees i := i < l.length
  shift := s.position
  deep := s.braceDepth
  logs := False
  earlier := #[]
  sees_of_le := Nat.lt_of_le_of_lt
  second_eq hi := (tokenAt_of_ahead h hi).trans (tokenAt_aloneOn h hi).symm

variable (h : ahead s = l ++ more)

theorem meets_ofAhead (hnesting : s.nesting = 0) : Meets (ofAhead preferences h) (aloneOn preferences l) s where
  first _ := rfl
  second _ := rfl
  passed _ hi := absurd hi (Nat.not_lt_zero _)
  position := (Nat.zero_add _).symm
  braceDepth := (Nat.zero_add _).symm
  tracked := .inr rfl
  nesting := hnesting
  logged := False.elim

theorem edge_ofAhead {i : Nat} (hi : (ofAhead preferences h).Edge i) : i = l.length := hi.eq fun _ => Iff.rfl

theorem first_of_edge {i : Nat} (hi : (ofAhead preferences h).Edge i) :
    ((ofAhead preferences h).first i).kind = .eof := by
  rw [edge_ofAhead h hi]
  exact kind_tokenAt_aloneOn h

theorem second_of_edge {i : Nat} (hi : (ofAhead preferences h).Edge i) :
    ((ofAhead preferences h).second i).kind = nextKind more := by
  rw [edge_ofAhead h hi]
  exact kind_tokenAt_of_ahead h

theorem ends_ofAhead (hmore : goesOn (nextKind more) = false) : (ofAhead preferences h).Ends where
  first i hi := by
    rw [first_of_edge h hi]
    rfl
  second i hi := by
    rw [second_of_edge h hi]
    exact hmore

/-- A run that has passed all tokens, and nothing else. -/
theorem lands_ofAhead (hclean : e.diagnostics = #[]) (hforward : Forward (aloneOn preferences l) e) :
    Lands (ofAhead preferences h) e := by
  refine ⟨hclean, fun i hi => ?_⟩
  have hle := e.position_le
  rw [hforward.tokens, tokens_aloneOn h, List.size_toArray] at hle
  exact Nat.lt_of_lt_of_le hi hle

/-- Where all tokens are passed alone, they are passed in their place. -/
theorem ahead_of_meets (hmeets : Meets (ofAhead preferences h) e t) (hforward : Forward (aloneOn preferences l) e)
    (hend : e.atEnd = true) (htokens : t.tokens = s.tokens) : ahead t = more := by
  have hposition : t.position = l.length + s.position := by
    rw [hmeets.position, Cursor.atEnd_iff.1 hend, hforward.tokens, tokens_aloneOn h, List.size_toArray]
    rfl
  rw [ahead, htokens, hposition, Nat.add_comm, ← List.drop_drop, ← ahead, h, List.drop_left]

end Window

end CalExport.Rule
