import CalExport.Proofs.Window.Alone

namespace CalExport.Rule

variable {l m m' : List Token} {preferences : ParserPreferences}

/-- The tokens that a parser keeps: the end of the input is none of them. -/
def withoutEnd (l : List Token) : List Token := l.filter fun t => t.kind ≠ .eof

@[simp] theorem withoutEnd_nil : withoutEnd [] = [] := rfl

@[simp] theorem withoutEnd_append (l m : List Token) : withoutEnd (l ++ m) = withoutEnd l ++ withoutEnd m :=
  List.filter_append l m

@[simp] theorem withoutEnd_cons {x : Token} (h : x.kind ≠ .eof) : withoutEnd (x :: l) = x :: withoutEnd l :=
  List.filter_cons_of_pos (by simpa using h)

theorem ahead_ofTokens (l : List Token) : ahead (Parser.ofTokens l.toArray preferences) = withoutEnd l := by
  have htokens : (Parser.ofTokens l.toArray preferences).tokens = l.toArray.filter fun t => t.kind ≠ .eof := rfl
  have hposition : (Parser.ofTokens l.toArray preferences).position = 0 := rfl
  rw [ahead, htokens, hposition, List.drop_zero, withoutEnd]
  simp

/-- Where the input ends is told by the last of the tokens. -/
theorem eof_ofTokens (hm : withoutEnd m ≠ []) :
    (Parser.ofTokens (l ++ m).toArray preferences).eof = (Parser.ofTokens m.toArray preferences).eof := by
  have heof : ∀ all : List Token, (Parser.ofTokens all.toArray preferences).eof =
      Token.endAfter ((((withoutEnd all).getLast? <|> all.getLast?).map Token.span).getD Text.Span.origin) := by
    intro all
    simp [Parser.ofTokens, Cursor.ofTokens, withoutEnd]
  obtain ⟨x, hx⟩ : ∃ x, (withoutEnd m).getLast? = some x := Option.isSome_iff_exists.1 (by simpa using hm)
  have hlast : (withoutEnd (l ++ m)).getLast? = some x := by
    rw [withoutEnd_append, List.getLast?_append, hx]
    rfl
  rw [heof, heof, hlast, hx]
  rfl

theorem eof_inserted (hm : withoutEnd m ≠ []) (l m' : List Token) :
    (Parser.ofTokens (l ++ (m' ++ m)).toArray preferences).eof = (Parser.ofTokens (l ++ m).toArray preferences).eof := by
  rw [← List.append_assoc]
  exact (eof_ofTokens hm).trans (eof_ofTokens hm).symm

theorem ahead_ofTokens_append (l m : List Token) :
    ahead (Parser.ofTokens (l ++ m).toArray preferences) = withoutEnd l ++ withoutEnd m := by
  rw [ahead_ofTokens, withoutEnd_append]

/-- Behind the tokens of the front. -/
theorem ahead_of_front {t : Parser} (hforward : Forward (.ofTokens (l ++ m).toArray preferences) t)
    (hplace : t.position = (withoutEnd l).length) : ahead t = withoutEnd m :=
  ahead_of_forward (ahead_ofTokens_append l m) hforward (hplace.trans (Nat.zero_add _).symm)

theorem tokenAt_ofTokens {i : Nat} (hi : i < (withoutEnd l).length) :
    (Parser.ofTokens (l ++ m).toArray preferences).tokenAt i = (withoutEnd l)[i] :=
  tokenAt_of_ahead (ahead_ofTokens_append l m) hi

def Window.common (preferences : ParserPreferences) (l m m' : List Token) : Window where
  first := (Parser.ofTokens (l ++ m).toArray preferences).tokenAt
  second := (Parser.ofTokens (l ++ m').toArray preferences).tokenAt
  sees i := i < (withoutEnd l).length
  shift := 0
  deep := 0
  logs := True
  earlier := #[]
  sees_of_le := Nat.lt_of_le_of_lt
  second_eq hi := (tokenAt_ofTokens hi).trans (tokenAt_ofTokens hi).symm

namespace Window

theorem meets_common (e : Event) : Meets (common preferences l m m') (.ofTokens (l ++ m).toArray preferences)
    (note e (.ofTokens (l ++ m').toArray preferences)).2 where
  first _ := rfl
  second _ := rfl
  passed _ hi := absurd hi (Nat.not_lt_zero _)
  position := rfl
  braceDepth := rfl
  tracked := .inl rfl
  nesting := rfl
  logged _ := ⟨rfl, rfl, rfl, rfl⟩

theorem edge_common {i : Nat} (hi : (common preferences l m m').Edge i) : i = (withoutEnd l).length :=
  hi.eq fun _ => Iff.rfl

theorem kind_first_common {i : Nat} (hi : (common preferences l m m').Edge i) :
    ((common preferences l m m').first i).kind = nextKind (withoutEnd m) := by
  rw [edge_common hi]
  exact kind_tokenAt_of_ahead (ahead_ofTokens_append l m)

theorem kind_second_common {i : Nat} (hi : (common preferences l m m').Edge i) :
    ((common preferences l m m').second i).kind = nextKind (withoutEnd m') := by
  rw [edge_common hi]
  exact kind_tokenAt_of_ahead (ahead_ofTokens_append l m')

end Window

end CalExport.Rule
