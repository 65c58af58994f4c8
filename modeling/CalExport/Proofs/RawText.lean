import CalExport.Proofs.Ahead

namespace CalExport.Rule

def stillOpen (opened : List Kind) (t : Token) : List Kind :=
  if opensBracket t.kind then t.kind :: opened else if closesBracket t.kind then opened.tail else opened

def leftOpen (tokens : List Token) : List Kind := tokens.foldl stillOpen []

def rawFrom (opened : List Kind) : List Token → List Token
  | [] => []
  | t :: rest => if opened = [] ∧ endsColumn t.kind then [] else t :: rawFrom (stillOpen opened t) rest

def rawText (tokens : List Token) : List Token := rawFrom [] tokens

/-- Tokens that are raw text in front of `rest`: a semicolon or a closing brace among them stands in a bracket, and the
token behind them, when there is one, is such a token outside all brackets. -/
structure RawExtent (taken rest : List Token) : Prop where
  inside : ∀ front t back, taken = front ++ t :: back → endsColumn t.kind = true → leftOpen front ≠ []
  ends : ∀ t back, rest = t :: back → endsColumn t.kind = true ∧ leftOpen taken = []

variable {s : Parser} {opened : List Kind} {t : Token} {l rest : List Token}

theorem opensBracket_of_endsColumn {κ : Kind} (h : endsColumn κ = true) : opensBracket κ = false := by
  unfold endsColumn at h
  split at h
  · rfl
  · rfl
  · cases h

theorem length_stillOpen (opened : List Kind) (t : Token) :
    (stillOpen opened t).length = bracketsAfter opened.length t.kind := by
  unfold stillOpen bracketsAfter
  split
  · rfl
  · split
    · exact List.length_tail
    · rfl

theorem rawFrom_of_stop (hopened : opened = []) (ht : endsColumn t.kind = true) : rawFrom opened (t :: rest) = [] :=
  if_pos ⟨hopened, ht⟩

theorem rawFrom_of_passed (h : ¬ (opened = [] ∧ endsColumn t.kind = true)) :
    rawFrom opened (t :: rest) = t :: rawFrom (stillOpen opened t) rest := if_neg h

theorem rawRound_of_stop {found : Array Token} {depth : Nat}
    (h : s.peek.kind = .eof ∨ depth = 0 ∧ endsColumn s.peek.kind = true) :
    rawRound endsColumn (found, depth) s = (.done (found, depth), s) := by
  have hstop : s.peek.kind = .eof ∨ (depth = 0 ∧ !opensBracket s.peek.kind ∧ endsColumn s.peek.kind) := by
    rcases h with heof | ⟨hdepth, hends⟩
    · exact .inl heof
    · exact .inr ⟨hdepth, by rw [opensBracket_of_endsColumn hends]; rfl, hends⟩
  rw [rawRound, peekKind, look_bind_apply, if_pos hstop]
  rfl

theorem rawRound_of_passed {found : Array Token} {depth : Nat} (heof : s.peek.kind ≠ .eof)
    (h : ¬ (depth = 0 ∧ endsColumn s.peek.kind = true)) :
    rawRound endsColumn (found, depth) s =
      (.yield (found.push s.peek, bracketsAfter depth s.peek.kind), (advance s).2) := by
  have hpassed : ¬ (s.peek.kind = .eof ∨ (depth = 0 ∧ !opensBracket s.peek.kind ∧ endsColumn s.peek.kind)) := by
    rintro (hstop | ⟨hdepth, -, hends⟩)
    · exact heof hstop
    · exact h ⟨hdepth, hends⟩
  rw [rawRound, peekKind, look_bind_apply, if_neg hpassed]
  rfl

theorem rawLoop_apply (opened : List Kind) (found : Array Token) (h : ahead s = l) :
    ∃ depth, loop (found, opened.length) (rawRound endsColumn) s =
      ((found ++ (rawFrom opened l).toArray, depth), skip (rawFrom opened l).length s) := by
  have hunrolls := (grammarLoop_progresses (.raw endsColumn)).unrolls
  induction l generalizing s opened found with
  | nil =>
      have hend : s.peek.kind = .eof := Cursor.kind_peek_eq_eof.2 (ahead_eq_nil_iff.1 h)
      refine ⟨opened.length, ?_⟩
      rw [hunrolls, rawRound_of_stop (.inl hend)]
      simp [rawFrom, skip]
  | cons t rest ih =>
      have hpeek := peek_of_ahead h
      have heof : s.peek.kind ≠ .eof := by
        rw [hpeek]
        exact kind_of_mem_ahead (h ▸ List.mem_cons_self)
      by_cases hstop : opened = [] ∧ endsColumn t.kind = true
      · refine ⟨opened.length, ?_⟩
        have hround : rawRound endsColumn (found, opened.length) s = (.done (found, opened.length), s) :=
          rawRound_of_stop (.inr ⟨by rw [hstop.1]; rfl, hpeek ▸ hstop.2⟩)
        rw [hunrolls, hround, rawFrom_of_stop hstop.1 hstop.2]
        simp [skip]
      · have hpassed : ¬ (opened.length = 0 ∧ endsColumn s.peek.kind = true) := by
          rwa [List.length_eq_zero_iff, hpeek]
        obtain ⟨depth, hrun⟩ := ih (stillOpen opened t) (found.push t) (ahead_advance h)
        refine ⟨depth, ?_⟩
        rw [hunrolls, rawRound_of_passed heof hpassed, hpeek, ← length_stillOpen, rawFrom_of_passed hstop]
        refine hrun.trans ?_
        rw [List.length_cons, skip]
        simp

/-- Raw text passes its tokens and nothing else. -/
theorem raw_apply (s : Parser) :
    raw endsColumn s = (rawText (ahead s), skip (rawText (ahead s)).length s) := by
  obtain ⟨depth, hloop⟩ := rawLoop_apply [] #[] (s := s) rfl
  have hraw : raw endsColumn s = ((loop (#[], 0) (rawRound endsColumn) s).1.1.toList,
      (loop (#[], 0) (rawRound endsColumn) s).2) := rfl
  rw [hraw]
  rw [List.length_nil] at hloop
  rw [hloop]
  simp [rawText]

theorem rawFrom_extent (opened : List Kind) (l : List Token) :
    ∃ rest, l = rawFrom opened l ++ rest ∧
      (∀ front t back, rawFrom opened l = front ++ t :: back → endsColumn t.kind = true →
        front.foldl stillOpen opened ≠ []) ∧
      ∀ t back, rest = t :: back → endsColumn t.kind = true ∧ (rawFrom opened l).foldl stillOpen opened = [] := by
  induction l generalizing opened with
  | nil => exact ⟨[], rfl, by simp [rawFrom], by simp⟩
  | cons t l ih =>
      by_cases hstop : opened = [] ∧ endsColumn t.kind = true
      · rw [rawFrom_of_stop hstop.1 hstop.2]
        refine ⟨t :: l, rfl, by simp, ?_⟩
        intro u back hrest
        obtain ⟨rfl, -⟩ := List.cons.inj hrest
        exact ⟨hstop.2, hstop.1⟩
      · obtain ⟨rest, hl, hinside, hends⟩ := ih (stillOpen opened t)
        rw [rawFrom_of_passed hstop]
        refine ⟨rest, by rw [List.cons_append, ← hl], ?_, hends⟩
        intro front u back hfront hu
        cases front with
        | nil =>
            obtain ⟨rfl, -⟩ := List.cons.inj hfront
            exact fun hopened => hstop ⟨hopened, hu⟩
        | cons v front =>
            obtain ⟨rfl, hback⟩ := List.cons.inj hfront
            exact hinside front u back hback hu

theorem rawText_extent (l : List Token) : ∃ rest, l = rawText l ++ rest ∧ RawExtent (rawText l) rest := by
  obtain ⟨rest, hl, hinside, hends⟩ := rawFrom_extent [] l
  exact ⟨rest, hl, hinside, hends⟩

/-- What stands behind the first equals sign of some tokens. -/
def valueTokens (tokens : List Token) : List Token := (tokens.dropWhile fun t => t.kind != .equal).tail

def propertyRest (start : Nat) (name : String) : Rule Property := do
  let value ← propertyValue
  let span ← spanFrom start
  let _ ← accept .semicolon
  return { name, value, span }

theorem getElem?_ahead {i : Nat} (h : (s.peekAhead i).kind ≠ .eof) : (ahead s)[i]? = some (s.peekAhead i) := by
  rw [ahead, List.getElem?_drop, Array.getElem?_toList]
  rw [Cursor.peekAhead, Cursor.tokenAt] at h ⊢
  cases hget : s.tokens[s.position + i]? with
  | none =>
      rw [hget] at h
      exact absurd s.kind_eof h
  | some t => rfl

/-- The tokens in front of one that is seen further on. -/
theorem ahead_split {n : Nat} (h : (s.peekAhead n).kind ≠ .eof) :
    ∃ front back, ahead s = front ++ s.peekAhead n :: back ∧ front.length = n ∧
      ∀ x ∈ front, ∃ i < n, s.peekAhead i = x := by
  obtain ⟨hlt, hget⟩ := List.getElem?_eq_some_iff.1 (getElem?_ahead h)
  have hlength : ((ahead s).take n).length = n := by
    rw [List.length_take]
    omega
  have hsplit : ahead s = (ahead s).take n ++ s.peekAhead n :: (ahead s).drop (n + 1) := by
    rw [← hget, List.getElem_cons_drop, List.take_append_drop]
  refine ⟨(ahead s).take n, (ahead s).drop (n + 1), hsplit, hlength, ?_⟩
  intro x hx
  obtain ⟨i, hi, rfl⟩ := List.mem_iff_getElem.1 hx
  refine ⟨i, by omega, ?_⟩
  have hsame := tokenAt_of_ahead hsplit hi
  rw [Cursor.peekAhead, Nat.add_comm, hsame]

theorem advanceBy_apply (h : ahead s = l ++ rest) : advanceBy l.length s = (l, skip l.length s) := by
  induction l generalizing s with
  | nil => rfl
  | cons t l ih => rw [List.length_cons, advanceBy_succ, ih (ahead_advance h), peek_of_ahead h, skip]

theorem propertyName_of_none (h : propertyNameLength? s = none) :
    propertyName s = (.error (.expected "property name" s.peek), s) := by
  have hlook : (liftM (look propertyNameLength?) : Rule (Option Nat)) s = (.ok none, s) := by
    rw [← h]
    rfl
  exact attempt_bind_of_ok hlook _

theorem propertyName_of_some {n : Nat} (h : propertyNameLength? s = some n) :
    propertyName s = (.ok (nameText (advanceBy n s).1), (advanceBy n s).2) := by
  have hlook : (liftM (look propertyNameLength?) : Rule (Option Nat)) s = (.ok (some n), s) := by
    rw [← h]
    rfl
  exact attempt_bind_of_ok hlook _

theorem ahead_skip_succ (h : ahead s = l ++ t :: rest) : ahead (skip (l.length + 1) s) = rest := by
  rw [skip_add]
  exact ahead_advance (ahead_skip h)

/-- A property fails in front of its name, or an equals sign stands behind the name, which holds none. -/
theorem property_cases (s : Parser) :
    (∃ fault, property s = (.error fault, s)) ∨
    ∃ name equal rest, ahead s = name ++ equal :: rest ∧ equal.kind = .equal ∧
      (∀ x ∈ name, endsPropertyName x.kind = false) ∧
      property s = propertyRest s.position (nameText name) (skip (name.length + 1) s) := by
  have hproperty : property s =
      (propertyName >>= fun name => expect .equal >>= fun _ => propertyRest s.position name) s := rfl
  cases hlength : propertyNameLength? s with
  | none =>
      left
      refine ⟨.expected "property name" s.peek, ?_⟩
      rw [hproperty]
      exact attempt_bind_of_error (propertyName_of_none hlength) _
  | some n =>
      right
      have hn : n = nameLength s maxPropertyNameTokens ∧ (s.peekAhead n).kind = .equal := by
        unfold propertyNameLength? at hlength
        dsimp only at hlength
        split at hlength
        · cases hlength
        · rename_i hfound
          obtain rfl := Option.some.inj hlength
          exact ⟨rfl, Decidable.not_not.1 fun h => hfound (.inr h)⟩
      obtain ⟨name, rest, hsplit, rfl, hname⟩ := ahead_split (s := s) (n := n) (by rw [hn.2]; rintro ⟨⟩)
      refine ⟨name, _, rest, hsplit, hn.2, ?_, ?_⟩
      · intro x hx
        obtain ⟨i, hi, rfl⟩ := hname x hx
        exact not_endsPropertyName (hn.1 ▸ hi)
      · have hpassed := propertyName_of_some hlength
        rw [advanceBy_apply hsplit] at hpassed
        have hequal : (skip name.length s).peek.kind = .equal := by
          rw [peek_of_ahead (ahead_skip hsplit)]
          exact hn.2
        rw [hproperty]
        refine (attempt_bind_of_ok hpassed _).trans ?_
        refine (attempt_bind_of_ok (expect_of_kind hequal) _).trans ?_
        rw [skip_add]
        rfl

theorem valueTokens_of_ahead {name : List Token} {equal : Token} (h : ahead s = name ++ equal :: rest)
    (hequal : equal.kind = .equal) (hname : ∀ x ∈ name, endsPropertyName x.kind = false) :
    valueTokens (ahead s) = rest := by
  have hdrop : (name ++ equal :: rest).dropWhile (fun t => t.kind != .equal) = equal :: rest := by
    rw [List.dropWhile_append_of_pos]
    · rw [List.dropWhile_cons_of_neg (by simp [hequal])]
    · intro x hx
      rw [bne_iff_ne]
      intro heq
      have hends := hname x hx
      rw [heq] at hends
      cases hends
  rw [valueTokens, h, hdrop, List.tail_cons]

/-- A value that does not begin like a trigger is raw text, and nothing can go wrong with it. -/
theorem propertyRest_of_text (start : Nat) (name : String) (h : triggerStarts s = false) :
    propertyRest start name s = (.ok ⟨name, .text (joinTokens (rawText (ahead s))),
      (skip (rawText (ahead s)).length s).spanFrom start⟩,
      (accept .semicolon (skip (rawText (ahead s)).length s)).2) := by
  have hvalue : propertyValue s = (.ok (.text (joinTokens (rawText (ahead s)))), skip (rawText (ahead s)).length s) := by
    have htest : (liftM (test triggerStarts) : Rule Bool) s = (.ok false, s) := by
      rw [← h]
      rfl
    have hraw : (liftM (raw endsColumn) : Rule (List Token)) s =
        (.ok (rawText (ahead s)), skip (rawText (ahead s)).length s) := by
      show (Except.ok (raw endsColumn s).1, (raw endsColumn s).2) = _
      rw [raw_apply]
    refine (attempt_bind_of_ok htest _).trans ?_
    exact attempt_bind_of_ok hraw _
  exact attempt_bind_of_ok hvalue _

/-- A value that begins like a trigger is read as one. -/
theorem propertyValue_of_trigger (h : triggerStarts s = true) :
    propertyValue s = (triggerBody >>= fun body => pure (.trigger body.1 body.2) : Rule PropertyValue) s := by
  have htest : (liftM (test triggerStarts) : Rule Bool) s = (.ok true, s) := by
    rw [← h]
    rfl
  exact attempt_bind_of_ok htest _

theorem value_of_trigger {start : Nat} {name : String} {p : Property} {u : Parser} (h : triggerStarts s = true)
    (hrun : propertyRest start name s = (.ok p, u)) : ∃ locals body, p.value = .trigger locals body := by
  rcases hbody : triggerBody s with ⟨fault | ⟨locals, body⟩, v⟩
  · have hvalue : propertyValue s = (.error fault, v) := by
      rw [propertyValue_of_trigger h]
      exact attempt_bind_of_error hbody _
    have hrest : propertyRest start name s = (.error fault, v) := attempt_bind_of_error hvalue _
    rw [hrest] at hrun
    cases hrun
  · have hvalue : propertyValue s = (.ok (.trigger locals body), v) := by
      rw [propertyValue_of_trigger h]
      exact attempt_bind_of_ok hbody _
    have hrest : propertyRest start name s =
        (.ok ⟨name, .trigger locals body, v.spanFrom start⟩, (accept .semicolon v).2) := attempt_bind_of_ok hvalue _
    rw [hrest] at hrun
    cases hrun
    exact ⟨locals, body, rfl⟩

/-- A property whose value is raw text: its tokens, and what is left behind it. -/
theorem property_of_text {p : Property} {u : Parser} {text : String} (h : property s = (.ok p, u))
    (htext : p.value = .text text) :
    ∃ name equal rest, ahead s = name ++ equal :: rest ∧ equal.kind = .equal ∧
      (∀ x ∈ name, endsPropertyName x.kind = false) ∧ text = joinTokens (rawText rest) := by
  rcases property_cases s with ⟨fault, hfault⟩ | ⟨name, equal, rest, hsplit, hequal, hname, hrun⟩
  · rw [hfault] at h
    cases h
  refine ⟨name, equal, rest, hsplit, hequal, hname, ?_⟩
  rw [hrun] at h
  cases hstarts : triggerStarts (skip (name.length + 1) s) with
  | true =>
      obtain ⟨locals, body, hvalue⟩ := value_of_trigger hstarts h
      rw [htext] at hvalue
      cases hvalue
  | false =>
      rw [propertyRest_of_text _ _ hstarts, ahead_skip_succ hsplit] at h
      cases h
      exact (PropertyValue.text.inj htext).symm

end CalExport.Rule
