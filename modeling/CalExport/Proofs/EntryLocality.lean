import CalExport.Proofs.Ahead

namespace CalExport

def bracketWeight : Kind → Int
  | .leftParen | .leftBracket => 1
  | .rightParen | .rightBracket => -1
  | _ => 0

def openBrackets : List Token → Int
  | [] => 0
  | t :: rest => bracketWeight t.kind + openBrackets rest

/-- Tokens between braces: none of them is a brace, and every parenthesis and bracket is closed behind its opening. -/
structure Entry where
  opening : Token
  inner : List Token
  closing : Token
  kind_opening : opening.kind = .leftBrace
  kind_closing : closing.kind = .rightBrace
  kind_inner : ∀ t ∈ inner, t.kind ≠ .leftBrace ∧ t.kind ≠ .rightBrace
  openBrackets_nonneg : ∀ n, 0 ≤ openBrackets (inner.take n)
  openBrackets_eq_zero : openBrackets inner = 0

/-- Prefixes up to the whole are all there are. -/
theorem openBrackets_take_nonneg {inner : List Token}
    (h : ∀ n, n < inner.length + 1 → 0 ≤ openBrackets (inner.take n)) (n : Nat) : 0 ≤ openBrackets (inner.take n) := by
  by_cases hn : n < inner.length + 1
  · exact h n hn
  · rw [List.take_of_length_le (by omega), ← List.take_length (l := inner)]
    exact h _ (Nat.lt_succ_self _)

namespace Entry

def tokens (e : Entry) : List Token := e.opening :: (e.inner ++ [e.closing])

theorem length_tokens (e : Entry) : e.tokens.length = e.inner.length + 2 := by
  simp [tokens]

theorem getElem?_inner (e : Entry) {i : Nat} (hi : i < e.inner.length) : e.tokens[i + 1]? = e.inner[i]? := by
  rw [tokens, List.getElem?_cons_succ, List.getElem?_append_left hi]

theorem getElem?_closing (e : Entry) : e.tokens[e.inner.length + 1]? = some e.closing := by
  rw [tokens, List.getElem?_cons_succ, List.getElem?_append_right (Nat.le_refl _), Nat.sub_self]
  rfl

end Entry

namespace Rule

variable {α : Type} {e : Entry} {off base : Nat} {s s' : Parser}

/-- Spans of tokens that both runs have. -/
theorem spanFrom_of_window {n : Nat} (hwindow : ∀ i < n, s'.tokenAt (i + off) = s.tokenAt i)
    (hposition : s'.position = s.position + off) (hle : s.position ≤ n) {i : Nat} (hi : i < s.position) :
    s'.spanFrom (i + off) = s.spanFrom i := by
  have hfirst := hwindow i (by omega)
  have hlast := hwindow (s.position - 1) (by omega)
  rw [← Nat.sub_add_comm (by omega)] at hlast
  rw [Cursor.spanFrom, Cursor.spanFrom, Cursor.previous, Cursor.previous, hposition, if_neg (by omega),
    if_neg (by omega), if_neg (by omega), if_neg (by omega), hfirst, hlast]

/-- The same place between the braces of an entry, alone and behind `off` tokens and `base` open braces. -/
structure Inside (e : Entry) (off base : Nat) (s s' : Parser) : Prop where
  tokens : s.tokens = e.tokens.toArray
  window : ∀ i < e.tokens.length, s'.tokenAt (i + off) = s.tokenAt i
  opened : 0 < s.position
  inside : s.position < e.tokens.length
  position : s'.position = s.position + off
  braceDepth : s.braceDepth = 1
  deep : s'.braceDepth = s.braceDepth + base
  nesting : s'.nesting = s.nesting

namespace Inside

theorem tokenAt_inner (h : Inside e off base s s') {i : Nat} (hi : i < e.inner.length) :
    s.tokenAt (i + 1) = e.inner[i] := by
  rw [Cursor.tokenAt, h.tokens, List.getElem?_toArray, e.getElem?_inner hi, List.getElem?_eq_getElem hi,
    Option.getD_some]

theorem tokenAt_closing (h : Inside e off base s s') : s.tokenAt (e.inner.length + 1) = e.closing := by
  rw [Cursor.tokenAt, h.tokens, List.getElem?_toArray, e.getElem?_closing, Option.getD_some]

/-- Only the last token is a brace. -/
theorem kind_eq_rightBrace (h : Inside e off base s s') {i : Nat} (hpos : 0 < i) (hi : i < e.tokens.length) :
    (s.tokenAt i).kind = .rightBrace ↔ i = e.inner.length + 1 := by
  obtain ⟨j, rfl⟩ : ∃ j, i = j + 1 := ⟨i - 1, by omega⟩
  rw [e.length_tokens] at hi
  by_cases hj : j < e.inner.length
  · rw [h.tokenAt_inner hj]
    have hkind := (e.kind_inner _ (List.getElem_mem hj)).2
    exact ⟨fun hbrace => absurd hbrace hkind, fun heq => by omega⟩
  · obtain rfl : j = e.inner.length := by omega
    rw [h.tokenAt_closing]
    exact ⟨fun _ => rfl, fun _ => e.kind_closing⟩

theorem peek_eq_inner (h : Inside e off base s s') (hk : s.peek.kind ≠ .rightBrace) :
    ∃ hi : s.position - 1 < e.inner.length, s.peek = e.inner[s.position - 1] := by
  have hopened := h.opened
  have hinside := h.inside
  have hne := mt (h.kind_eq_rightBrace hopened hinside).2 hk
  rw [e.length_tokens] at hinside
  have hi : s.position - 1 < e.inner.length := by omega
  refine ⟨hi, ?_⟩
  rw [← h.tokenAt_inner hi, Nat.sub_add_cancel hopened, ← Cursor.peek]

theorem peekAhead_eq (h : Inside e off base s s') (n : Nat)
    (hn : ∀ i < n, (s.peekAhead i).kind ≠ .rightBrace) : s'.peekAhead n = s.peekAhead n := by
  have hopened := h.opened
  have hinside := h.inside
  rw [e.length_tokens] at hinside
  have hle : s.position + n < e.tokens.length := by
    rw [e.length_tokens]
    apply Nat.lt_of_not_le
    intro hle
    apply hn (e.inner.length + 1 - s.position) (by omega)
    rw [Cursor.peekAhead, Nat.add_sub_cancel' (by omega), h.tokenAt_closing]
    exact e.kind_closing
  rw [Cursor.peekAhead, Cursor.peekAhead, h.position, Nat.add_right_comm]
  exact h.window _ hle

theorem peek_eq (h : Inside e off base s s') : s'.peek = s.peek :=
  h.peekAhead_eq 0 fun _ hi => absurd hi (Nat.not_lt_zero _)

theorem spanFrom_eq (h : Inside e off base s s') (start : Nat) : s'.spanFrom (start + off) = s.spanFrom start := by
  have hposition := h.position
  by_cases hle : s.position ≤ start
  · rw [Cursor.spanFrom, Cursor.spanFrom, if_pos hle, if_pos (by omega), h.peek_eq]
  · exact spanFrom_of_window h.window h.position (Nat.le_of_lt h.inside) (Nat.lt_of_not_le hle)

theorem atEnd (h : Inside e off base s s') : s.atEnd = false ∧ s'.atEnd = false := by
  have halone : s.atEnd = false := by
    rw [Cursor.atEnd, h.tokens, List.size_toArray, decide_eq_false_iff_not]
    exact Nat.not_le_of_lt h.inside
  have hkind : s.peek.kind ≠ .eof := by
    rw [Ne, Cursor.kind_peek_eq_eof, halone]
    exact Bool.false_ne_true
  rw [← h.peek_eq, Ne, Cursor.kind_peek_eq_eof, Bool.not_eq_true] at hkind
  exact ⟨halone, hkind⟩

theorem advance (h : Inside e off base s s') (hk : s.peek.kind ≠ .rightBrace) :
    Inside e off base (Rule.advance s).2 (Rule.advance s').2 := by
  have hposition : (Rule.advance s).2.position = s.position + 1 := Cursor.position_next h.atEnd.1
  have hposition' : (Rule.advance s').2.position = s'.position + 1 := Cursor.position_next h.atEnd.2
  have hdepth : (Rule.advance s).2.braceDepth = _ := Cursor.braceDepth_next h.atEnd.1
  have hdepth' : (Rule.advance s').2.braceDepth = _ := Cursor.braceDepth_next h.atEnd.2
  obtain ⟨hi, hpeek⟩ := h.peek_eq_inner hk
  have hopen : s.peek.kind ≠ .leftBrace := hpeek ▸ (e.kind_inner _ (List.getElem_mem hi)).1
  rw [depthAfter_of_ne hopen hk] at hdepth
  rw [h.peek_eq, depthAfter_of_ne hopen hk] at hdepth'
  refine ⟨?_, ?_, ?_, ?_, ?_, ?_, ?_, h.nesting⟩
  · exact (forward_advance s).tokens.trans h.tokens
  · intro i hi
    rw [tokenAt_advance, tokenAt_advance]
    exact h.window i hi
  · omega
  · rw [hposition, e.length_tokens]
    omega
  · rw [hposition, hposition', h.position, Nat.add_right_comm]
  · rw [hdepth, h.braceDepth]
  · rw [hdepth, hdepth', h.deep]

/-- What is noted and reported does not matter. -/
theorem of_cursor {t t' : Parser} (h : Inside e off base s s') (ht : t.toCursor = s.toCursor)
    (ht' : t'.toCursor = s'.toCursor) (hn : t'.nesting = t.nesting) : Inside e off base t t' := by
  cases t
  cases t'
  cases ht
  cases ht'
  exact { h with nesting := hn }

end Inside

def entrySimulation (e : Entry) (off base : Nat) : Simulation where
  rel := Inside e off base
  lost _ := False
  closes := False
  ahead := True
  shift := off
  deep := base
  lost_mono _ _ h := h
  ahead_of_closes _ := trivial
  peek_eq h := h.peek_eq
  peekAhead_eq _ h := h.peekAhead_eq
  position_eq h := h.position
  braceDepth_eq h := h.deep
  nesting_eq h := h.nesting
  spanFrom_eq h start := h.spanFrom_eq start
  advance h hk := .inr (h.advance hk)
  record d h := h.of_cursor (toCursor_record d _) (toCursor_record d _) (by
    rw [(forward_record d _).nesting, (forward_record d _).nesting, h.nesting])
  recordSkipped start reason h := h.of_cursor (toCursor_recordSkipped _ _ _) (toCursor_recordSkipped _ _ _) (by
    rw [(forward_recordSkipped _ _ _).nesting, (forward_recordSkipped _ _ _).nesting, h.nesting])
  note _ h := h.of_cursor rfl rfl h.nesting
  withNesting _ h := h.of_cursor rfl rfl rfl

/-- Raw text never counts more open brackets than there are: it begins with none, and takes a closing one for no
more than it is. -/
theorem bracketsAfter_le {κ : Kind} (hopen : κ ≠ .leftBrace) (hclose : κ ≠ .rightBrace) {depth : Nat} {total : Int}
    (h : (depth : Int) ≤ total) (htotal : 0 ≤ total + bracketWeight κ) :
    (bracketsAfter depth κ : Int) ≤ total + bracketWeight κ := by
  cases κ
  case leftBrace => exact absurd rfl hopen
  case rightBrace => exact absurd rfl hclose
  all_goals
    simp only [bracketsAfter, opensBracket, closesBracket, bracketWeight, Bool.false_eq_true, if_true, if_false]
      at htotal ⊢
    omega

theorem openBrackets_take_succ {l : List Token} {i : Nat} (hi : i < l.length) :
    openBrackets (l.take (i + 1)) = openBrackets (l.take i) + bracketWeight l[i].kind := by
  induction l generalizing i with
  | nil => cases hi
  | cons t l ih =>
      cases i with
      | zero => simp [openBrackets]
      | succ i =>
          have hstep := ih (Nat.lt_of_succ_lt_succ hi)
          rw [List.take_succ_cons, openBrackets, hstep, List.take_succ_cons, openBrackets, List.getElem_cons_succ,
            Int.add_assoc]

theorem rawRound_yield {stops : Kind → Bool} {a b : Array Token × Nat} {t : Parser}
    (h : rawRound stops a s = (.yield b, t)) : b.2 = bracketsAfter a.2 s.peek.kind ∧ t = (advance s).2 := by
  obtain ⟨taken, depth⟩ := a
  rw [rawRound, peekKind, look_bind_apply] at h
  split at h
  · cases h
  · cases h
    exact ⟨rfl, rfl⟩

def openBefore (e : Entry) (s : Parser) : Int := openBrackets (e.inner.take (s.position - 1))

theorem invariant_rawRound (e : Entry) (off base : Nat) :
    Invariant (entrySimulation e off base) (rawRound endsColumn) fun a s => (a.2 : Int) ≤ openBefore e s := by
  refine ⟨?_⟩
  intro a b s s' t t' hs ht hround hle
  have hs : Inside e off base s s' := hs
  have ht : Inside e off base t t' := ht
  obtain ⟨hdepth, rfl⟩ := rawRound_yield hround
  have hposition : (advance s).2.position = s.position + 1 := Cursor.position_next hs.atEnd.1
  have hopened := hs.opened
  have hinside := ht.inside
  rw [hposition, e.length_tokens] at hinside
  have hk : s.peek.kind ≠ .rightBrace := by
    intro hbrace
    have := (hs.kind_eq_rightBrace hopened hs.inside).1 hbrace
    omega
  obtain ⟨hi, hpeek⟩ := hs.peek_eq_inner hk
  have hkinds := e.kind_inner _ (List.getElem_mem hi)
  have hsucc := openBrackets_take_succ hi
  rw [Nat.sub_add_cancel hopened, ← hpeek] at hsucc
  show (b.2 : Int) ≤ openBefore e (advance s).2
  rw [hdepth, openBefore, hposition, Nat.add_sub_cancel, hsucc]
  rw [← hpeek] at hkinds
  apply bracketsAfter_le hkinds.1 hkinds.2 hle
  rw [openBefore, ← hsucc]
  exact e.openBrackets_nonneg _

theorem contained_entrySimulation (e : Entry) (off base : Nat) : (entrySimulation e off base).Contained := by
  refine ⟨?_, ?_, trivial⟩
  · intro k
    have hround : ∀ a, Agree (entrySimulation e off base) (fun s => Below k s ∧ (a.2 : Int) ≤ openBefore e s) Yields
        (rawRound endsColumn a) (rawRound endsColumn a) := by
      intro a
      apply (agree_rawRound endsColumn a).of_related
      rintro s s' hs ⟨hk, hle⟩
      have hs : Inside e off base s s' := hs
      refine ⟨hk, ?_⟩
      intro hopen hbrace
      have hlast := (hs.kind_eq_rightBrace hs.opened hs.inside).1 hbrace
      rw [openBefore, hlast, Nat.add_sub_cancel, List.take_length, e.openBrackets_eq_zero] at hle
      rcases hopen with hopen | hopen
      · omega
      · exact absurd rfl hopen
    have hloop := Agree.loop_of hround (invariant_rawRound e off base) (#[], 0)
    refine Agree.bind (hloop.mono ?_ fun _ h => h) fun _ => Agree.pure id
    intro s hs
    exact ⟨hs, e.openBrackets_nonneg _⟩
  · intro s s' t t' hs ht hlt
    have hs : Inside e off base s s' := hs
    have ht : Inside e off base t t' := ht
    rw [hs.braceDepth, ht.braceDepth] at hlt
    exact absurd hlt (Nat.lt_irrefl 1)

theorem peek_ne_semicolon {l : List Token} (h : ∀ x ∈ l.head?, x.kind ≠ .semicolon) (hs : ahead s = l) :
    s.peek.kind ≠ .semicolon := by
  cases l with
  | nil =>
      rw [ahead_eq_nil_iff, ← Cursor.kind_peek_eq_eof] at hs
      rw [hs]
      nofun
  | cons x l =>
      rw [peek_of_ahead hs]
      exact h x rfl

def aloneWith (preferences : ParserPreferences) (e : Entry) : Parser := .ofTokens e.tokens.toArray preferences

theorem tokens_aloneWith {more : List Token} (hahead : ahead s = e.tokens ++ more)
    (preferences : ParserPreferences) : (aloneWith preferences e).tokens = e.tokens.toArray := by
  refine Array.filter_eq_self.2 fun x hx => decide_eq_true ?_
  apply kind_of_mem_ahead (s := s)
  rw [hahead]
  exact List.mem_append_left more (List.mem_toArray.1 hx)

theorem ahead_aloneWith {more : List Token} (hahead : ahead s = e.tokens ++ more)
    (preferences : ParserPreferences) : ahead (aloneWith preferences e) = e.tokens ++ [] := by
  rw [ahead, tokens_aloneWith hahead, List.append_nil]
  rfl

theorem kind_peek_of_ahead {more : List Token} (hahead : ahead s = e.tokens ++ more) : s.peek.kind = .leftBrace :=
  (congrArg Token.kind (peek_of_ahead hahead)).trans e.kind_opening

theorem not_atEnd_of_ahead {more : List Token} (hahead : ahead s = e.tokens ++ more) : s.atEnd = false := by
  rw [← Bool.not_eq_true, ← ahead_eq_nil_iff, hahead]
  nofun

theorem inside_start {more : List Token} (hahead : ahead s = e.tokens ++ more) (hnesting : s.nesting = 0)
    (preferences : ParserPreferences) :
    Inside e s.position s.braceDepth (advance (aloneWith preferences e)).2 (advance s).2 := by
  have htokens := tokens_aloneWith hahead preferences
  have halone := ahead_aloneWith hahead preferences
  have hend := not_atEnd_of_ahead halone
  have hend' := not_atEnd_of_ahead hahead
  have hposition : (advance (aloneWith preferences e)).2.position = 0 + 1 := Cursor.position_next hend
  have hposition' : (advance s).2.position = s.position + 1 := Cursor.position_next hend'
  have hdepth : (advance (aloneWith preferences e)).2.braceDepth = _ := Cursor.braceDepth_next hend
  have hdepth' : (advance s).2.braceDepth = _ := Cursor.braceDepth_next hend'
  rw [kind_peek_of_ahead halone] at hdepth
  rw [kind_peek_of_ahead hahead] at hdepth'
  refine ⟨(forward_advance _).tokens.trans htokens, ?_, ?_, ?_, ?_, hdepth, ?_, hnesting⟩
  · intro i hi
    have hget := tokenAt_of_ahead halone hi
    rw [tokenAt_advance, tokenAt_advance, tokenAt_of_ahead hahead hi, ← hget]
    rfl
  · rw [hposition]
    exact Nat.one_pos
  · rw [hposition, e.length_tokens]
    omega
  · rw [hposition, hposition', Nat.add_right_comm, Nat.zero_add]
  · rw [hdepth, hdepth']
    exact Nat.add_comm s.braceDepth 1

/-- Passing the closing brace in both runs. -/
theorem behind_closing {u v : Parser} (h : Inside e s.position s.braceDepth u v) (hclose : u.peek.kind = .rightBrace)
    (htokens : v.tokens = s.tokens) {more : List Token} (hahead : ahead s = e.tokens ++ more) :
    (advance v).2.spanFrom s.position = (advance u).2.spanFrom 0 ∧ ahead (advance v).2 = more ∧
      (advance v).2.braceDepth = s.braceDepth := by
  have hlast := (h.kind_eq_rightBrace h.opened h.inside).1 hclose
  have hlength := e.length_tokens
  have hposition : (advance u).2.position = u.position + 1 := Cursor.position_next h.atEnd.1
  have hposition' : (advance v).2.position = v.position + 1 := Cursor.position_next h.atEnd.2
  have hdepth : (advance v).2.braceDepth = _ := Cursor.braceDepth_next h.atEnd.2
  have hsum := h.position
  refine ⟨?_, ?_, ?_⟩
  · have hwindow : ∀ i < e.tokens.length, (advance v).2.tokenAt (i + s.position) = (advance u).2.tokenAt i := by
      intro i hi
      rw [tokenAt_advance, tokenAt_advance]
      exact h.window i hi
    have hspan := spanFrom_of_window hwindow (by omega) (by omega) (i := 0) (by omega)
    rwa [Nat.zero_add] at hspan
  · rw [ahead, (forward_advance v).tokens, htokens, show (advance v).2.position = s.position + e.tokens.length by omega,
      ← List.drop_drop, ← ahead, hahead, List.drop_left]
  · rw [hdepth, h.deep, h.braceDepth, h.peek_eq, hclose]
    exact Nat.add_sub_cancel_left 1 s.braceDepth

section

variable {contents : Rule (Text.Span → α)} {value : Text.Span → α} {v : Parser}

theorem braced_of_error (hopen : s.peek.kind = .leftBrace) {fault : Fault}
    (h : contents (advance s).2 = (.error fault, v)) : braced contents s = (.error fault, v) := by
  show attempt (braced contents) s = _
  rw [braced, attempt_liftM_bind, here, look_bind_apply, attempt_bind_of_ok (expect_of_kind hopen),
    attempt_bind_of_error h]

theorem braced_of_missing (hopen : s.peek.kind = .leftBrace) (h : contents (advance s).2 = (.ok value, v))
    (hclose : v.peek.kind ≠ .rightBrace) :
    braced contents s = (.error (.expected Kind.rightBrace.describe v.peek), v) := by
  have hexpect : expect .rightBrace v = (.error (.expected Kind.rightBrace.describe v.peek), v) := by
    rw [expect_apply, if_neg hclose]
  show attempt (braced contents) s = _
  rw [braced, attempt_liftM_bind, here, look_bind_apply, attempt_bind_of_ok (expect_of_kind hopen),
    attempt_bind_of_ok h, attempt_bind_of_error hexpect]

theorem braced_of_ok (hopen : s.peek.kind = .leftBrace) (h : contents (advance s).2 = (.ok value, v))
    (hclose : v.peek.kind = .rightBrace) :
    braced contents s = (.ok (value ((advance v).2.spanFrom s.position)), (advance v).2) := by
  show attempt (braced contents) s = _
  rw [braced, attempt_liftM_bind, here, look_bind_apply, attempt_bind_of_ok (expect_of_kind hopen),
    attempt_bind_of_ok h, attempt_bind_of_ok (expect_of_kind hclose)]
  rfl

/-- What stands between braces has the same outcome in its place as alone. In its place the run is then behind the
entry, or with a fault before its closing brace. -/
theorem braced_in_place (hcontents : ∀ k, RuleAgree (entrySimulation e s.position s.braceDepth) (Below k) Never
      contents contents) {more : List Token} (hahead : ahead s = e.tokens ++ more) (hnesting : s.nesting = 0)
    (preferences : ParserPreferences) :
    (braced contents s).1 = (braced contents (aloneWith preferences e)).1 ∧
      match (braced contents s).1 with
      | .ok _ => ahead (braced contents s).2 = more ∧ (braced contents s).2.braceDepth = s.braceDepth
      | .error _ => ∃ u, Inside e s.position s.braceDepth u (braced contents s).2 := by
  have hstart := inside_start hahead hnesting preferences
  have hopen := kind_peek_of_ahead hahead
  have hopen' := kind_peek_of_ahead (ahead_aloneWith hahead preferences)
  have hforward : Forward s (contents (advance s).2).2 :=
    (forward_advance s).trans ((hcontents 0).steady (advance s).2)
  have hrun : Alike (entrySimulation e s.position s.braceDepth) (okAnd Never) (advance (aloneWith preferences e)).2
      (advance s).2 (contents (advance (aloneWith preferences e)).2) (contents (advance s).2) :=
    (hcontents _).alike hstart (Nat.lt_succ_self _)
  rcases halone : contents (advance (aloneWith preferences e)).2 with ⟨result, u⟩
  rcases hplace : contents (advance s).2 with ⟨result', v⟩
  rw [halone, hplace] at hrun
  rw [hplace] at hforward
  rcases hrun with hlost | ⟨-, -, hresult, hrel⟩
  · exact hlost.elim
  · obtain rfl : result = result' := hresult
    have hrel : Inside e s.position s.braceDepth u v := hrel
    cases result with
    | error fault =>
        rw [braced_of_error hopen hplace, braced_of_error hopen' halone]
        exact ⟨rfl, u, hrel⟩
    | ok value =>
        by_cases hclose : u.peek.kind = .rightBrace
        · have hclose' : v.peek.kind = .rightBrace := hrel.peek_eq.symm ▸ hclose
          obtain ⟨hspan, hbehind, hdepth⟩ := behind_closing hrel hclose hforward.tokens hahead
          rw [braced_of_ok hopen hplace hclose', braced_of_ok hopen' halone hclose, hspan]
          exact ⟨rfl, hbehind, hdepth⟩
        · have hclose' : v.peek.kind ≠ .rightBrace := hrel.peek_eq.symm ▸ hclose
          rw [braced_of_missing hopen hplace hclose', braced_of_missing hopen' halone hclose, hrel.peek_eq]
          exact ⟨rfl, u, hrel⟩

end

theorem skipItemRound_of_inner {recovery : List Kind} (heof : s.peek.kind ≠ .eof) (hclose : s.peek.kind ≠ .rightBrace)
    (hdepth : s.braceDepth = base + 1) : skipItemRound base recovery () s = (.yield (), (advance s).2) := by
  have hopened : ¬ (s.braceDepth - base = 0 ∧ s.peek.kind ∈ recovery) := fun h => by omega
  rw [skipItemRound, peekKind, look_bind_apply, openBeyond, look_bind_apply, if_neg heof, if_neg hclose,
    if_neg hopened]
  rfl

theorem skipItemRound_of_closing {recovery : List Kind} (hclose : s.peek.kind = .rightBrace)
    (hdepth : s.braceDepth = base + 1) : skipItemRound base recovery () s = (.done (), (advance s).2) := by
  have hone : s.braceDepth - base = 1 := by omega
  rw [skipItemRound, peekKind, look_bind_apply, openBeyond, look_bind_apply, hclose, hone]
  rfl

/-- The rest of an entry is passed over, with its closing brace and nothing else. -/
theorem skipItem_spec (recovery : List Kind) {mid more : List Token} {closing : Token} {q : Parser}
    (hmid : ∀ x ∈ mid, x.kind ≠ .leftBrace ∧ x.kind ≠ .rightBrace) (hclosing : closing.kind = .rightBrace)
    (hahead : ahead q = mid ++ closing :: more) (hdepth : q.braceDepth = base + 1) :
    ahead (skipItem base recovery q).2 = more ∧ (skipItem base recovery q).2.braceDepth = base := by
  have hunroll := (grammarLoop_progresses (.skipItem base recovery)).unrolls
  rw [skipItem]
  induction mid generalizing q with
  | nil =>
      have hpeek : q.peek.kind = .rightBrace := (congrArg Token.kind (peek_of_ahead hahead)).trans hclosing
      have hend : q.atEnd = false := by
        rw [← Bool.not_eq_true, ← Cursor.kind_peek_eq_eof, hpeek]
        nofun
      have hnext : (advance q).2.braceDepth = _ := Cursor.braceDepth_next hend
      rw [hunroll, skipItemRound_of_closing hpeek hdepth]
      refine ⟨ahead_advance hahead, ?_⟩
      rw [hnext, hpeek, hdepth]
      rfl
  | cons x mid ih =>
      have hpeek : q.peek = x := peek_of_ahead hahead
      have hkinds := hmid x (List.mem_cons_self ..)
      have heof : q.peek.kind ≠ .eof := by
        rw [hpeek]
        apply kind_of_mem_ahead (s := q)
        rw [hahead]
        exact List.mem_cons_self ..
      have hend : q.atEnd = false := by
        rwa [Ne, Cursor.kind_peek_eq_eof, Bool.not_eq_true] at heof
      have hnext : (advance q).2.braceDepth = _ := Cursor.braceDepth_next hend
      rw [← hpeek] at hkinds
      rw [depthAfter_of_ne hkinds.1 hkinds.2, hdepth] at hnext
      rw [hunroll, skipItemRound_of_inner heof hkinds.2 hdepth]
      exact ih (fun y hy => hmid y (List.mem_cons_of_mem x hy)) (ahead_advance hahead) hnext

theorem ahead_of_inside {u v : Parser} (h : Inside e s.position s.braceDepth u v) (htokens : v.tokens = s.tokens)
    {more : List Token} (hahead : ahead s = e.tokens ++ more) :
    ahead v = e.inner.drop (u.position - 1) ++ e.closing :: more := by
  have hopened := h.opened
  have hinside := h.inside
  have hlength := e.length_tokens
  rw [ahead, htokens, h.position, Nat.add_comm, ← List.drop_drop, ← ahead, hahead,
    List.drop_append_of_le_length (Nat.le_of_lt hinside)]
  obtain ⟨j, hj⟩ : ∃ j, u.position = j + 1 := ⟨u.position - 1, by omega⟩
  rw [hj, Nat.add_sub_cancel, Entry.tokens, List.drop_succ_cons, List.drop_append_of_le_length (by omega),
    List.append_assoc]
  rfl

/-- A failed entry leaves the search for the next one right behind its closing brace. -/
theorem recoverItem_spec {u v : Parser} (h : Inside e s.position s.braceDepth u v) (htokens : v.tokens = s.tokens)
    {more : List Token} (hahead : ahead s = e.tokens ++ more) (hmore : ∀ x ∈ more.head?, x.kind ≠ .semicolon)
    (recovery : List Kind) :
    ahead (recoverItem s.braceDepth s.position recovery v).2 = more ∧
      (recoverItem s.braceDepth s.position recovery v).2.braceDepth = s.braceDepth := by
  have hopened := h.opened
  have hsum := h.position
  have hdepth : v.braceDepth = s.braceDepth + 1 := by rw [h.deep, h.braceDepth, Nat.add_comm]
  obtain ⟨hbehind, hbase⟩ := skipItem_spec recovery
    (fun x hx => e.kind_inner x (List.mem_of_mem_drop hx)) e.kind_closing (ahead_of_inside h htokens hahead) hdepth
  have hpassed := (steady_skipItem s.braceDepth recovery v).position
  rw [recoverItem_apply]
  generalize (skipItem s.braceDepth recovery v).2 = r at hbehind hbase hpassed ⊢
  have hstay : ¬ (r.position - s.position = 0 ∧ r.peek.kind ≠ .eof ∧ r.peek.kind ≠ .rightBrace) := fun h => by omega
  have hcursor : (recordSkipped v.position "error recovery"
      (forceProgress s.position (accept .semicolon r).2).2).2.toCursor = r.toCursor := by
    rw [toCursor_recordSkipped, accept_apply, if_neg (peek_ne_semicolon hmore hbehind), forceProgress_apply,
      if_neg hstay]
  rw [ahead_of_cursor hcursor, hcursor]
  exact ⟨hbehind, hbase⟩

structure ReadsBraced (item : Rule α) (contents : Rule (Text.Span → α)) : Prop where
  result (s : Parser) : (item s).1 = (braced contents s).1
  cursor (s : Parser) : (item s).2.toCursor = (braced contents s).2.toCursor
  agree (R : Simulation) (k : Nat) : R.Contained → RuleAgree R (Below k) Never contents contents
  steady : Steady (attempt item)

variable {item : Rule α} {contents : Rule (Text.Span → α)}

def alone (item : Rule α) (preferences : ParserPreferences) (e : Entry) : Option α :=
  (item (aloneWith preferences e)).1.toOption

theorem withRecovery_in_place (h : ReadsBraced item contents) {more : List Token}
    (hahead : ahead s = e.tokens ++ more) (hmore : ∀ x ∈ more.head?, x.kind ≠ .semicolon) (hnesting : s.nesting = 0)
    (preferences : ParserPreferences) (recovery : List Kind) :
    (withRecovery recovery item s).1 = alone item preferences e ∧ ahead (withRecovery recovery item s).2 = more ∧
      (withRecovery recovery item s).2.braceDepth = s.braceDepth ∧ Forward s (withRecovery recovery item s).2 := by
  have hcontents := fun k => h.agree _ k (contained_entrySimulation e s.position s.braceDepth)
  obtain ⟨hsame, hend⟩ := braced_in_place hcontents hahead hnesting preferences
  have hforward : Forward s (item s).2 := h.steady s
  have hbraced : Forward s (braced contents s).2 :=
    (agree_braced (R := .same) (k := 0) trivial (h.agree _ 0 contained_same)).steady s
  have hresult := h.result s
  have hcursor := h.cursor s
  rw [alone, h.result, ← hsame]
  rw [← hresult] at hend ⊢
  rcases hr : item s with ⟨fault | a, t⟩
  · rw [hr] at hforward hcursor hend
    obtain ⟨u, hinside⟩ := hend
    have hreport : Forward s (report fault t).2 := hforward.trans (forward_record _ t)
    have hinside' : Inside e s.position s.braceDepth u (report fault t).2 :=
      hinside.of_cursor rfl ((toCursor_record _ t).trans hcursor)
        (hreport.nesting.trans (hbraced.nesting.symm.trans hinside.nesting))
    obtain ⟨hbehind, hdepth⟩ := recoverItem_spec hinside' hreport.tokens hahead hmore recovery
    rw [withRecovery_of_error hr]
    dsimp only
    have hrecover := steady_recoverItem s.braceDepth s.position recovery (report fault t).2
    exact ⟨rfl, hbehind, hdepth, hreport.trans hrecover⟩
  · rw [hr] at hforward hcursor hend
    rw [withRecovery_of_ok hr]
    refine ⟨rfl, (ahead_of_cursor hcursor).trans hend.1, ?_, hforward⟩
    rw [hcursor]
    exact hend.2

theorem entryRound_of_open (hopen : s.peek.kind = .leftBrace) (found : Array α) :
    entryRound item found s =
      (.yield (match (withRecovery [.leftBrace] item s).1 with
        | some a => found.push a
        | none => found), (withRecovery [.leftBrace] item s).2) := by
  rw [entryRound, peekKind, look_bind_apply, hopen, if_neg (by decide), if_pos rfl, bind_apply]
  cases (withRecovery [.leftBrace] item s).1 <;> rfl

theorem entryRound_of_close (hclose : s.peek.kind = .rightBrace) (found : Array α) :
    entryRound item found s = (.done found, s) := by
  rw [entryRound, peekKind, look_bind_apply, hclose, if_pos (by decide)]
  rfl

theorem head_of_entries {entries : List Entry} {closing : Token} (hclosing : closing.kind = .rightBrace)
    (post : List Token) : ∀ x ∈ (entries.flatMap Entry.tokens ++ closing :: post).head?, x.kind ≠ .semicolon := by
  intro x hx
  cases entries with
  | nil =>
      obtain rfl : closing = x := Option.some.inj hx
      rw [hclosing]
      nofun
  | cons e entries =>
      obtain rfl : e.opening = x := Option.some.inj hx
      rw [e.kind_opening]
      nofun

/-- Entries one after the other: each is what it is alone. -/
theorem entries_in_place (h : ReadsBraced item contents) (hround : Progresses (entryRound item))
    (preferences : ParserPreferences) {entries : List Entry} {closing : Token} {post : List Token}
    (hclosing : closing.kind = .rightBrace) (found : Array α)
    (hahead : ahead s = entries.flatMap Entry.tokens ++ closing :: post) (hnesting : s.nesting = 0) :
    (loop found (entryRound item) s).1 = found ++ (entries.filterMap (alone item preferences)).toArray ∧
      ahead (loop found (entryRound item) s).2 = closing :: post ∧
      (loop found (entryRound item) s).2.braceDepth = s.braceDepth ∧ Forward s (loop found (entryRound item) s).2 := by
  induction entries generalizing s found with
  | nil =>
      have hclose : s.peek.kind = .rightBrace := (congrArg Token.kind (peek_of_ahead hahead)).trans hclosing
      rw [hround.unrolls, entryRound_of_close hclose]
      refine ⟨?_, hahead, rfl, Forward.refl s⟩
      rw [List.filterMap_nil, Array.append_empty]
  | cons e entries ih =>
      rw [List.flatMap_cons, List.append_assoc] at hahead
      obtain ⟨hresult, hbehind, hdepth, hforward⟩ :=
        withRecovery_in_place h hahead (head_of_entries hclosing post) hnesting preferences [.leftBrace]
      rw [hround.unrolls, entryRound_of_open (kind_peek_of_ahead hahead), hresult]
      obtain ⟨hfound, hend, hdepth', hforward'⟩ := ih _ hbehind (hforward.nesting.trans hnesting)
      refine ⟨?_, hend, hdepth'.trans hdepth, hforward.trans hforward'⟩
      rw [hfound, List.filterMap_cons]
      cases alone item preferences e with
      | none => rfl
      | some a =>
          dsimp only
          rw [List.toArray_cons, ← Array.append_assoc, Array.push_eq_append]

/-- A section with entries, from its keyword to its closing brace. -/
structure EntrySection (keyword : Keyword) where
  heading : Token
  opening : Token
  entries : List Entry
  closing : Token
  kind_heading : heading.kind = .keyword keyword
  kind_opening : opening.kind = .leftBrace
  kind_closing : closing.kind = .rightBrace

def EntrySection.tokens {keyword : Keyword} (sec : EntrySection keyword) : List Token :=
  sec.heading :: sec.opening :: (sec.entries.flatMap Entry.tokens ++ [sec.closing])

/-- Right behind a section that began where `s` stands, with the same braces open and on no level. -/
structure Behind {keyword : Keyword} (sec : EntrySection keyword) (s t : Parser) : Prop where
  tokens : t.tokens = s.tokens
  position : t.position = s.position + sec.tokens.length
  braceDepth : t.braceDepth = s.braceDepth
  nesting : t.nesting = 0

theorem position_of_ahead {t : Parser} {l more : List Token} (hs : ahead s = l ++ more) (ht : ahead t = more)
    (htokens : t.tokens = s.tokens) : t.position = s.position + l.length := by
  have hlength := length_ahead s
  have hlength' := length_ahead t
  have hle := s.position_le
  have hle' := t.position_le
  rw [hs, List.length_append, Cursor.left] at hlength
  rw [ht, Cursor.left, htokens] at hlength'
  rw [htokens] at hle'
  omega

theorem bracedEntries_apply (item : Rule α) (s : Parser) :
    bracedEntries item s = ((loop #[] (entryRound item) s).1.toList, (loop #[] (entryRound item) s).2) := rfl

theorem bracedSection_in_place {keyword : Keyword} (h : ReadsBraced item contents)
    (hround : Progresses (entryRound item)) (preferences : ParserPreferences) (sec : EntrySection keyword)
    {post : List Token} (hahead : ahead s = sec.tokens ++ post) (hnesting : s.nesting = 0) :
    ∃ t, bracedSection keyword item s = (.ok (sec.entries.filterMap (alone item preferences)), t) ∧ Behind sec s t := by
  have hahead₀ : ahead s =
      sec.heading :: sec.opening :: (sec.entries.flatMap Entry.tokens ++ sec.closing :: post) := by
    rw [hahead, EntrySection.tokens, List.cons_append, List.cons_append, List.append_assoc]
    rfl
  have hahead₁ := ahead_advance hahead₀
  have hheading := (congrArg Token.kind (peek_of_ahead hahead₀)).trans sec.kind_heading
  have hopening := (congrArg Token.kind (peek_of_ahead hahead₁)).trans sec.kind_opening
  obtain ⟨hfound, hahead₃, hdepth, hforward⟩ :=
    entries_in_place h hround preferences sec.kind_closing #[] (ahead_advance hahead₁) hnesting
  have hentries := bracedEntries_apply item (advance (advance s).2).2
  generalize loop #[] (entryRound item) (advance (advance s).2).2 = run at hfound hahead₃ hdepth hforward hentries
  have hclosing := (congrArg Token.kind (peek_of_ahead hahead₃)).trans sec.kind_closing
  have hforward' : Forward s (advance run.2).2 :=
    (((forward_advance s).trans (forward_advance _)).trans hforward).trans (forward_advance run.2)
  refine ⟨(advance run.2).2, ?_, hforward'.tokens, ?_, ?_, hforward'.nesting.trans hnesting⟩
  · show attempt (bracedSection keyword item) s = _
    rw [bracedSection, attempt_bind_of_ok (expect_of_kind hheading), attempt_bind_of_ok (expect_of_kind hopening),
      attempt_liftM_bind, bind_apply, hentries, attempt_bind_of_ok (expect_of_kind hclosing), hfound,
      Array.empty_append]
    rfl
  · exact position_of_ahead hahead (ahead_advance hahead₃) hforward'.tokens
  · rw [braceDepth_advance hahead₃, hclosing, hdepth, braceDepth_advance hahead₁, hopening, braceDepth_advance hahead₀,
      hheading]
    rfl

theorem readsBraced_field : ReadsBraced field fieldColumns where
  result s := by
    show (attempt field s).1 = _
    rcases hs : braced fieldColumns s with ⟨fault | f, t⟩
    · rw [field, attempt_bind_of_error hs]
    · rw [field, attempt_bind_of_ok hs]
      rfl
  cursor s := by
    show (attempt field s).2.toCursor = _
    rcases hs : braced fieldColumns s with ⟨fault | f, t⟩
    · rw [field, attempt_bind_of_error hs]
    · rw [field, attempt_bind_of_ok hs]
      rfl
  agree _ _ := agree_fieldColumns
  steady := (agree_field (R := .same) (k := 0) trivial).steady

theorem readsBraced_key : ReadsBraced key keyColumns where
  result _ := rfl
  cursor _ := rfl
  agree _ _ := agree_keyColumns
  steady := (agree_key (R := .same) (k := 0) trivial).steady

theorem readsBraced_fieldGroup : ReadsBraced fieldGroup fieldGroupColumns where
  result _ := rfl
  cursor _ := rfl
  agree _ _ := agree_fieldGroupColumns
  steady := (agree_fieldGroup (R := .same) (k := 0) trivial).steady

/-- From any state outside all levels, a section of fields, keys or field groups is read to its end, and to exactly
what its entries are when each is read alone. So no entry, however malformed, changes, drops or merges another. -/
theorem entry_locality (s : Parser) (hnesting : s.nesting = 0) (preferences : ParserPreferences) (post : List Token) :
    (∀ sec : EntrySection .fields, ahead s = sec.tokens ++ post →
      ∃ t, bracedSection .fields field s = (.ok (sec.entries.filterMap (alone field preferences)), t) ∧
        Behind sec s t) ∧
    (∀ sec : EntrySection .keys, ahead s = sec.tokens ++ post →
      ∃ t, bracedSection .keys key s = (.ok (sec.entries.filterMap (alone key preferences)), t) ∧ Behind sec s t) ∧
    ∀ sec : EntrySection .fieldGroups, ahead s = sec.tokens ++ post →
      ∃ t, bracedSection .fieldGroups fieldGroup s =
        (.ok (sec.entries.filterMap (alone fieldGroup preferences)), t) ∧ Behind sec s t := by
  refine ⟨fun sec hahead => ?_, fun sec hahead => ?_, fun sec hahead => ?_⟩
  · exact bracedSection_in_place readsBraced_field (grammarLoop_progresses .fields) preferences sec hahead hnesting
  · exact bracedSection_in_place readsBraced_key (grammarLoop_progresses .keys) preferences sec hahead hnesting
  · exact bracedSection_in_place readsBraced_fieldGroup (grammarLoop_progresses .fieldGroups) preferences sec hahead
      hnesting

def malformedEntry : Entry where
  opening := ⟨.leftBrace, "\x7b", .origin⟩
  inner := [⟨.leftParen, "(", .origin⟩, ⟨.rightParen, ")", .origin⟩, ⟨.semicolon, ";", .origin⟩]
  closing := ⟨.rightBrace, "\x7d", .origin⟩
  kind_opening := rfl
  kind_closing := rfl
  kind_inner := by decide
  openBrackets_nonneg := openBrackets_take_nonneg (by decide)
  openBrackets_eq_zero := by decide

/-- `{1;;A;Integer}`. -/
def integerEntry : Entry where
  opening := ⟨.leftBrace, "\x7b", .origin⟩
  inner := [⟨.integer, "1", .origin⟩, ⟨.semicolon, ";", .origin⟩, ⟨.semicolon, ";", .origin⟩,
    ⟨.identifier, "A", .origin⟩, ⟨.semicolon, ";", .origin⟩, ⟨.identifier, "Integer", .origin⟩]
  closing := ⟨.rightBrace, "\x7d", .origin⟩
  kind_opening := rfl
  kind_closing := rfl
  kind_inner := by decide
  openBrackets_nonneg := openBrackets_take_nonneg (by decide)
  openBrackets_eq_zero := by decide

def mixedFields : EntrySection .fields where
  heading := ⟨.keyword .fields, "FIELDS", .origin⟩
  opening := ⟨.leftBrace, "\x7b", .origin⟩
  entries := [malformedEntry, integerEntry]
  closing := ⟨.rightBrace, "\x7d", .origin⟩
  kind_heading := rfl
  kind_opening := rfl
  kind_closing := rfl

theorem entry_locality_mixed :
    (bracedSection .fields field (.ofTokens mixedFields.tokens.toArray {})).1.toOption.map (·.map Field.name) =
        some ["A"] ∧
      (bracedSection .fields field (.ofTokens mixedFields.tokens.toArray {})).2.position = 16 := by
  obtain ⟨t, hread, hbehind⟩ :=
    (entry_locality (.ofTokens mixedFields.tokens.toArray {}) rfl {} []).1 mixedFields rfl
  rw [hread]
  exact ⟨rfl, hbehind.position⟩

end Rule

end CalExport
