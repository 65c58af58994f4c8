import CalExport.Proofs.Termination

namespace CalExport.Rule

variable {t u : Array Token} {s s' : Parser}

def skippedSince (start : Nat) (reason : String) (s : Parser) : Array SkippedRegion :=
  if start < s.position ∧ s.preferences.recordSkipped = true then
    s.skipped.push ⟨s.spanFrom start, reason, s.position - start, joinTokens (s.tokensBetween start s.position)⟩
  else s.skipped

theorem recordSkipped_snd (start : Nat) (reason : String) (s : Parser) :
    ∃ events, (recordSkipped start reason s).2 = { s with skipped := skippedSince start reason s, events } := by
  unfold recordSkipped skippedSince
  by_cases hle : s.position ≤ start
  · rw [if_pos hle, if_neg (by omega)]
    exact ⟨s.events, rfl⟩
  · rw [if_neg hle]
    dsimp only
    cases hlog : s.preferences.logRecovery <;> cases hkeep : s.preferences.recordSkipped
    all_goals simp only [hkeep, Nat.lt_of_not_le hle, Bool.false_eq_true, if_false, if_true, true_and, and_false]
    all_goals exact ⟨_, rfl⟩

structure Extends (t u : Array Token) (s s' : Parser) : Prop where
  tokens : s.tokens = t
  longer : s'.tokens = t ++ u
  inside : s.position < t.size
  position : s'.position = s.position
  braceDepth : s'.braceDepth = s.braceDepth
  nesting : s'.nesting = s.nesting
  diagnostics : s'.diagnostics = s.diagnostics
  capped : s'.capped = s.capped
  skipped : s'.skipped = s.skipped
  preferences : s'.preferences = s.preferences

namespace Extends

theorem tokenAt_eq (h : Extends t u s s') {i : Nat} (hi : i < t.size) : s'.tokenAt i = s.tokenAt i := by
  rw [Cursor.tokenAt, Cursor.tokenAt, h.tokens, h.longer, Array.getElem?_append_left hi,
    Array.getElem?_eq_getElem hi, Option.getD_some, Option.getD_some]

theorem peek_eq (h : Extends t u s s') : s'.peek = s.peek := by
  rw [Cursor.peek, Cursor.peek, h.position, h.tokenAt_eq h.inside]

theorem spanFrom_eq (h : Extends t u s s') (start : Nat) : s'.spanFrom start = s.spanFrom start := by
  have hinside := h.inside
  unfold Cursor.spanFrom Cursor.previous
  rw [h.position, h.peek_eq]
  by_cases hle : s.position ≤ start
  · rw [if_pos hle, if_pos hle]
  · have hfirst : s'.tokenAt start = s.tokenAt start := h.tokenAt_eq (by omega)
    have hlast : s'.tokenAt (s.position - 1) = s.tokenAt (s.position - 1) := h.tokenAt_eq (by omega)
    rw [hfirst, hlast]

theorem tokensBetween_eq (h : Extends t u s s') (start : Nat) {stop : Nat} (hstop : stop ≤ t.size) :
    s'.tokensBetween start stop = s.tokensBetween start stop := by
  rw [Cursor.tokensBetween, Cursor.tokensBetween, h.tokens, h.longer, Array.extract_append,
    Nat.sub_eq_zero_of_le hstop, Array.extract_zero, Array.append_empty]

theorem atEnd (h : Extends t u s s') : s.atEnd = false ∧ s'.atEnd = false := by
  have hinside := h.inside
  refine ⟨?_, ?_⟩
  · simp only [Cursor.atEnd, h.tokens, decide_eq_false_iff_not]
    omega
  · simp only [Cursor.atEnd, h.longer, h.position, decide_eq_false_iff_not, Array.size_append]
    omega

theorem advance (h : Extends t u s s') :
    t.size ≤ (Rule.advance s).2.position ∨ Extends t u (Rule.advance s).2 (Rule.advance s').2 := by
  have hposition : (Rule.advance s).2.position = s.position + 1 := Cursor.position_next h.atEnd.1
  have hposition' : (Rule.advance s').2.position = s'.position + 1 := Cursor.position_next h.atEnd.2
  have hdepth : (Rule.advance s).2.braceDepth = _ := Cursor.braceDepth_next h.atEnd.1
  have hdepth' : (Rule.advance s').2.braceDepth = _ := Cursor.braceDepth_next h.atEnd.2
  by_cases hlast : t.size ≤ s.position + 1
  · exact .inl (hposition.symm ▸ hlast)
  · refine .inr ⟨?_, ?_, ?_, ?_, ?_, h.nesting, h.diagnostics, h.capped, h.skipped, h.preferences⟩
    · exact (forward_advance s).tokens.trans h.tokens
    · exact (forward_advance s').tokens.trans h.longer
    · omega
    · rw [hposition, hposition', h.position]
    · rw [hdepth, hdepth', h.braceDepth, h.peek_eq]

theorem record (d : Diagnostic) (h : Extends t u s s') : Extends t u (Rule.record d s).2 (Rule.record d s').2 := by
  unfold Rule.record
  rw [h.diagnostics, h.capped]
  split
  · exact { h with diagnostics := rfl, capped := rfl }
  · split
    · exact h
    · exact { h with diagnostics := rfl, capped := rfl }

theorem recordSkipped (start : Nat) (reason : String) (h : Extends t u s s') :
    Extends t u (Rule.recordSkipped start reason s).2 (Rule.recordSkipped start reason s').2 := by
  obtain ⟨events, heq⟩ := recordSkipped_snd start reason s
  obtain ⟨events', heq'⟩ := recordSkipped_snd start reason s'
  have hskipped : skippedSince start reason s' = skippedSince start reason s := by
    unfold skippedSince
    rw [h.position, h.preferences, h.skipped, h.spanFrom_eq, h.tokensBetween_eq start (Nat.le_of_lt h.inside)]
  rw [heq, heq']
  exact { h with skipped := hskipped }

end Extends

/-- A look ahead that meets no closing brace on its way stays inside `t`, which ends with one. -/
theorem peekAhead_of_extends {t u : Array Token} (hlast : ∀ x, t.back? = some x → x.kind = .rightBrace)
    {s s' : Parser} (h : Extends t u s s') (n : Nat) (hn : ∀ m < n, (s.peekAhead m).kind ≠ .rightBrace) :
    s'.peekAhead n = s.peekAhead n := by
  rw [Cursor.peekAhead, Cursor.peekAhead, h.position]
  apply h.tokenAt_eq
  apply Nat.lt_of_not_le
  intro hle
  have hinside := h.inside
  apply hn (t.size - 1 - s.position) (by omega)
  apply hlast
  rw [Array.back?_eq_getElem?, Cursor.peekAhead, Cursor.tokenAt, h.tokens,
    show s.position + (t.size - 1 - s.position) = t.size - 1 by omega, Array.getElem?_eq_getElem (by omega)]
  rfl

/-- Two runs over `t` and over `t ++ u`, where a closing brace ends `t`. The first one is lost behind it. -/
def extension (t u : Array Token) (hlast : ∀ x, t.back? = some x → x.kind = .rightBrace) : Simulation where
  rel := Extends t u
  lost s := s.tokens = t ∧ t.size ≤ s.position
  closes := True
  ahead := True
  shift := 0
  deep := 0
  lost_mono htokens hposition hlost := ⟨htokens.trans hlost.1, Nat.le_trans hlost.2 hposition⟩
  ahead_of_closes _ := trivial
  peek_eq h := h.peek_eq
  peekAhead_eq _ h := peekAhead_of_extends hlast h
  position_eq h := h.position
  braceDepth_eq h := h.braceDepth
  nesting_eq h := h.nesting
  spanFrom_eq h start := h.spanFrom_eq start
  advance h _ := h.advance.imp_left fun hlost => ⟨(forward_advance _).tokens.trans h.tokens, hlost⟩
  record d h := h.record d
  recordSkipped start reason h := h.recordSkipped start reason
  note _ h := { h with }
  withNesting _ h := { h with nesting := rfl }

theorem ne_empty_of_forward {s t : Parser} (h : Forward s t) (hs : 0 < s.diagnostics.size) : t.diagnostics ≠ #[] := by
  intro hempty
  have hle := h.diagnostics
  rw [hempty] at hle
  exact absurd (Nat.lt_of_lt_of_le hs hle) (Nat.not_lt_zero 0)

theorem closingBrace_apply (s : Parser) :
    closingBrace s = if s.peek.kind = .rightBrace then ((), (advance s).2)
      else report (.expected "'\x7d' closing the object" s.peek) s := by
  rw [closingBrace, bind_apply, accept_apply]
  split <;> rfl

theorem object_of_error {s v : Parser} {fault : Fault} (h : objectBody s = (.error fault, v)) :
    object s = (.error fault, v) := by
  show attempt object s = _
  rw [object, attempt_liftM_bind, here, look_bind_apply, attempt_bind_of_error h]

theorem object_of_ok {s v : Parser} {value : Text.Span → ExportObject} (h : objectBody s = (.ok value, v)) :
    object s = (.ok (value ((closingBrace v).2.spanFrom s.position)), (closingBrace v).2) := by
  show attempt object s = _
  rw [object, attempt_liftM_bind, here, look_bind_apply, attempt_bind_of_ok h]
  rfl

structure Closed (s v : Parser) (value : Text.Span → ExportObject) : Prop where
  body : objectBody s = (.ok value, v)
  brace : v.peek.kind = .rightBrace
  last : (advance v).2.atEnd = true
  diagnostics : v.diagnostics = #[]

theorem object_of_closed {s v : Parser} {value : Text.Span → ExportObject} (h : objectBody s = (.ok value, v))
    (hbrace : v.peek.kind = .rightBrace) :
    reportedObject s = (some (value ((advance v).2.spanFrom s.position)), (advance v).2) := by
  rw [reportedObject_apply, object_of_ok h, closingBrace_apply, if_pos hbrace]

theorem exists_closed {s : Parser} (hobject : (document s).1.object ≠ none) (hclean : (document s).2.diagnostics = #[]) :
    ∃ v value, Closed s v value := by
  cases hend : s.atEnd with
  | true =>
      rw [document_of_atEnd hend] at hobject
      exact absurd rfl hobject
  | false =>
      rw [document_apply hend] at hobject hclean
      rcases hbody : objectBody s with ⟨fault | value, v⟩
      · rw [reportedObject_apply, object_of_error hbody] at hobject
        exact absurd rfl hobject
      · by_cases hbrace : v.peek.kind = .rightBrace
        · rw [object_of_closed hbody hbrace] at hclean
          have hlast : (advance v).2.atEnd = true := by
            cases hlast : (advance v).2.atEnd with
            | true => rfl
            | false =>
                have hreport := diagnostics_record_ne (.ofFault (.expected "end of input" (advance v).2.peek))
                  (advance v).2
                have hle := (steady_skipAll (report (.expected "end of input" (advance v).2.peek) (advance v).2).2).trans
                  (forward_recordSkipped (advance v).2.position "trailing input" _)
                rw [skipTrailing_apply hlast] at hclean
                exact absurd hclean (ne_empty_of_forward hle hreport)
          rw [skipTrailing_of_atEnd hlast] at hclean
          exact ⟨v, value, hbody, hbrace, hlast, hclean⟩
        · have hreport := diagnostics_record_ne (.ofFault (.expected "'\x7d' closing the object" v.peek)) v
          rw [reportedObject_apply, object_of_ok hbody, closingBrace_apply, if_neg hbrace] at hclean
          exact absurd hclean (ne_empty_of_forward (steady_skipTrailing _) hreport)

theorem record_of_room {d : Diagnostic} (h : s.diagnostics.size < maxDiagnostics) :
    ∃ events, (record d s).2 = { s with diagnostics := s.diagnostics.push d, events } := by
  rw [record, if_pos h]
  exact ⟨_, rfl⟩

def trailingDiagnostic (x : Token) : Diagnostic :=
  .make .unexpectedToken ("Expected end of input, found " ++ x.description) x.span

theorem ofFault_trailing {x : Token} (hx : x.kind ≠ .eof) :
    Diagnostic.ofFault (.expected "end of input" x) = trailingDiagnostic x := by
  rw [Fault.expected, if_neg hx]
  rfl

def trailingRegion (u : Array Token) (hu : 0 < u.size) : SkippedRegion :=
  ⟨u[0].span.merge u[u.size - 1].span, "trailing input", u.size, joinTokens u.toList⟩

theorem tokenAt_append_right (ht : s.tokens = t ++ u) {i : Nat} (hi : i < u.size) : s.tokenAt (t.size + i) = u[i] := by
  rw [Cursor.tokenAt, ht, Array.getElem?_append_right (Nat.le_add_right _ _), Nat.add_sub_cancel_left,
    Array.getElem?_eq_getElem hi, Option.getD_some]

theorem region_eq_trailing (ht : s.tokens = t ++ u) (hp : s.position = t.size + u.size) (hu : 0 < u.size) :
    (⟨s.spanFrom t.size, "trailing input", s.position - t.size,
      joinTokens (s.tokensBetween t.size s.position)⟩ : SkippedRegion) = trailingRegion u hu := by
  have hfirst : s.tokenAt t.size = u[0] := tokenAt_append_right ht hu
  have hlast : s.tokenAt (t.size + u.size - 1) = u[u.size - 1] := by
    rw [Nat.add_sub_assoc hu]
    exact tokenAt_append_right ht (by omega)
  have hspan : s.spanFrom t.size = u[0].span.merge u[u.size - 1].span := by
    rw [Cursor.spanFrom, Cursor.previous, hp, if_neg (by omega), if_neg (by omega), hfirst, hlast]
  rw [hspan, Cursor.tokensBetween, ht, hp, Nat.add_sub_cancel_left, Array.extract_append_right,
    Array.extract_size]
  rfl

structure Moved (s t : Parser) : Prop where
  tokens : t.tokens = s.tokens
  diagnostics : t.diagnostics = s.diagnostics
  skipped : t.skipped = s.skipped
  preferences : t.preferences = s.preferences

theorem skipAll_spec (s : Parser) :
    Moved s (skipWhile (fun _ => true) s).2 ∧ (skipWhile (fun _ => true) s).2.atEnd = true := by
  have hstep : ∀ t, Moved s t → t.atEnd = false → true = true → Moved s (advance t).2 :=
    fun t ht _ _ => { ht with tokens := (forward_advance t).tokens.trans ht.tokens }
  obtain ⟨hmoved, hend⟩ := skipWhile_spec _ hstep (s := s) ⟨rfl, rfl, rfl, rfl⟩
  rcases hend with hend | hgo
  · exact ⟨hmoved, hend⟩
  · cases hgo

/-- All that is left is reported at its first token and kept as one stretch. -/
theorem skipTrailing_spec (ht : s.tokens = t ++ u) (hp : s.position = t.size) (hu : 0 < u.size)
    (hclean : s.diagnostics = #[]) :
    (skipTrailing s).2.diagnostics = #[trailingDiagnostic u[0]] ∧
      (skipTrailing s).2.skipped =
        if s.preferences.recordSkipped = true then s.skipped.push (trailingRegion u hu) else s.skipped := by
  have hpeek : s.peek = u[0] := by
    rw [Cursor.peek, hp]
    exact tokenAt_append_right ht hu
  have hend : s.atEnd = false := by
    rw [Cursor.atEnd, ht, hp, Array.size_append, decide_eq_false_iff_not]
    omega
  have hkind : u[0].kind ≠ .eof := by
    rw [← hpeek, Ne, Cursor.kind_peek_eq_eof, hend]
    exact Bool.false_ne_true
  obtain ⟨events, hreport⟩ := record_of_room (s := s) (d := .ofFault (.expected "end of input" s.peek))
    (by rw [hclean]; decide)
  obtain ⟨hmoved, hlast⟩ := skipAll_spec (report (.expected "end of input" s.peek) s).2
  rw [skipTrailing_apply hend]
  rw [report, hreport] at hmoved hlast ⊢
  generalize (skipWhile (fun _ => true) _).2 = w at hmoved hlast ⊢
  obtain ⟨events', hskip⟩ := recordSkipped_snd s.position "trailing input" w
  have htokens : w.tokens = t ++ u := hmoved.tokens.trans ht
  have hposition : w.position = t.size + u.size := by
    rw [Cursor.atEnd_iff.1 hlast, htokens, Array.size_append]
  have hregion : (⟨w.spanFrom t.size, "trailing input", w.position - t.size,
      joinTokens (w.tokensBetween t.size w.position)⟩ : SkippedRegion) = trailingRegion u hu :=
    region_eq_trailing htokens hposition hu
  rw [hskip]
  refine ⟨?_, ?_⟩
  · show w.diagnostics = _
    rw [hmoved.diagnostics, hclean, hpeek, ofFault_trailing hkind]
    rfl
  · show skippedSince s.position "trailing input" w = _
    rw [skippedSince, hp, hregion, hmoved.preferences, hmoved.skipped, hposition]
    by_cases hkeep : s.preferences.recordSkipped = true
    · rw [if_pos hkeep, if_pos ⟨by omega, hkeep⟩]
    · rw [if_neg hkeep, if_neg fun h => hkeep h.2]

theorem Closed.forward {v : Parser} {value : Text.Span → ExportObject} (h : Closed s v value) : Forward s v := by
  have hbody : Forward s (objectBody s).2 := (agree_objectBody (R := .same) (k := 0) trivial).steady s
  rwa [h.body] at hbody

theorem Closed.position {v : Parser} {value : Text.Span → ExportObject} (h : Closed s v value) :
    v.position + 1 = v.tokens.size := by
  have hend : v.atEnd = false := by
    rw [← Bool.not_eq_true, ← Cursor.kind_peek_eq_eof, h.brace]
    nofun
  have hposition : (advance v).2.position = v.position + 1 := Cursor.position_next hend
  rw [← hposition, Cursor.atEnd_iff.1 h.last, (forward_advance v).tokens]

theorem Closed.back_kind {v : Parser} {value : Text.Span → ExportObject} (h : Closed s v value)
    (ht : v.tokens = t) : ∀ x, t.back? = some x → x.kind = .rightBrace := by
  intro x hx
  have hposition := h.position
  have hbrace := h.brace
  rw [Cursor.peek, Cursor.tokenAt, show v.position = t.size - 1 by rw [← ht]; omega, ht,
    ← Array.back?_eq_getElem?, hx] at hbrace
  exact hbrace

/-- The object's span ends with the last token of the shorter input. -/
theorem spanFrom_advance {v v' : Parser} (h : Extends t u v v') (hp : v.position + 1 = t.size) {start : Nat}
    (hstart : start < t.size) : (advance v').2.spanFrom start = (advance v).2.spanFrom start := by
  have hposition : (advance v).2.position = v.position + 1 := Cursor.position_next h.atEnd.1
  have hposition' : (advance v').2.position = v.position + 1 :=
    (Cursor.position_next h.atEnd.2).trans (congrArg (· + 1) h.position)
  rw [Cursor.spanFrom, Cursor.spanFrom, Cursor.previous, Cursor.previous, hposition, hposition', if_neg (by omega),
    if_neg (by omega), if_neg (by omega), if_neg (by omega), Nat.add_sub_cancel]
  simp only [tokenAt_advance, h.tokenAt_eq hstart, h.tokenAt_eq h.inside]

/-- The longer run comes to the same object and then to what stands behind it. -/
theorem document_of_extends (hrel : Extends t u s s') (hu : 0 < u.size) {v : Parser}
    {value : Text.Span → ExportObject} (hclosed : Closed s v value) :
    (document s').1.object = (document s).1.object ∧
      (document s').2.diagnostics = #[trailingDiagnostic u[0]] ∧
      (document s').2.skipped =
        if s.preferences.recordSkipped = true then (document s).2.skipped.push (trailingRegion u hu)
        else (document s).2.skipped := by
  have hforward := hclosed.forward
  have htokens : v.tokens = t := hforward.tokens.trans hrel.tokens
  have hposition : v.position + 1 = t.size := htokens ▸ hclosed.position
  have hbody : Alike (extension t u (hclosed.back_kind htokens)) (okAnd Always) s s' (objectBody s) (objectBody s') :=
    (agree_objectBody (k := s.left + 1) trivial).alike hrel (Nat.lt_succ_self s.left)
  rcases hr' : objectBody s' with ⟨result, v'⟩
  rw [hclosed.body, hr'] at hbody
  rcases hbody with ⟨-, hlost⟩ | ⟨-, -, hresult, hrel'⟩
  · have hlost : t.size ≤ v.position := hlost
    omega
  · obtain rfl : Except.ok value = result := hresult
    have hrel' : Extends t u v v' := hrel'
    have hobject := object_of_closed hclosed.body hclosed.brace
    have hobject' := object_of_closed hr' (hrel'.peek_eq.symm ▸ hclosed.brace)
    have hspan := spanFrom_advance hrel' hposition hrel.inside
    obtain ⟨hdiagnostics, hskipped⟩ := skipTrailing_spec (s := (advance v').2) (t := t)
      ((forward_advance v').tokens.trans hrel'.longer)
      ((Cursor.position_next hrel'.atEnd.2).trans (hrel'.position.symm ▸ hposition)) hu
      (hrel'.diagnostics.trans hclosed.diagnostics)
    rw [document_apply hrel.atEnd.1, document_apply hrel.atEnd.2, hobject, hobject',
      skipTrailing_of_atEnd hclosed.last, hrel.position, hspan]
    refine ⟨rfl, hdiagnostics, ?_⟩
    rw [hskipped]
    show (if v'.preferences.recordSkipped = true then v'.skipped.push _ else v'.skipped) =
      if s.preferences.recordSkipped = true then v.skipped.push _ else v.skipped
    rw [hrel'.preferences, hrel'.skipped, hforward.preferences]

theorem filter_eq_of_eofFree (h : ∀ x ∈ t, x.kind ≠ .eof) : t.filter (fun x => x.kind ≠ .eof) = t :=
  Array.filter_eq_self.2 fun x hx => decide_eq_true (h x hx)

theorem extends_ofTokens (ht : ∀ x ∈ t, x.kind ≠ .eof) (hu : ∀ x ∈ u, x.kind ≠ .eof) (hpos : 0 < t.size)
    (preferences : ParserPreferences) (first first' : Event) :
    Extends t u (note first (Parser.ofTokens t preferences)).2
      (note first' (Parser.ofTokens (t ++ u) preferences)).2 := by
  have hall : ∀ x ∈ t ++ u, x.kind ≠ .eof := by
    intro x hx
    rcases Array.mem_append.1 hx with hx | hx
    · exact ht x hx
    · exact hu x hx
  exact ⟨filter_eq_of_eofFree ht, filter_eq_of_eofFree hall, hpos, rfl, rfl, rfl, rfl, rfl, rfl, rfl⟩

/-- Tokens that are read to an object without a diagnostic. -/
def ReadsClean (preferences : ParserPreferences) (tokens : Array Token) : Prop :=
  (wholeDocument (Parser.ofTokens tokens preferences)).1.object ≠ none ∧
    (wholeDocument (Parser.ofTokens tokens preferences)).2.diagnostics = #[]

theorem longer_of_readsClean {preferences : ParserPreferences} (ht : ∀ x ∈ t, x.kind ≠ .eof)
    (hu : ∀ x ∈ u, x.kind ≠ .eof) (hpos : 0 < u.size) (hclean : ReadsClean preferences t) :
    (wholeDocument (Parser.ofTokens (t ++ u) preferences)).1.object =
        (wholeDocument (Parser.ofTokens t preferences)).1.object ∧
      (wholeDocument (Parser.ofTokens (t ++ u) preferences)).2.diagnostics = #[trailingDiagnostic u[0]] ∧
      (wholeDocument (Parser.ofTokens (t ++ u) preferences)).2.skipped =
        if preferences.recordSkipped = true then
          (wholeDocument (Parser.ofTokens t preferences)).2.skipped.push (trailingRegion u hpos)
        else (wholeDocument (Parser.ofTokens t preferences)).2.skipped := by
  obtain ⟨first, last, hrun⟩ := wholeDocument_apply (Parser.ofTokens t preferences)
  obtain ⟨first', last', hrun'⟩ := wholeDocument_apply (Parser.ofTokens (t ++ u) preferences)
  obtain ⟨hobject, hdiagnostics⟩ := hclean
  rw [hrun] at hobject hdiagnostics ⊢
  rw [hrun']
  obtain ⟨v, value, hclosed⟩ := exists_closed hobject hdiagnostics
  have hsize : 0 < t.size := by
    have hposition := hclosed.position
    rw [hclosed.forward.tokens] at hposition
    have htokens : (note first (Parser.ofTokens t preferences)).2.tokens = t := filter_eq_of_eofFree ht
    rw [htokens] at hposition
    omega
  exact document_of_extends (extends_ofTokens ht hu hsize preferences first first') hpos hclosed

/-- Behind tokens that are read to an object without a diagnostic, any further ones leave the object as it is, are
reported once, at the first of them, and are kept as one stretch. So of two such inputs neither begins with the other:
what is cut off and what is added is always reported. -/
theorem trailing_input (preferences : ParserPreferences) :
    (∀ t u : Array Token, (∀ x ∈ t, x.kind ≠ .eof) → (∀ x ∈ u, x.kind ≠ .eof) → (hu : 0 < u.size) →
      ReadsClean preferences t →
      let run := wholeDocument (Parser.ofTokens t preferences)
      let longer := wholeDocument (Parser.ofTokens (t ++ u) preferences)
      longer.1.object = run.1.object ∧
        longer.2.diagnostics =
          #[.make .unexpectedToken ("Expected end of input, found " ++ u[0].description) u[0].span] ∧
        longer.2.skipped = if preferences.recordSkipped = true then
            run.2.skipped.push
              ⟨u[0].span.merge u[u.size - 1].span, "trailing input", u.size, joinTokens u.toList⟩
          else run.2.skipped) ∧
    ∀ t p q : Array Token, (∀ x ∈ t, x.kind ≠ .eof) → ReadsClean preferences t → t = p ++ q → 0 < q.size →
      ¬ ReadsClean preferences p := by
  refine ⟨fun t u ht hu hpos hclean => longer_of_readsClean ht hu hpos hclean, ?_⟩
  rintro t p q ht hclean rfl hq hprefix
  have hp : ∀ x ∈ p, x.kind ≠ .eof := fun x hx => ht x (Array.mem_append.2 (.inl hx))
  have hq' : ∀ x ∈ q, x.kind ≠ .eof := fun x hx => ht x (Array.mem_append.2 (.inr hx))
  have hlonger := (longer_of_readsClean hp hq' hq hprefix).2.1
  rw [hclean.2] at hlonger
  exact absurd (congrArg Array.size hlonger) nofun

def openTable : Array Token :=
  #[⟨.keyword .object, "OBJECT", .origin⟩, ⟨.keyword .table, "Table", .origin⟩, ⟨.integer, "1", .origin⟩,
    ⟨.identifier, "A", .origin⟩, ⟨.leftBrace, "\x7b", .origin⟩]

def closing : Array Token := #[⟨.rightBrace, "\x7d", .origin⟩]

def stray : Array Token := #[⟨.semicolon, ";", .origin⟩]

theorem trailing_input_stray :
    ReadsClean {} (openTable ++ closing) ∧ ¬ ReadsClean {} openTable ∧
      (wholeDocument (Parser.ofTokens (openTable ++ closing ++ stray) {})).2.diagnostics =
        #[.make .unexpectedToken "Expected end of input, found ';'" .origin] ∧
      (wholeDocument (Parser.ofTokens (openTable ++ closing ++ stray) {})).2.skipped =
        #[⟨.origin, "trailing input", 1, ";"⟩] := by
  have hclean : ReadsClean {} (openTable ++ closing) := ⟨nofun, rfl⟩
  have hfree : ∀ x ∈ openTable ++ closing, x.kind ≠ .eof := by decide
  have hstray : ∀ x ∈ stray, x.kind ≠ .eof := by decide
  obtain ⟨-, hdiagnostics, hskipped⟩ := (trailing_input {}).1 _ stray hfree hstray (by decide) hclean
  refine ⟨hclean, (trailing_input {}).2 _ openTable closing hfree hclean rfl (by decide), hdiagnostics, hskipped⟩

end CalExport.Rule
