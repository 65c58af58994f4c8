import CalExport.Proofs.Statement.Writing

namespace CalExport.Rule

open Statement

variable {n : Nat} {κ : Kind} {t : Token} {toks more : List Token} {e : Expr} {s : Statement} {ss : List Statement}
  {span : Text.Span}

abbrev SameStatement (s s' : Statement) : Prop := s'.unplaced = s.unplaced

theorem of_endsBranch (h : endsBranch κ = true) : Stops 0 κ ∧ assignOp? κ = none ∧ κ ≠ .leftParen := by
  revert h
  fun_cases endsBranch κ with
  | case7 => nofun
  | _ => exact fun _ => ⟨by decide, rfl, by nofun⟩

def beginsStatement (κ : Kind) : Bool := !endsBranch κ && !endsList κ

theorem of_beginsStatement (h : beginsStatement κ = true) :
    endsBranch κ = false ∧ endsList κ = false ∧ κ ≠ .eof ∧ κ ≠ .semicolon := by
  simp only [beginsStatement, Bool.and_eq_true, Bool.not_eq_true'] at h
  refine ⟨h.1, h.2, ?_, ?_⟩
  · rintro rfl
    cases h.1
  · rintro rfl
    cases h.1

theorem begins_of_startsOperand (h : startsOperand κ = true) : beginsStatement κ = true := by
  revert h
  fun_cases startsOperand κ with
  | case11 k =>
      intro hends
      simp only [endsExpression, Bool.not_eq_true', Bool.or_eq_false_iff] at hends
      obtain ⟨⟨⟨hword, -⟩, hstart⟩, -⟩ := hends
      unfold beginsStatement endsBranch endsList
      split <;> split <;> simp_all [Keyword.isStatementWord]
  | case12 => rintro ⟨⟩
  | _ => exact fun _ => rfl

theorem begins_of_startsExpression (h : startsExpression κ = true) : beginsStatement κ = true := by
  rcases Bool.or_eq_true_iff.1 h with hoperand | hunary
  · exact begins_of_startsOperand hoperand
  · obtain ⟨op, hop⟩ := Option.isSome_iff_exists.1 hunary
    rw [eq_of_unaryOp hop]
    cases op <;> rfl

theorem startsOperand_of_shown (he : e.proper false = true) (hlevel : e.level = 7) (h : Shown toks e.signs) :
    startsOperand (nextKind toks) = true := by
  have hphrase := written e he e.nesting toks h (Nat.le_refl _)
  rw [hlevel] at hphrase
  exact startsOperand_of_phrase hphrase

theorem startsExpression_of_shown (he : e.proper false = true) (h : Shown toks e.signs) :
    startsExpression (nextKind toks) = true :=
  startsExpression_of_phrase (written e he e.nesting toks h (Nat.le_refl _))

/-- What may stand behind a statement: a token that ends a branch, but no ELSE that the statement would take. -/
def Closes (s : Statement) (κ : Kind) : Prop := endsBranch κ = true ∧ (s.endsOpen = true → κ ≠ .keyword .else_)

theorem closes_semicolon (s : Statement) (ht : t.kind = .semicolon) : Closes s (nextKind ([t] ++ more)) := by
  rw [List.singleton_append, nextKind, ht]
  exact ⟨rfl, fun _ hkind => by cases hkind⟩

def StatementReads (s : Statement) : Prop := ∀ n toks more, Shown toks s.signs → s.levels ≤ n + 1 →
  Closes s (nextKind more) → RulePasses n (statementWith (statementAt n)) toks more (SameStatement s)

structure Readable (s : Statement) : Prop where
  begins : s.isEmpty = false → ∀ toks, Shown toks s.signs → beginsStatement (nextKind toks) = true
  reads : s.isEmpty = false → StatementReads s

theorem eq_empty (h : s.isEmpty = true) : ∃ span, s = .empty span := by
  cases s with
  | empty span => exact ⟨span, rfl⟩
  | _ => cases h

theorem levels_pos (h : s.isEmpty = false) : 0 < s.levels := by
  fun_cases levels s <;> first | omega | cases h

theorem statementAt_passes (h : Readable s) (hs : s.isEmpty = false) (hshown : Shown toks s.signs)
    (hn : s.levels ≤ n) (hmore : Closes s (nextKind more)) :
    RulePasses n (statementAt n) toks more (SameStatement s) := by
  have hpos := levels_pos hs
  obtain ⟨m, rfl⟩ : ∃ m, n = m + 1 := ⟨n - 1, by omega⟩
  exact RulePasses.nested (h.reads hs m toks more hshown hn hmore)

theorem branch_passes (h : Readable s) (hshown : Shown toks s.signs) (hn : s.levels ≤ n)
    (hmore : Closes s (nextKind more)) :
    RulePasses n (branchWith (statementAt n)) toks more (SameStatement s) := by
  apply RulePasses.step_nil Passes.peek_kind
  intro next hnext
  rw [hnext]
  cases hs : s.isEmpty with
  | true =>
      obtain ⟨span, rfl⟩ := eq_empty hs
      obtain rfl := List.forall₂_nil_right_iff.1 hshown
      rw [List.nil_append, if_pos hmore.1]
      exact RulePasses.pure rfl
  | false =>
      obtain ⟨hends, -, hne, -⟩ := of_beginsStatement (h.begins hs toks hshown)
      rw [nextKind_append hne, hends]
      exact statementAt_passes h hs hshown hn hmore

theorem separator_passes (ends : Kind → Bool) (ht : t.kind = .semicolon) :
    Passes n (separator ends) [t] more fun _ => True := by
  apply Passes.bind (u := [t]) (Passes.accept ht)
  rintro _ rfl
  exact Passes.pure trivial

theorem listRound_passes (h : Readable s) (hshown : Shown toks s.signs) (ht : t.kind = .semicolon)
    (hn : s.levels ≤ n) (found : Array Statement) :
    Passes n (listRound (statementAt n) found) (toks ++ [t]) more
      (yieldAnd fun found' => ∃ s', SameStatement s s' ∧ found' = found.push s') := by
  cases hs : s.isEmpty with
  | true =>
      obtain ⟨span, rfl⟩ := eq_empty hs
      obtain rfl := List.forall₂_nil_right_iff.1 hshown
      apply Passes.bind_nil Passes.peek
      rintro _ rfl
      simp only [ht, endsList, Bool.false_eq_true, if_false, if_true]
      apply Passes.bind (u := [_]) (v := []) Passes.advance
      rintro _ rfl
      refine Passes.pure ⟨_, ?_, rfl⟩
      rfl
  | false =>
      obtain ⟨-, hends, hne, hkind⟩ := of_beginsStatement (h.begins hs toks hshown)
      cases toks with
      | nil => exact absurd rfl hne
      | cons first toks =>
          rw [nextKind] at hends hkind
          apply Passes.bind_nil Passes.peek
          intro token htoken
          rw [htoken, hends, if_neg Bool.false_ne_true, if_neg hkind]
          apply Passes.bind_nil Passes.here
          rintro start -
          apply Passes.bind (Passes.attempt (statementAt_passes h hs hshown hn (closes_semicolon s ht)))
          rintro (fault | s') hsame
          · exact hsame.elim
          · apply Passes.bind (u := [t]) (v := []) (separator_passes endsList ht)
            rintro _ -
            exact Passes.pure ⟨s', hsame, rfl⟩

theorem list_passes (h : ∀ s ∈ ss, Readable s) (hshown : Shown toks (signsAll ss)) (hn : levelsAll ss ≤ n)
    (hmore : endsList (nextKind more) = true) :
    Passes n (listWith (statementAt n)) toks more fun found => found.map unplaced = ss.map unplaced := by
  have hround := (grammarLoop_progresses (.statements n)).unrolls
  have hloop : ∀ found : Array Statement, Passes n (loop found (listRound (statementAt n))) toks more
      fun all => all.toList.map unplaced = found.toList.map unplaced ++ ss.map unplaced := by
    induction ss generalizing toks with
    | nil =>
        intro found
        obtain rfl := List.forall₂_nil_right_iff.1 hshown
        apply Passes.loop_done hround
        apply Passes.bind_nil Passes.peek_kind
        intro next hnext
        rw [hnext, List.nil_append, hmore]
        exact Passes.pure (by simp [doneAnd])
    | cons s ss ih =>
        intro found
        obtain ⟨u, v, rfl, hu, hv⟩ := shown_append hshown
        obtain ⟨semicolon, v, rfl, hsemicolon, hv⟩ := shown_cons hv
        obtain ⟨hs, hss⟩ := Nat.max_le.1 hn
        rw [List.append_cons]
        apply Passes.loop_yield hround (listRound_passes (h s (by simp)) hu hsemicolon hs found)
        rintro _ ⟨s', hsame, rfl⟩
        apply (ih (fun s hs => h s (by simp [hs])) hv hss (found.push s')).mono
        intro all hall
        simp [hall, hsame]
  apply Passes.bind_last (hloop #[])
  intro all hall
  exact Passes.pure (by simpa using hall)

/-- In front of a token of a known kind. -/
theorem stops_behind {k : Nat} (ht : t.kind = κ) (h : Stops k κ) : Stops k (nextKind (t :: toks ++ more)) := by
  rw [List.cons_append, nextKind, ht]
  exact h

/-- A statement that begins with an operand is an assignment or a call. -/
theorem statementWith_operand {p : Statement → Prop} (statement : Rule Statement)
    (hfirst : startsOperand (nextKind toks) = true) (h : RulePasses n assignmentOrCall toks more p) :
    RulePasses n (statementWith statement) toks more p := by
  cases toks with
  | nil => cases hfirst
  | cons t toks =>
      change startsOperand t.kind = true at hfirst
      apply RulePasses.peek
      split
      case h_11 k _ _ _ _ _ _ _ _ _ hkind =>
        have hword : k.isStatementWord = false := by
          simp only [hkind, startsOperand, endsExpression, Bool.not_eq_true', Bool.or_eq_false_iff] at hfirst
          exact hfirst.1.1.1
        rw [hword]
        exact h
      case h_12 => exact h
      all_goals
        rename_i hkind
        rw [hkind] at hfirst
        cases hfirst

theorem call_reads (he : e.proper false = true) (hlevel : e.level = 7) : StatementReads (.call e span) := by
  intro n toks more hshown hn hmore
  obtain ⟨hstops, hassign, -⟩ := of_endsBranch hmore.1
  apply statementWith_operand _ (startsOperand_of_shown he hlevel hshown)
  apply RulePasses.here
  intro start
  apply RulePasses.bind_last (operand_written he hlevel hshown (Nat.le_of_succ_le_succ hn) (hstops.mono (by decide)))
  intro e' hsame
  apply RulePasses.peekKind
  rw [List.nil_append, hassign]
  exact RulePasses.pure (by simp [SameStatement, Statement.unplaced, hsame])

theorem assignOp_kind (op : AssignOp) : assignOp? op.kind = some op := by
  cases op <;> rfl

theorem stops_assign (op : AssignOp) : Stops 7 op.kind := by
  cases op <;> decide

theorem assign_reads {target value : Expr} {op : AssignOp} (htarget : target.proper false = true)
    (hlevel : target.level = 7) (hvalue : (assigned op value).proper false = true) (hdesugars : Desugars op target value) :
    StatementReads (.assign target op value span) := by
  intro n toks more hshown hn hmore
  obtain ⟨u, v, rfl, hu, hv⟩ := shown_append hshown
  obtain ⟨t, v, rfl, ht, hv⟩ := shown_cons hv
  obtain ⟨htargetLevels, hvalueLevels⟩ := Nat.max_le.1 (Nat.le_of_succ_le_succ hn)
  have hkind : nextKind (t :: v ++ more) = op.kind := ht
  have hfirst := startsOperand_of_shown htarget hlevel hu
  apply statementWith_operand _ (by rwa [nextKind_append (startsOperand_ne_eof hfirst)])
  apply RulePasses.here
  intro start
  apply RulePasses.bind (operand_written htarget hlevel hu htargetLevels (hkind ▸ stops_assign op))
  intro target' htarget'
  apply RulePasses.peekKind
  rw [hkind, assignOp_kind]
  apply RulePasses.advance
  apply RulePasses.bind_last (expression_written hvalue hv hvalueLevels (of_endsBranch hmore.1).1)
  intro right hright
  apply RulePasses.spanFrom
  intro span
  apply RulePasses.pure
  cases hop : op.binary? with
  | none =>
      have hsame : assigned op value = value := by
        unfold assigned
        rw [hop]
      rw [hsame] at hright
      simp [SameStatement, Statement.unplaced, htarget', hright]
  | some binary =>
      obtain ⟨left, operand, span, rfl, hleft⟩ := hdesugars binary hop
      have hsame : assigned op (.binary binary left operand span) = operand := by
        unfold assigned
        rw [hop]
      rw [hsame] at hright
      simp [SameStatement, Statement.unplaced, Expr.join, Expr.unplaced, htarget', hright, hleft]

theorem exit_reads {value : Option Expr} (h : ∀ e ∈ value, e.proper false = true) :
    StatementReads (.exit value span) := by
  intro n toks more hshown hn hmore
  cases value with
  | none =>
      obtain ⟨t, rest, rfl, ht, hrest⟩ := shown_cons hshown
      obtain rfl := List.forall₂_nil_right_iff.1 hrest
      replace ht : t.kind = .keyword .exit := ht
      apply RulePasses.peek
      simp only [ht]
      apply RulePasses.here
      intro start
      apply RulePasses.expect ht
      apply RulePasses.bind_last (p := (· = none))
      · apply RulePasses.accept_none (w := []) (of_endsBranch hmore.1).2.2
        exact RulePasses.pure rfl
      · rintro _ rfl
        apply RulePasses.spanFrom
        intro span
        exact RulePasses.pure rfl
  | some e =>
      obtain ⟨t, rest, rfl, ht, hrest⟩ := shown_cons hshown
      obtain ⟨opening, rest, rfl, hopen, hrest⟩ := shown_cons hrest
      obtain ⟨inner, closing, rfl, hinner, hclose⟩ := shown_last hrest
      replace ht : t.kind = .keyword .exit := ht
      have hlevels : e.nesting + 1 ≤ n := Nat.le_of_succ_le_succ hn
      have hproper := h e rfl
      apply RulePasses.peek
      simp only [ht]
      apply RulePasses.here
      intro start
      apply RulePasses.expect ht
      apply RulePasses.bind_last (p := fun found => found.map Expr.unplaced = some e.unplaced)
      · have hstarts := startsExpression_of_shown hproper hinner
        apply RulePasses.accept hopen
        apply RulePasses.accept_none
        · rw [List.append_assoc, nextKind_append (startsExpression_ne_eof hstarts)]
          exact (of_startsExpression hstarts).2.2.1
        · apply RulePasses.bind (v := [closing]) (expression_written hproper hinner hlevels (stops_behind hclose (by decide)))
          intro e' hsame
          apply RulePasses.expect hclose
          exact RulePasses.pure (by simp [hsame])
      · intro found hfound
        apply RulePasses.spanFrom
        intro span
        exact RulePasses.pure (by simp [SameStatement, Statement.unplaced, hfound])

theorem break_reads : StatementReads (.break_ span) := by
  intro n toks more hshown _ _
  obtain ⟨t, rest, rfl, ht, hrest⟩ := shown_cons hshown
  obtain rfl := List.forall₂_nil_right_iff.1 hrest
  replace ht : t.kind = .keyword .break_ := ht
  apply RulePasses.peek
  simp only [ht]
  apply RulePasses.advance
  exact RulePasses.pure rfl

/-- A head, an expression, DO and a body. -/
theorem headed_passes {condition : Expr} {body : Statement} {f : Expr → Statement → Text.Span → Statement}
    {u v : List Token} {word : Token} (hcondition : condition.proper false = true) (hbody : Readable body)
    (ht : t.kind = κ) (hu : Shown u condition.signs) (hword : word.kind = .keyword .do_) (hv : Shown v body.signs)
    (hn : max (condition.nesting + 1) body.levels ≤ n) (hmore : Closes body (nextKind more)) :
    RulePasses n
      (do
        let start ← here
        let _ ← expect κ
        let condition ← expression
        let _ ← expect (.keyword .do_)
        let body ← branchWith (statementAt n)
        return f condition body (← spanFrom start))
      (t :: (u ++ word :: v)) more
      fun s => ∃ condition' body' span, s = f condition' body' span ∧ Same condition condition' ∧
        SameStatement body body' := by
  obtain ⟨hconditionLevels, hbodyLevels⟩ := Nat.max_le.1 hn
  apply RulePasses.here
  intro start
  apply RulePasses.expect ht
  apply RulePasses.bind (expression_written hcondition hu hconditionLevels (stops_behind hword (by decide)))
  intro condition' hsame
  apply RulePasses.expect hword
  apply RulePasses.bind_last (branch_passes hbody hv hbodyLevels hmore)
  intro body' hbody'
  apply RulePasses.spanFrom
  intro span
  exact RulePasses.pure ⟨condition', body', span, rfl, hsame, hbody'⟩

section

variable {condition : Expr} {body : Statement} (hcondition : condition.proper false = true) (hbody : Readable body)

include hcondition hbody

theorem while_reads : StatementReads (.whileDo condition body span) := by
  intro n toks more hshown hn hmore
  obtain ⟨t, rest, rfl, ht, hrest⟩ := shown_cons hshown
  obtain ⟨u, v, rfl, hu, hv⟩ := shown_append hrest
  obtain ⟨word, v, rfl, hword, hv⟩ := shown_cons hv
  replace ht : t.kind = .keyword .while_ := ht
  apply RulePasses.peek
  simp only [ht]
  apply (headed_passes (f := .whileDo) hcondition hbody ht hu hword hv (Nat.le_of_succ_le_succ hn) hmore).mono
  rintro _ ⟨condition', body', span, rfl, hsame, hbody'⟩
  simp [SameStatement, Statement.unplaced, hsame, hbody']

theorem with_reads : StatementReads (.withDo condition body span) := by
  intro n toks more hshown hn hmore
  obtain ⟨t, rest, rfl, ht, hrest⟩ := shown_cons hshown
  obtain ⟨u, v, rfl, hu, hv⟩ := shown_append hrest
  obtain ⟨word, v, rfl, hword, hv⟩ := shown_cons hv
  replace ht : t.kind = .keyword .with_ := ht
  apply RulePasses.peek
  simp only [ht]
  apply (headed_passes (f := .withDo) hcondition hbody ht hu hword hv (Nat.le_of_succ_le_succ hn) hmore).mono
  rintro _ ⟨record', body', span, rfl, hsame, hbody'⟩
  simp [SameStatement, Statement.unplaced, hsame, hbody']

end

theorem isCounter_unplaced (e : Expr) : isCounter e.unplaced = isCounter e := by
  cases e <;> first | rfl | (rename_i qualified _; cases qualified <;> rfl)

/-- A name or a member of a record is taken as it is. -/
theorem counter_passes {counter : Expr} (hcounter : isCounter counter = true) (hproper : counter.proper false = true)
    (hshown : Shown toks counter.signs) (hn : counter.nesting ≤ n) (hmore : Stops 7 (nextKind more)) :
    RulePasses n Rule.counter toks more (Same counter) := by
  have hlevel : counter.level = 7 := by
    cases counter <;> first | rfl | cases hcounter
  apply RulePasses.bind_last (operand_written hproper hlevel hshown hn hmore)
  intro found hsame
  have hfound : isCounter found = true := by
    rw [← isCounter_unplaced, hsame, isCounter_unplaced, hcounter]
  split
  case h_3 => simp_all [isCounter]
  all_goals exact RulePasses.pure hsame

theorem direction_passes {d : Direction} (ht : t.kind = d.kind) : RulePasses n direction [t] more (· = d) := by
  cases d with
  | up =>
      apply RulePasses.accept ht
      exact RulePasses.pure rfl
  | down =>
      apply RulePasses.accept_none
      · rw [List.cons_append, nextKind, ht]
        rintro ⟨⟩
      · apply RulePasses.accept ht
        exact RulePasses.pure rfl

theorem repeat_reads {condition : Expr} (hcondition : condition.proper false = true) (hss : ∀ s ∈ ss, Readable s) :
    StatementReads (.repeatUntil ss condition span) := by
  intro n toks more hshown hn hmore
  obtain ⟨t, rest, rfl, ht, hrest⟩ := shown_cons hshown
  obtain ⟨u, v, rfl, hu, hv⟩ := shown_append hrest
  obtain ⟨word, v, rfl, hword, hv⟩ := shown_cons hv
  obtain ⟨hbodyLevels, hconditionLevels⟩ := Nat.max_le.1 (Nat.le_of_succ_le_succ hn)
  replace ht : t.kind = .keyword .repeat_ := ht
  replace hword : word.kind = .keyword .until_ := hword
  apply RulePasses.peek
  simp only [ht]
  apply RulePasses.here
  intro start
  apply RulePasses.expect ht
  apply RulePasses.step (list_passes hss hu hbodyLevels (by rw [List.cons_append, nextKind, hword]; rfl))
  intro body hbody
  apply RulePasses.expect hword
  apply RulePasses.bind_last (expression_written hcondition hv hconditionLevels (of_endsBranch hmore.1).1)
  intro condition' hsame
  apply RulePasses.spanFrom
  intro span
  exact RulePasses.pure (by simp [SameStatement, Statement.unplaced, hsame, hbody])

theorem block_reads (hss : ∀ s ∈ ss, Readable s) : StatementReads (.block ss span) := by
  intro n toks more hshown hn hmore
  obtain ⟨t, rest, rfl, ht, hrest⟩ := shown_cons hshown
  obtain ⟨inner, closing, rfl, hinner, hclose⟩ := shown_last hrest
  replace ht : t.kind = .keyword .begin_ := ht
  replace hclose : closing.kind = .keyword .end_ := hclose
  apply RulePasses.peek
  simp only [ht]
  apply RulePasses.here
  intro start
  apply RulePasses.bind_last (p := fun found => found.map unplaced = ss.map unplaced)
  · apply RulePasses.expect ht
    apply RulePasses.step (v := [closing]) (list_passes hss hinner (Nat.le_of_succ_le_succ hn)
      (by rw [List.singleton_append, nextKind, hclose]; rfl))
    intro found hfound
    apply RulePasses.expect hclose
    exact RulePasses.pure hfound
  · intro found hfound
    apply RulePasses.spanFrom
    intro span
    exact RulePasses.pure (by simp [SameStatement, Statement.unplaced, hfound])

theorem stops_direction (d : Direction) : Stops 0 d.kind := by
  cases d <;> decide

theorem for_reads {counter first last : Expr} {d : Direction} {body : Statement} (hisCounter : isCounter counter = true)
    (hcounter : counter.proper false = true) (hfirst : first.proper false = true) (hlast : last.proper false = true)
    (hbody : Readable body) : StatementReads (.forDo counter first last d body span) := by
  intro n toks more hshown hn hmore
  obtain ⟨t, rest, rfl, ht, hrest⟩ := shown_cons hshown
  obtain ⟨counterToks, rest, rfl, hcounterToks, hrest⟩ := shown_append hrest
  obtain ⟨becomes, rest, rfl, hbecomes, hassigned⟩ := shown_cons hrest
  obtain ⟨firstToks, rest, rfl, hfirstToks, hrange⟩ := shown_append hassigned
  obtain ⟨way, rest, rfl, hway, hbound⟩ := shown_cons hrange
  obtain ⟨lastToks, rest, rfl, hlastToks, htail⟩ := shown_append hbound
  obtain ⟨word, bodyToks, rfl, hword, hbodyToks⟩ := shown_cons htail
  obtain ⟨hcounterLevels, hrestLevels⟩ := Nat.max_le.1 (Nat.le_of_succ_le_succ hn)
  obtain ⟨hfirstLevels, hrestLevels⟩ := Nat.max_le.1 hrestLevels
  obtain ⟨hlastLevels, hbodyLevels⟩ := Nat.max_le.1 hrestLevels
  replace ht : t.kind = .keyword .for_ := ht
  apply RulePasses.peek
  simp only [ht]
  apply RulePasses.here
  intro start
  apply RulePasses.expect ht
  apply RulePasses.bind (counter_passes hisCounter hcounter hcounterToks hcounterLevels (stops_behind hbecomes (by decide)))
  intro counter' hcounter'
  apply RulePasses.expect hbecomes
  apply RulePasses.bind (expression_written hfirst hfirstToks hfirstLevels (stops_behind hway (stops_direction d)))
  intro first' hfirst'
  apply RulePasses.bind (u := [way]) (direction_passes hway)
  rintro _ rfl
  apply RulePasses.bind (expression_written hlast hlastToks hlastLevels (stops_behind hword (by decide)))
  intro last' hlast'
  apply RulePasses.expect hword
  apply RulePasses.bind_last (branch_passes hbody hbodyToks hbodyLevels hmore)
  intro body' hbody'
  apply RulePasses.spanFrom
  intro span
  exact RulePasses.pure (by simp [SameStatement, Statement.unplaced, hcounter', hfirst', hlast', hbody'])

section

variable {condition : Expr} {thenBranch : Statement} (hcondition : condition.proper false = true)
  (hthen : Readable thenBranch)

include hcondition hthen

theorem if_reads : StatementReads (.ifThen condition thenBranch none span) := by
  intro n toks more hshown hn hmore
  obtain ⟨t, rest, rfl, ht, hrest⟩ := shown_cons hshown
  obtain ⟨u, v, rfl, hu, hv⟩ := shown_append hrest
  obtain ⟨word, v, rfl, hword, hv⟩ := shown_cons hv
  obtain ⟨hconditionLevels, hthenLevels⟩ := Nat.max_le.1 (Nat.le_of_succ_le_succ hn)
  have helse : nextKind more ≠ .keyword .else_ := hmore.2 rfl
  replace ht : t.kind = .keyword .if_ := ht
  apply RulePasses.peek
  simp only [ht]
  apply RulePasses.here
  intro start
  apply RulePasses.expect ht
  apply RulePasses.bind (expression_written hcondition hu hconditionLevels (stops_behind hword (by decide)))
  intro condition' hcondition'
  apply RulePasses.expect hword
  apply RulePasses.bind_last (branch_passes hthen hv hthenLevels ⟨hmore.1, fun _ => helse⟩)
  intro then' hthen'
  apply RulePasses.bind_last (p := (· = none))
  · apply RulePasses.accept_none (w := []) helse
    exact RulePasses.pure rfl
  · rintro _ rfl
    apply RulePasses.spanFrom
    intro span
    exact RulePasses.pure (by simp [SameStatement, Statement.unplaced, hcondition', hthen'])

theorem ifElse_reads {elseBranch : Statement} (helse : Readable elseBranch) (hclosed : thenBranch.endsOpen = false) :
    StatementReads (.ifThen condition thenBranch (some elseBranch) span) := by
  intro n toks more hshown hn hmore
  obtain ⟨t, rest, rfl, ht, hrest⟩ := shown_cons hshown
  obtain ⟨u, rest, rfl, hu, hrest⟩ := shown_append hrest
  obtain ⟨word, rest, rfl, hword, hbranches⟩ := shown_cons hrest
  obtain ⟨v, rest, rfl, hv, htail⟩ := shown_append hbranches
  obtain ⟨otherwise, w, rfl, hotherwise, hw⟩ := shown_cons htail
  obtain ⟨hconditionLevels, hrestLevels⟩ := Nat.max_le.1 (Nat.le_of_succ_le_succ hn)
  obtain ⟨hthenLevels, helseLevels⟩ := Nat.max_le.1 hrestLevels
  replace ht : t.kind = .keyword .if_ := ht
  replace hotherwise : otherwise.kind = .keyword .else_ := hotherwise
  apply RulePasses.peek
  simp only [ht]
  apply RulePasses.here
  intro start
  apply RulePasses.expect ht
  apply RulePasses.bind (expression_written hcondition hu hconditionLevels (stops_behind hword (by decide)))
  intro condition' hcondition'
  apply RulePasses.expect hword
  have hcloses : Closes thenBranch (nextKind (otherwise :: w ++ more)) := by
    rw [List.cons_append, nextKind, hotherwise]
    exact ⟨rfl, fun hopen => absurd hopen (by simp [hclosed])⟩
  apply RulePasses.bind (branch_passes hthen hv hthenLevels hcloses)
  intro then' hthen'
  apply RulePasses.bind_last (p := fun found => found.map unplaced = some elseBranch.unplaced)
  · apply RulePasses.accept hotherwise
    apply (branch_passes helse hw helseLevels hmore).map
    intro else' helse'
    simp [helse']
  · intro found hfound
    obtain ⟨else', rfl, helse'⟩ := Option.map_eq_some_iff.1 hfound
    apply RulePasses.spanFrom
    intro span
    exact RulePasses.pure (by simp [SameStatement, Statement.unplaced, hcondition', hthen', helse'])

end

section

variable {values : List Expr} (hne : values ≠ []) (hvalues : Expr.properAll true values = true)
  (hshown : Shown toks (Expr.signsAll values)) (hn : Expr.nestingAll values + 1 ≤ n)

include hne hvalues hshown hn

theorem separated_of_shown : Separated (Element (forms n)) toks values := by
  obtain ⟨m, rfl⟩ : ∃ m, n = m + 1 := ⟨n - 1, by omega⟩
  have hlisted : Listed (Element (forms (m + 1))) toks values := by
    apply listed_of_shown _ hshown
    intro e he toks hshown
    have hnesting := Nat.le_trans (nesting_le_all he) (Nat.le_of_succ_le_succ hn)
    exact written_elements values hvalues e he m toks hshown hnesting
  cases hlisted with
  | nil => exact absurd rfl hne
  | separated h => exact h

theorem values_pass (hmore : nextKind more = .colon) : RulePasses n (commaSeparated element) toks more fun found =>
    found.map Expr.unplaced = values.map Expr.unplaced := by
  apply commaSeparated_passes (grammarTryLoop_progresses .caseValues).unrolls
    (separated_of_shown hne hvalues hshown hn) _ (by nofun) hmore
  rintro toks e more h (hmore | hmore) <;> exact element_reads h (by rw [hmore]; rfl)

theorem begins_of_values : beginsStatement (nextKind toks) = true := by
  have hitem : ∀ {toks e more}, Element (forms n) toks e → beginsStatement (nextKind (toks ++ more)) = true := by
    intro toks e more h
    rcases starts_of_element h with hdots | hstarts
    · rw [nextKind_append (by rw [hdots]; nofun), hdots]
      rfl
    · rw [nextKind_append (startsExpression_ne_eof hstarts)]
      exact begins_of_startsExpression hstarts
  cases separated_of_shown hne hvalues hshown hn with
  | last h =>
      rw [← List.append_nil toks]
      exact hitem h
  | cons h => exact hitem h

end

def BranchReadable : CaseBranch → Prop
  | .mk values statement _ => values ≠ [] ∧ Expr.properAll true values = true ∧ Readable statement

section

variable {values : List Expr} {u v : List Token} {colon : Token} (h : BranchReadable (.mk values s span))
  (hu : Shown u (Expr.signsAll values)) (hcolon : colon.kind = .colon) (hv : Shown v s.signs)
  (hn : max (Expr.nestingAll values + 1) s.levels ≤ n)

include h hu hcolon hv hn

theorem caseBranch_passes (hmore : Closes s (nextKind more)) :
    RulePasses n (caseBranchWith (statementAt n)) (u ++ colon :: v) more fun found =>
      found.unplaced = (CaseBranch.mk values s span).unplaced := by
  obtain ⟨hne, hvalues, hs⟩ := h
  obtain ⟨hvaluesLevels, hsLevels⟩ := Nat.max_le.1 hn
  apply RulePasses.here
  intro start
  apply RulePasses.bind (values_pass hne hvalues hu hvaluesLevels (by exact hcolon))
  intro values' hvalues'
  apply RulePasses.expect hcolon
  apply RulePasses.bind_last (branch_passes hs hv hsLevels hmore)
  intro s' hs'
  apply RulePasses.spanFrom
  intro span
  exact RulePasses.pure (by simp [CaseBranch.unplaced, hvalues', hs'])

theorem caseBranchRound_passes (ht : t.kind = .semicolon) (found : Array CaseBranch) :
    Passes n (caseBranchRound (statementAt n) found) (u ++ colon :: (v ++ [t])) more
      (yieldAnd fun found' => ∃ branch, branch.unplaced = (CaseBranch.mk values s span).unplaced ∧
        found' = found.push branch) := by
  obtain ⟨hbranch, hlist, hne, hsemicolon⟩ := of_beginsStatement (begins_of_values h.1 h.2.1 hu (Nat.max_le.1 hn).1)
  have hends : endsBranches (nextKind u) = false := by
    unfold endsBranches
    split
    · rename_i hkind
      rw [hkind] at hbranch
      cases hbranch
    · exact hlist
  apply Passes.bind_nil Passes.peekKind
  rintro _ rfl
  rw [List.append_assoc, nextKind_append hne, hends, if_neg Bool.false_ne_true, if_neg hsemicolon]
  apply Passes.bind_nil Passes.here
  rintro start -
  rw [← List.cons_append, ← List.append_assoc]
  apply Passes.bind (Passes.attempt (caseBranch_passes h hu hcolon hv hn (closes_semicolon s ht)))
  rintro (fault | branch) hsame
  · exact hsame.elim
  · apply Passes.bind (u := [t]) (v := []) (separator_passes endsBranches ht)
    rintro _ -
    exact Passes.pure ⟨branch, hsame, rfl⟩

end

theorem caseBranches_pass {branches : List CaseBranch} (h : ∀ branch ∈ branches, BranchReadable branch)
    (hshown : Shown toks (signsBranches branches)) (hn : levelsBranches branches ≤ n)
    (hmore : endsBranches (nextKind more) = true) :
    Passes n (caseBranchesWith (statementAt n)) toks more fun found =>
      found.map CaseBranch.unplaced = branches.map CaseBranch.unplaced := by
  have hround := (grammarLoop_progresses (.caseBranches n)).unrolls
  have hloop : ∀ found : Array CaseBranch, Passes n (loop found (caseBranchRound (statementAt n))) toks more
      fun all => all.toList.map CaseBranch.unplaced =
        found.toList.map CaseBranch.unplaced ++ branches.map CaseBranch.unplaced := by
    induction branches generalizing toks with
    | nil =>
        intro found
        obtain rfl := List.forall₂_nil_right_iff.1 hshown
        apply Passes.loop_done hround
        apply Passes.bind_nil Passes.peekKind
        rintro _ rfl
        rw [List.nil_append, hmore]
        exact Passes.pure (by simp [doneAnd])
    | cons branch branches ih =>
        intro found
        obtain ⟨values, s, span⟩ := branch
        obtain ⟨u, rest, rfl, hu, hrest⟩ := shown_append hshown
        obtain ⟨colon, rest, rfl, hcolon, hstatement⟩ := shown_cons hrest
        obtain ⟨v, rest, rfl, hv, htail⟩ := shown_append hstatement
        obtain ⟨semicolon, rest, rfl, hsemicolon, hbranches⟩ := shown_cons htail
        obtain ⟨hvaluesLevels, hrestLevels⟩ := Nat.max_le.1 hn
        obtain ⟨hsLevels, hbranchesLevels⟩ := Nat.max_le.1 hrestLevels
        have happend : u ++ colon :: (v ++ semicolon :: rest) = (u ++ colon :: (v ++ [semicolon])) ++ rest := by simp
        rw [happend]
        apply Passes.loop_yield hround (caseBranchRound_passes (h (.mk values s span) (by simp)) hu hcolon hv
          (Nat.max_le.2 ⟨hvaluesLevels, hsLevels⟩) hsemicolon found)
        rintro _ ⟨branch, hsame, rfl⟩
        apply (ih (fun branch hbranch => h branch (by simp [hbranch])) hbranches hbranchesLevels (found.push branch)).mono
        intro all hall
        simp [hall, hsame]
  apply Passes.bind_last (hloop #[])
  intro all hall
  exact Passes.pure (by simpa using hall)

section

variable {subject : Expr} {branches : List CaseBranch} (hsubject : subject.proper false = true)
  (hbranches : ∀ branch ∈ branches, BranchReadable branch)

include hsubject hbranches

theorem case_reads : StatementReads (.caseOf subject branches none span) := by
  intro n toks more hshown hn hmore
  obtain ⟨t, rest, rfl, ht, hrest⟩ := shown_cons hshown
  obtain ⟨u, rest, rfl, hu, hrest⟩ := shown_append hrest
  obtain ⟨word, rest, rfl, hword, hinner⟩ := shown_cons hrest
  obtain ⟨v, closing, rfl, hv, hclose⟩ := shown_last hinner
  obtain ⟨hsubjectLevels, hbranchesLevels⟩ := Nat.max_le.1 (Nat.le_of_succ_le_succ hn)
  replace ht : t.kind = .keyword .case_ := ht
  replace hclose : closing.kind = .keyword .end_ := hclose
  have hnext : nextKind ([closing] ++ more) = .keyword .end_ := hclose
  apply RulePasses.peek
  simp only [ht]
  apply RulePasses.here
  intro start
  apply RulePasses.expect ht
  apply RulePasses.bind (expression_written hsubject hu hsubjectLevels (stops_behind hword (by decide)))
  intro subject' hsubject'
  apply RulePasses.expect hword
  apply RulePasses.step (v := [closing]) (caseBranches_pass hbranches hv hbranchesLevels (by rw [hnext]; rfl))
  intro branches' hbranches'
  apply RulePasses.step_nil (p := (· = none))
  · apply Passes.bind_nil (w := []) (Passes.accept_none (by rw [List.nil_append, hnext]; nofun))
    rintro _ rfl
    exact Passes.pure rfl
  · rintro _ rfl
    apply RulePasses.expect hclose
    apply RulePasses.spanFrom
    intro span
    exact RulePasses.pure (by simp [SameStatement, Statement.unplaced, hsubject', hbranches'])

theorem caseElse_reads (hss : ∀ s ∈ ss, Readable s) : StatementReads (.caseOf subject branches (some ss) span) := by
  intro n toks more hshown hn hmore
  obtain ⟨t, rest, rfl, ht, hrest⟩ := shown_cons hshown
  obtain ⟨u, rest, rfl, hu, hrest⟩ := shown_append hrest
  obtain ⟨word, rest, rfl, hword, hinner⟩ := shown_cons hrest
  obtain ⟨v, rest, rfl, hv, htail⟩ := shown_append hinner
  obtain ⟨otherwise, rest, rfl, hotherwise, hlist⟩ := shown_cons htail
  obtain ⟨w, closing, rfl, hw, hclose⟩ := shown_last hlist
  obtain ⟨hsubjectLevels, hrestLevels⟩ := Nat.max_le.1 (Nat.le_of_succ_le_succ hn)
  obtain ⟨hbranchesLevels, hssLevels⟩ := Nat.max_le.1 hrestLevels
  replace ht : t.kind = .keyword .case_ := ht
  replace hotherwise : otherwise.kind = .keyword .else_ := hotherwise
  replace hclose : closing.kind = .keyword .end_ := hclose
  apply RulePasses.peek
  simp only [ht]
  apply RulePasses.here
  intro start
  apply RulePasses.expect ht
  apply RulePasses.bind (expression_written hsubject hu hsubjectLevels (stops_behind hword (by decide)))
  intro subject' hsubject'
  apply RulePasses.expect hword
  apply RulePasses.step (caseBranches_pass hbranches hv hbranchesLevels
    (by rw [List.cons_append, nextKind, hotherwise]; rfl))
  intro branches' hbranches'
  rw [← List.cons_append]
  apply RulePasses.step (v := [closing]) (p := fun found => found.map (·.map unplaced) = some (ss.map unplaced))
  · apply Passes.bind (u := [otherwise]) (Passes.accept hotherwise)
    rintro _ rfl
    apply (list_passes hss hw hssLevels (by rw [List.singleton_append, nextKind, hclose]; rfl)).map
    intro found hfound
    simp [hfound]
  · intro found hfound
    obtain ⟨ss', rfl, hss'⟩ := Option.map_eq_some_iff.1 hfound
    apply RulePasses.expect hclose
    apply RulePasses.spanFrom
    intro span
    exact RulePasses.pure (by simp [SameStatement, Statement.unplaced, hsubject', hbranches', hss'])

end

theorem begins_of_mark {signs : List Sign} (h : Shown toks (.mark κ :: signs)) (hκ : beginsStatement κ = true) :
    beginsStatement (nextKind toks) = true := by
  obtain ⟨t, rest, rfl, ht, -⟩ := shown_cons h
  obtain rfl : t.kind = κ := ht
  exact hκ

theorem begins_of_shown (hproper : s.Proper) (hs : s.isEmpty = false) (h : Shown toks s.signs) :
    beginsStatement (nextKind toks) = true := by
  cases s with
  | ifThen condition thenBranch elseBranch => cases elseBranch <;> exact begins_of_mark h rfl
  | caseOf subject branches otherwise => cases otherwise <;> exact begins_of_mark h rfl
  | exit value => cases value <;> exact begins_of_mark h rfl
  | assign target op value =>
      obtain ⟨u, v, rfl, hu, -⟩ := shown_append h
      have hfirst := startsOperand_of_shown hproper.2.1 hproper.1 hu
      rw [nextKind_append (startsOperand_ne_eof hfirst)]
      exact begins_of_startsOperand hfirst
  | call e => exact begins_of_startsOperand (startsOperand_of_shown hproper.2 hproper.1 h)
  | empty => cases hs
  | _ => exact begins_of_mark h rfl

mutual

theorem readable (s : Statement) (hs : s.Proper) : Readable s := by
  refine ⟨fun hne toks => begins_of_shown hs hne, fun hne => ?_⟩
  cases s with
  | block ss span => exact block_reads (readable_all ss hs)
  | ifThen condition thenBranch elseBranch span =>
      cases elseBranch with
      | none => exact if_reads hs.1 (readable thenBranch hs.2)
      | some elseBranch =>
          obtain ⟨hcondition, hthen, helse, hclosed⟩ := hs
          exact ifElse_reads hcondition (readable thenBranch hthen) (readable elseBranch helse) hclosed
  | whileDo condition body span => exact while_reads hs.1 (readable body hs.2)
  | repeatUntil body condition span => exact repeat_reads hs.2 (readable_all body hs.1)
  | forDo counter first last direction body span =>
      obtain ⟨hisCounter, hcounter, hfirst, hlast, hbody⟩ := hs
      exact for_reads hisCounter hcounter hfirst hlast (readable body hbody)
  | caseOf subject branches otherwise span =>
      cases otherwise with
      | none => exact case_reads hs.1 (readable_branches branches hs.2)
      | some ss => exact caseElse_reads hs.1 (readable_branches branches hs.2.1) (readable_all ss hs.2.2)
  | exit value span => exact exit_reads hs
  | break_ span => exact break_reads
  | withDo record body span => exact with_reads hs.1 (readable body hs.2)
  | assign target op value span =>
      obtain ⟨hlevel, htarget, hdesugars, hvalue⟩ := hs
      exact assign_reads htarget hlevel hvalue hdesugars
  | call e span => exact call_reads hs.2 hs.1
  | empty span => cases hne

theorem readable_all (ss : List Statement) (hss : ProperAll ss) : ∀ s ∈ ss, Readable s := by
  cases ss with
  | nil => nofun
  | cons s ss => exact List.forall_mem_cons.2 ⟨readable s hss.1, readable_all ss hss.2⟩

theorem readable_branches (branches : List CaseBranch) (h : ProperBranches branches) :
    ∀ branch ∈ branches, BranchReadable branch := by
  cases branches with
  | nil => nofun
  | cons branch branches =>
      obtain ⟨values, s, span⟩ := branch
      obtain ⟨hne, hvalues, hs, hbranches⟩ := h
      exact List.forall_mem_cons.2 ⟨⟨hne, hvalues, readable s hs⟩, readable_branches branches hbranches⟩

end

/-- In front of written statements, at the end of the input or at a token that ends the list, with levels enough for
all of them, the statements are read back, exactly their tokens are passed and nothing is reported. -/
theorem statements_round_trip (s : Parser) (ss : List Statement) (toks more : List Token) (hss : ProperAll ss)
    (hshown : Shown toks (signsAll ss)) (hs : ahead s = toks ++ more) (hmore : endsList (nextKind more) = true)
    (hlevels : s.nesting + levelsAll ss ≤ maxNesting) :
    ∃ ss' t, statementList s = (ss', t) ∧ ss'.map unplaced = ss.map unplaced ∧
      t.position = s.position + toks.length ∧ ahead t = more ∧ t.diagnostics = s.diagnostics ∧
      t.nesting = s.nesting := by
  have hfree : levelsAll ss ≤ s.freeLevels := by
    simp only [Parser.freeLevels]
    omega
  obtain ⟨hsame, hskip⟩ := list_passes (readable_all ss hss) hshown hfree hmore s rfl hs
  refine ⟨(statementList s).1, (statementList s).2, rfl, hsame, ?_, ?_, ?_, ?_⟩
  all_goals rw [show (statementList s).2 = skip toks.length s from hskip]
  · exact position_skip hs
  · exact ahead_skip hs
  · exact diagnostics_skip _ s
  · exact nesting_skip _ s

/-- `IF a THEN CASE b OF 1..: ; ..2,5: EXIT(c); ELSE ; END ELSE REPEAT x += 1; UNTIL y; ;`. -/
def mixedStatements : List Statement :=
  [.ifThen (.identifier "a" .origin)
      (.caseOf (.identifier "b" .origin)
        [.mk [.range (some (.literal (.integer 1) "1" .origin)) none .origin] (.empty .origin) .origin,
          .mk [.range none (some (.literal (.integer 2) "2" .origin)) .origin, .literal (.integer 5) "5" .origin]
            (.exit (some (.identifier "c" .origin)) .origin) .origin]
        (some [.empty .origin]) .origin)
      (some
        (.repeatUntil
          [.assign (.identifier "x" .origin) .add
            (.binary .add (.identifier "x" .origin) (.literal (.integer 1) "1" .origin) .origin) .origin]
          (.identifier "y" .origin) .origin)) .origin,
    .empty .origin]

def mixedStatementTokens : List Token :=
  [atOrigin (.keyword .if_) "IF", atOrigin .identifier "a", atOrigin (.keyword .then_) "THEN",
    atOrigin (.keyword .case_) "CASE", atOrigin .identifier "b", atOrigin (.keyword .of) "OF", atOrigin .integer "1",
    atOrigin .dotDot "..", atOrigin .colon ":", atOrigin .semicolon ";", atOrigin .dotDot "..", atOrigin .integer "2",
    atOrigin .comma ",", atOrigin .integer "5", atOrigin .colon ":", atOrigin (.keyword .exit) "EXIT",
    atOrigin .leftParen "(", atOrigin .identifier "c", atOrigin .rightParen ")", atOrigin .semicolon ";",
    atOrigin (.keyword .else_) "ELSE", atOrigin .semicolon ";", atOrigin (.keyword .end_) "END",
    atOrigin (.keyword .else_) "ELSE", atOrigin (.keyword .repeat_) "REPEAT", atOrigin .identifier "x",
    atOrigin .plusAssign "+=", atOrigin .integer "1", atOrigin .semicolon ";", atOrigin (.keyword .until_) "UNTIL",
    atOrigin .identifier "y", atOrigin .semicolon ";", atOrigin .semicolon ";"]

theorem statements_round_trip_mixed :
    ∃ ss' t, statementList (.ofTokens (mixedStatementTokens ++ [atOrigin (.keyword .end_) "END"]).toArray {}) = (ss', t) ∧
      ss'.map unplaced = mixedStatements.map unplaced ∧ t.position = 33 ∧ t.diagnostics = #[] := by
  have hproper : ProperAll mixedStatements := by
    simp [mixedStatements, ProperAll, Proper, ProperBranches, Expr.proper, Expr.properAll, Expr.properBound, assigned,
      Desugars, AssignOp.binary?, endsOpen, Expr.level, Expr.unplaced]
  have hshown : Shown mixedStatementTokens (signsAll mixedStatements) := by
    repeat' first | exact ⟨rfl, rfl⟩ | rfl | constructor
  obtain ⟨ss', t, hread, hsame, hposition, -, hdiagnostics, -⟩ :=
    statements_round_trip (.ofTokens (mixedStatementTokens ++ [atOrigin (.keyword .end_) "END"]).toArray {})
      mixedStatements mixedStatementTokens [atOrigin (.keyword .end_) "END"] hproper hshown rfl rfl (by decide)
  exact ⟨ss', t, hread, hsame, hposition, hdiagnostics⟩

def negations (n : Nat) (e : Expr) : Expr := (List.replicate n UnaryOp.negate).foldr (.unary · · .origin) e

section

variable (he : e.level = 7)

include he

theorem level_negations (n : Nat) : 6 ≤ (negations n e).level := by
  cases n with
  | zero => exact he ▸ by decide
  | succ n => exact Nat.le_refl 6

theorem nesting_negations (n : Nat) : (negations n e).nesting = e.nesting + n := by
  induction n with
  | zero => rfl
  | succ n ih =>
      have hlevel := level_negations he n
      have hsucc : (negations (n + 1) e).nesting =
          Expr.groupNesting ((negations n e).level < 6) (negations n e).nesting + 1 := rfl
      rw [hsucc, decide_eq_false (Nat.not_lt.2 hlevel), ih]
      rfl

theorem shown_negations (h : Shown toks e.signs) (ht : t.kind = .minus) (n : Nat) :
    Shown (List.replicate n t ++ toks) (negations n e).signs := by
  induction n with
  | zero => exact h
  | succ n ih =>
      have hlevel := level_negations he n
      have hsucc : (negations (n + 1) e).signs =
          .mark .minus :: Expr.group ((negations n e).level < 6) (negations n e).signs := rfl
      rw [hsucc, decide_eq_false (Nat.not_lt.2 hlevel)]
      exact .cons ht ih

end

theorem proper_negations (h : e.proper false = true) (n : Nat) : (negations n e).proper false = true := by
  induction n with
  | zero => exact h
  | succ n ih => exact ih

/-- `x := - - … - y;` with as many signs as an expression may have, which a statement around it leaves no levels for. -/
def deepAssignment : Statement :=
  .assign (.identifier "x" .origin) .assign (negations 127 (.identifier "y" .origin)) .origin

def deepTokens : List Token :=
  [atOrigin .identifier "x", atOrigin .assign ":="] ++ (List.replicate 127 (atOrigin .minus "-") ++
    [atOrigin .identifier "y"] ++ [atOrigin .semicolon ";"])

def valuelessCase : Statement :=
  .caseOf (.identifier "x" .origin) [.mk [] (.empty .origin) .origin] none .origin

def valuelessTokens : List Token :=
  [atOrigin (.keyword .case_) "CASE", atOrigin .identifier "x", atOrigin (.keyword .of) "OF", atOrigin .colon ":",
    atOrigin .semicolon ";", atOrigin (.keyword .end_) "END", atOrigin .semicolon ";"]

/-- Levels of statements and of expressions that stay below the limit on their own do not suffice, and neither do
branches without values. -/
theorem statements_beyond_levels :
    (ProperAll [deepAssignment] ∧ Shown deepTokens (signsAll [deepAssignment]) ∧
      (negations 127 (.identifier "y" .origin)).nesting < maxNesting ∧
      (statementList (.ofTokens deepTokens.toArray {})).2.diagnostics ≠ #[]) ∧
    (Shown valuelessTokens (signsAll [valuelessCase]) ∧ levelsAll [valuelessCase] < maxNesting ∧
      (statementList (.ofTokens valuelessTokens.toArray {})).2.diagnostics ≠ #[]) := by
  have hproper : ProperAll [deepAssignment] :=
    ⟨⟨rfl, rfl, nofun, proper_negations rfl 127⟩, trivial⟩
  have hoperand : Shown [atOrigin .identifier "y"] (Expr.identifier "y" .origin).signs := .cons rfl .nil
  have hvalue : Shown (List.replicate 127 (atOrigin .minus "-") ++ [atOrigin .identifier "y"])
      (negations 127 (.identifier "y" .origin)).signs := shown_negations rfl hoperand rfl 127
  have hshown : Shown deepTokens (signsAll [deepAssignment]) :=
    .cons rfl (.cons rfl (List.rel_append hvalue (.cons rfl .nil)))
  have hdeep : (statementList (.ofTokens deepTokens.toArray {})).2.diagnostics.size = 1 := by decide +kernel
  have hcase : (statementList (.ofTokens valuelessTokens.toArray {})).2.diagnostics.size = 1 := by decide +kernel
  refine ⟨⟨hproper, hshown, ?_, ?_⟩, ?_, by decide, ?_⟩
  · rw [nesting_negations rfl]
    decide
  · intro hnone
    rw [hnone] at hdeep
    cases hdeep
  · repeat' first | exact ⟨rfl, rfl⟩ | rfl | constructor
  · intro hnone
    rw [hnone] at hcase
    cases hcase

end CalExport.Rule
