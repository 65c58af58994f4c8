import CalExport.Proofs.Simulation.Rule
import CalExport.Rule.Leaf
import CalExport.Rule.Recovery

namespace CalExport.Rule

variable {α β : Type} {R : Simulation} {P : Parser → Prop} {k : Nat}

theorem agree_semicolon : Agree R (Below k) Never semicolon semicolon := by
  refine Agree.accept_bind ⟨nofun, nofun⟩ fun found => ?_
  split
  · apply Agree.peek
    intro t
    exact Agree.report _
  · exact Agree.pure id

theorem agree_boundedValue (largest : Nat) (t : Token) :
    Agree R (Below k) Never (boundedValue largest t) (boundedValue largest t) := by
  unfold boundedValue
  dsimp only
  split
  · exact Agree.pure id
  · apply Agree.bind (Agree.report _)
    intro
    exact Agree.pure id

theorem agree_integerValue (t : Token) : Agree R (Below k) Never (integerValue t) (integerValue t) := by
  apply Agree.bind (agree_boundedValue _ t)
  intro n
  exact Agree.pure id

theorem agree_integer : RuleAgree R (Below k) Always integer integer := by
  refine RuleAgree.accept_bind ⟨nofun, nofun⟩ fun negative => ?_
  refine RuleAgree.expect_then ⟨nofun, nofun⟩ fun t => ?_
  apply RuleAgree.step (agree_integerValue t)
  intro n
  exact RuleAgree.pure id

theorem agree_size : RuleAgree R (Below k) Always size size := by
  refine RuleAgree.expect_then ⟨nofun, nofun⟩ fun t => ?_
  exact RuleAgree.lift (agree_boundedValue _ t)

theorem agree_autoNumber : RuleAgree R (Below k) Never autoNumber autoNumber := by
  refine RuleAgree.accept_ite ⟨nofun, nofun⟩ ?_ ?_
  · apply RuleAgree.bind agree_integer.never
    intro n
    exact RuleAgree.pure id
  · exact RuleAgree.pure id

/-- Only words can be names. -/
theorem may_of_canName {t : Token} (h : t.kind.canName = true) : R.May t.kind := R.may_of_test rfl rfl h

theorem agree_declaredName (role : String) :
    RuleAgree R (Below k) Always (declaredName role) (declaredName role) := by
  apply RuleAgree.peek
  intro t
  split
  · rename_i hname
    apply RuleAgree.advance_token (may_of_canName hname)
    intro _
    apply RuleAgree.bind agree_autoNumber
    intro n
    exact RuleAgree.pure id
  · split
    · exact RuleAgree.throw _
    · exact RuleAgree.throw _

theorem tokenAt_advance (s : Parser) (i : Nat) : (advance s).2.tokenAt i = s.tokenAt i := by
  show s.toCursor.next.tokenAt i = _
  rw [Cursor.tokenAt, Cursor.tokens_next, Cursor.eof_next, ← Cursor.tokenAt]

theorem peekAhead_advance {s : Parser} (h : s.peek.kind ≠ .eof) (i : Nat) :
    (advance s).2.peekAhead i = s.peekAhead (i + 1) := by
  rw [Ne, Cursor.kind_peek_eq_eof, Bool.not_eq_true] at h
  have hposition : (advance s).2.position = s.position + 1 := Cursor.position_next h
  rw [Cursor.peekAhead, Cursor.peekAhead, tokenAt_advance, hposition, Nat.add_assoc, Nat.add_comm 1 i]

theorem advanceBy_succ (n : Nat) (s : Parser) :
    advanceBy (n + 1) s = (s.peek :: (advanceBy n (advance s).2).1, (advanceBy n (advance s).2).2) := rfl

theorem steady_advanceBy (n : Nat) : Steady (advanceBy n) := by
  intro s
  induction n generalizing s with
  | zero => exact Forward.refl s
  | succ n ih => exact (forward_advance s).trans (ih _)

theorem advanceBy_passes {n : Nat} {s : Parser} (hn : 0 < n) (h : s.peek.kind ≠ .eof) :
    (advanceBy n s).2.left < s.left := by
  obtain ⟨m, rfl⟩ : ∃ m, n = m + 1 := ⟨n - 1, by omega⟩
  rw [advanceBy_succ]
  exact Nat.lt_of_le_of_lt (steady_advanceBy m _).left_le (left_advance_lt h)

/-- Passing tokens that were all seen before. -/
theorem agree_advanceBy (n : Nat) :
    Agree R (fun s => ∀ i < n, R.May (s.peekAhead i).kind) Never (advanceBy n) (advanceBy n) := by
  refine ⟨steady_advanceBy n, ?_⟩
  intro s s' hs hmay
  induction n generalizing s s' with
  | zero => exact .inr ⟨fun h => h.elim, Forward.refl s', rfl, hs⟩
  | succ n ih =>
      have hfirst : R.May s.peek.kind := hmay 0 (Nat.succ_pos n)
      rw [advanceBy_succ, advanceBy_succ, R.peek_eq hs]
      rcases R.advance hs hfirst.2 with hlost | hrel
      · exact .inl (R.lost_of_forward (steady_advanceBy n _) hlost)
      · have hnext : ∀ i < n, R.May ((advance s).2.peekAhead i).kind := by
          intro i hi
          rw [peekAhead_advance hfirst.1]
          exact hmay (i + 1) (Nat.succ_lt_succ hi)
        rcases ih hrel hnext with hlost | ⟨-, hforward, heq, hrel'⟩
        · exact .inl hlost
        · exact .inr ⟨fun h => h.elim, (forward_advance s').trans hforward, congrArg (s.peek :: ·) heq, hrel'⟩

theorem declarationFollows_eq (ha : R.ahead) {s s' : Parser} (hs : R.rel s s') (hk : s.peek.kind ≠ .rightBrace) :
    declarationFollows s' = declarationFollows s := by
  unfold declarationFollows
  rw [R.next_eq ha hs hk]

theorem agree_rawRound (stops : Kind → Bool) (a : Array Token × Nat) :
    Agree R (fun s => Below k s ∧ (a.2 ≠ 0 ∨ ¬ stops .rightBrace → s.peek.kind = .rightBrace → R.closes)) Yields
      (rawRound stops a) (rawRound stops a) := by
  obtain ⟨taken, depth⟩ := a
  apply Agree.peekKind
  intro κ
  split
  · exact Agree.pure id
  · rename_i hgo
    apply Agree.advance (k := k)
    · rintro s ⟨⟨hs, hbrace⟩, rfl⟩
      refine ⟨hs, fun h => hgo (.inl h), ?_⟩
      intro hclose
      apply hbrace _ hclose
      simpa [hclose, opensBracket, Classical.or_iff_not_imp_left] using hgo
    · intro t
      exact Agree.pure id

/-- What is needed where no closing brace may be passed: the values of columns end in front of one, and no brace is
opened. -/
structure Simulation.Contained (R : Simulation) : Prop where
  raw (k : Nat) : Agree R (Below k) Never (raw endsColumn) (raw endsColumn)
  level {s s' t t'} : R.rel s s' → R.rel t t' → s.braceDepth < t.braceDepth → R.closes
  ahead : R.ahead

theorem Simulation.contained_of_closes (h : R.closes) : R.Contained := by
  refine ⟨fun k => ?_, fun _ _ _ => h, R.ahead_of_closes h⟩
  refine Agree.bind (Agree.loop ?_ _) fun a => Agree.pure id
  intro a
  exact (agree_rawRound endsColumn a).mono (fun s hs => ⟨hs, fun _ _ => h⟩) fun _ ha => ha

theorem agree_skipRound {c c' : Parser → Bool} (hc : ∀ s s', R.rel s s' → s.atEnd = false → c' s' = c s)
    (hbrace : ∀ s, c s = true → s.peek.kind = .rightBrace → R.closes) (a : Unit) :
    Agree R (Below k) Yields (skipRound c a) (skipRound c' a) := by
  have happly : ∀ c : Parser → Bool, skipRound c a = test (fun s => !s.atEnd && c s) >>= fun b =>
      if b = true then Rule.advance >>= fun _ => pure (.yield ()) else pure (.done ()) := by
    intro c
    funext s
    show (if (!s.atEnd && c s) = true then _ else _) = _
    rw [test, look_bind_apply]
    split <;> rfl
  rw [happly c, happly c']
  apply Agree.test
  · intro s s' hs _
    rw [R.atEnd_eq hs]
    cases hend : s.atEnd with
    | true => rfl
    | false => rw [hc s s' hs hend]
  · intro b
    split
    · apply Agree.advance (k := k)
      · rintro s ⟨hs, rfl⟩
        rename_i hgo
        rw [Bool.and_eq_true, Bool.not_eq_true'] at hgo
        refine ⟨hs, ?_, hbrace s hgo.2⟩
        rw [Ne, Cursor.kind_peek_eq_eof, Bool.not_eq_true]
        exact hgo.1
      · intro t
        exact Agree.pure id
    · exact Agree.pure id

theorem agree_skipWhile {c c' : Parser → Bool} (hc : ∀ s s', R.rel s s' → s.atEnd = false → c' s' = c s)
    (hbrace : ∀ s, c s = true → s.peek.kind = .rightBrace → R.closes) :
    Agree R (Below k) Never (skipWhile c) (skipWhile c') := Agree.loop (agree_skipRound hc hbrace) ()

theorem agree_skipItemRound (base : Nat) (recovery : List Kind) (a : Unit) :
    Agree R (fun s => Below k s ∧ (s.braceDepth ≤ base ∨ R.closes)) Yields
      (skipItemRound base recovery a) (skipItemRound (base + R.deep) recovery a) := by
  apply Agree.peekKind
  intro κ
  apply Agree.openBeyond
  intro opened
  split
  · exact Agree.pure id
  · split
    · split
      · exact Agree.pure id
      · apply Agree.advance (k := k)
        · rintro s ⟨⟨⟨hs, hlevel⟩, rfl⟩, hopened⟩
          refine ⟨hs, by assumption, fun _ => ?_⟩
          rcases hlevel with hle | hcloses
          · omega
          · exact hcloses
        · intro t
          split <;> exact Agree.pure id
    · split
      · exact Agree.pure id
      · apply Agree.advance (k := k)
        · rintro s ⟨⟨⟨hs, -⟩, rfl⟩, -⟩
          exact ⟨hs, by assumption, fun h => absurd h (by assumption)⟩
        · intro t
          exact Agree.pure id

theorem agree_skipItem (hR : R.Contained) (base : Nat) (recovery : List Kind) :
    Agree R (fun s => Below k s ∧ (s.braceDepth ≤ base ∨ R.closes)) Never
      (skipItem base recovery) (skipItem (base + R.deep) recovery) := by
  refine Agree.loop_of (agree_skipItemRound base recovery) ⟨?_⟩ ()
  intro _ _ s s' t t' hs ht _ hlevel
  rcases hlevel with hle | hcloses
  · by_cases hlt : base < t.braceDepth
    · exact .inr (hR.level hs ht (Nat.lt_of_le_of_lt hle hlt))
    · exact .inl (Nat.le_of_not_lt hlt)
  · exact .inr hcloses

theorem agree_forceProgress (start : Nat) :
    Agree R (Below k) Never (forceProgress start) (forceProgress (start + R.shift)) := by
  apply Agree.peekKind
  intro κ
  apply Agree.passedSince
  intro passed
  split
  · rename_i hstuck
    apply Agree.advance (k := k)
    · rintro s ⟨⟨hs, rfl⟩, -⟩
      exact ⟨hs, hstuck.2.1, fun h => absurd h hstuck.2.2⟩
    · intro t
      exact Agree.pure id
  · exact Agree.pure id

theorem forceProgress_apply (start : Nat) (s : Parser) :
    forceProgress start s =
      if s.position - start = 0 ∧ s.peek.kind ≠ .eof ∧ s.peek.kind ≠ .rightBrace then ((), (advance s).2)
      else ((), s) := by
  have h : forceProgress start s =
      (if s.position - start = 0 ∧ s.peek.kind ≠ .eof ∧ s.peek.kind ≠ .rightBrace then advance >>= fun _ => pure ()
        else pure () : Parse Unit) s := rfl
  rw [h]
  split <;> rfl

/-- Behind a step that began in front of a token other than a closing brace. -/
theorem forceProgress_passes {s t : Parser} (h : Forward s t) (heof : s.peek.kind ≠ .eof)
    (hbrace : s.peek.kind ≠ .rightBrace) : (forceProgress s.position t).2.left < s.left := by
  rw [forceProgress_apply]
  by_cases hp : t.position = s.position
  · have hpeek := h.peek_eq hp
    have hstuck : t.position - s.position = 0 := by omega
    rw [hpeek, if_pos ⟨hstuck, heof, hbrace⟩]
    have hlt : (advance t).2.left < t.left := left_advance_lt (hpeek.symm ▸ heof)
    exact Nat.lt_of_lt_of_le hlt h.left_le
  · have hlt : s.position < t.position := Nat.lt_of_le_of_ne h.position (Ne.symm hp)
    rw [if_neg (by omega), h.left_lt_iff]
    exact hlt

theorem agree_recoverItem (hR : R.Contained) (base start : Nat) (recovery : List Kind) :
    Agree R (fun s => Below k s ∧ (s.braceDepth ≤ base ∨ R.closes)) Never
      (recoverItem base start recovery) (recoverItem (base + R.deep) (start + R.shift) recovery) := by
  apply Agree.here
  intro skipStart
  apply Agree.bind_of (k := k) (fun _ hs => hs.1) (agree_skipItem hR base recovery) (fun _ h => h.elim)
  intro _ _
  refine Agree.accept_bind ⟨nofun, nofun⟩ fun found => ?_
  refine Agree.bind (agree_forceProgress start) fun _ => ?_
  exact Agree.recordSkipped skipStart _

theorem steady_skipItem (base : Nat) (recovery : List Kind) : Steady (skipItem base recovery) :=
  (agree_skipItem (R := .same) (k := 0) (Simulation.contained_of_closes trivial) base recovery).steady

theorem steady_recoverItem (base start : Nat) (recovery : List Kind) : Steady (recoverItem base start recovery) :=
  (agree_recoverItem (R := .same) (k := 0) (Simulation.contained_of_closes trivial) base start recovery).steady

theorem recoverItem_apply (base start : Nat) (recovery : List Kind) (s : Parser) :
    recoverItem base start recovery s = recordSkipped s.position "error recovery"
      (forceProgress start (accept .semicolon (skipItem base recovery s).2).2).2 := by
  simp only [recoverItem, here, look_apply, bind_apply]

theorem recoverItem_passes (base : Nat) (recovery : List Kind) {s t : Parser} (h : Forward s t)
    (heof : s.peek.kind ≠ .eof) (hbrace : s.peek.kind ≠ .rightBrace) :
    (recoverItem base s.position recovery t).2.left < s.left := by
  have hskip : Forward s (skipItem base recovery t).2 :=
    h.trans (steady_skipItem base recovery t)
  have haccept : Forward s (accept .semicolon (skipItem base recovery t).2).2 :=
    hskip.trans (forward_accept .semicolon _)
  have hforce := forceProgress_passes haccept heof hbrace
  rw [recoverItem_apply]
  exact Nat.lt_of_le_of_lt (forward_recordSkipped t.position _ _).left_le hforce

theorem withRecovery_of_ok {recovery : List Kind} {rule : Rule α} {a : α} {s t : Parser} (h : rule s = (.ok a, t)) :
    withRecovery recovery rule s = (some a, t) := by
  have h' : attempt rule s = (.ok a, t) := h
  rw [withRecovery, depth, look_bind_apply, here, look_bind_apply, bind_apply, h']
  rfl

theorem withRecovery_of_error {recovery : List Kind} {rule : Rule α} {fault : Fault} {s t : Parser}
    (h : rule s = (.error fault, t)) :
    withRecovery recovery rule s =
      (none, (recoverItem s.braceDepth s.position recovery (report fault t).2).2) := by
  have h' : attempt rule s = (.error fault, t) := h
  rw [withRecovery, depth, look_bind_apply, here, look_bind_apply, bind_apply, h']
  simp only [bind_apply, pure_apply]

/-- An item that is tried in front of a token other than a closing brace passes that token in any case. -/
theorem agree_withRecovery (hR : R.Contained) (recovery : List Kind) {x y : Rule α}
    (hx : RuleAgree R (Below k) Always x y) :
    Agree R (fun s => Below k s ∧ s.peek.kind ≠ .eof ∧ s.peek.kind ≠ .rightBrace) Always
      (withRecovery recovery x) (withRecovery recovery y) := by
  apply Agree.depth
  intro base
  apply Agree.start
  intro start
  apply Agree.recover (k := k) (fun s hs => hs.1.1.1) (hx.of_below fun s hs => hs.1.1.1)
  · intro a
    exact Agree.pure id
  · intro e
    apply Agree.of_related (Q := fun t => Below k t ∧ (t.braceDepth ≤ base ∨ R.closes))
    · apply Agree.report_then
      · intro s t hcursor hs
        rwa [Below, Cursor.left, hcursor]
      · apply Agree.bind_of (k := k) (fun _ hs => hs.1) (agree_recoverItem hR base start recovery) (fun _ h => h.elim)
        intro _ _
        exact Agree.pure id
    · rintro t t' ht ⟨hk, s, s', hs, ⟨-, hbase⟩, -⟩
      refine ⟨hk, ?_⟩
      by_cases hlt : base < t.braceDepth
      · exact .inr (hR.level hs ht (hbase.symm ▸ hlt))
      · exact .inl (Nat.le_of_not_lt hlt)
  · rintro e s t ⟨⟨⟨-, heof, hbrace⟩, -⟩, rfl⟩ h _
    simp only [bind_apply, pure_apply]
    exact recoverItem_passes base recovery (h.trans (forward_record _ t)) heof hbrace

theorem agree_skipStatementRound (a : Unit) :
    Agree R (Below k) Yields (skipStatementRound a) (skipStatementRound a) := by
  apply Agree.peekKind
  intro κ
  split
  · exact Agree.pure id
  · rename_i hgo
    rw [not_or] at hgo
    apply Agree.advance_kind ⟨hgo.1, fun h => absurd (h ▸ rfl) hgo.2⟩
    intro t
    split <;> exact Agree.pure id

theorem agree_skipStatement : Agree R (Below k) Never skipStatement skipStatement := by
  apply Agree.here
  intro start
  refine Agree.bind (Agree.loop agree_skipStatementRound ()) fun _ => ?_
  exact Agree.recordSkipped start _

theorem steady_skipStatement : Steady skipStatement := (agree_skipStatement (R := .same) (k := 0)).steady

theorem sectionStarts_eq (ha : R.ahead) {s s' : Parser} (hs : R.rel s s') : sectionStarts s' = sectionStarts s := by
  unfold sectionStarts
  rw [R.peek_eq hs]
  by_cases hbrace : s.peek.kind = .rightBrace
  · rw [hbrace]
  · rw [Cursor.checkNext, R.next_eq ha hs hbrace, ← Cursor.checkNext]

theorem agree_skipToSection (hR : R.closes) (depth : Nat) (reason : String) :
    Agree R (Below k) Never (skipToSection depth reason) (skipToSection (depth + R.deep) reason) := by
  apply Agree.here
  intro start
  refine Agree.bind (agree_skipWhile ?_ fun _ _ _ => hR) fun _ => ?_
  · intro s s' hs _
    simp only [sectionStarts_eq (R.ahead_of_closes hR) hs, Cursor.check, R.peek_eq hs, R.braceDepth_eq hs, Nat.add_le_add_iff_right]
  · apply Agree.passedSince
    intro count
    split
    · refine Agree.bind_of (k := k) (fun _ hs => hs.1) (Agree.note _) (fun _ h => h.elim) fun _ _ => ?_
      exact Agree.recordSkipped start reason
    · exact Agree.pure id

theorem steady_skipToSection (depth : Nat) (reason : String) : Steady (skipToSection depth reason) :=
  (agree_skipToSection (R := .same) (k := 0) trivial depth reason).steady

/-- `BEGIN END.` is seen as far as it goes: none of its tokens is a brace. -/
theorem documentationStarts_eq (ha : R.ahead) {s s' : Parser} (hs : R.rel s s') :
    documentationStarts s' = documentationStarts s := by
  unfold documentationStarts
  rw [R.peek_eq hs]
  by_cases hbegin : s.peek.kind = .keyword .begin_
  · rw [R.next_eq ha hs (by rw [hbegin]; nofun)]
    by_cases hend : (s.peekAhead 1).kind = .keyword .end_
    · rw [R.peekAhead_eq ha hs 2]
      intro i hi
      obtain rfl | rfl : i = 0 ∨ i = 1 := by omega
      · show s.peek.kind ≠ _
        rw [hbegin]
        nofun
      · rw [hend]
        nofun
    · simp only [beq_eq_false_iff_ne.2 hend, Bool.and_false, Bool.false_and]
  · simp only [beq_eq_false_iff_ne.2 hbegin, Bool.false_and]

theorem kinds_of_documentationStarts {s : Parser} (h : documentationStarts s = true) :
    s.peek.kind = .keyword .begin_ ∧ (s.peekAhead 1).kind = .keyword .end_ ∧ (s.peekAhead 2).kind = .dot := by
  rw [documentationStarts, Bool.and_eq_true, Bool.and_eq_true, beq_iff_eq, beq_iff_eq, beq_iff_eq] at h
  exact ⟨h.1.1, h.1.2, h.2⟩

theorem declarationBoundary_eq (ha : R.ahead) {s s' : Parser} (hs : R.rel s s') (depth : Nat) :
    declarationBoundary (depth + R.deep) s' = declarationBoundary depth s := by
  unfold declarationBoundary
  simp only [R.peek_eq hs, documentationStarts_eq ha hs, R.braceDepth_eq hs, Nat.add_le_add_iff_right]

theorem agree_skipDeclaration (hR : R.closes) (depth : Nat) :
    Agree R (Below k) Never (skipDeclaration depth) (skipDeclaration (depth + R.deep)) := by
  apply Agree.here
  intro start
  refine Agree.bind (agree_skipWhile ?_ fun _ _ _ => hR) fun _ => ?_
  · intro s s' hs _
    rw [declarationBoundary_eq (R.ahead_of_closes hR) hs]
  · exact Agree.recordSkipped start _

theorem steady_skipDeclaration (depth : Nat) : Steady (skipDeclaration depth) :=
  (agree_skipDeclaration (R := .same) (k := 0) trivial depth).steady

end CalExport.Rule
