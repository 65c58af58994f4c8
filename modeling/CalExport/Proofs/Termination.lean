import CalExport.Proofs.Simulation.Object
import CalExport.Analysis

namespace CalExport.Rule

variable {α β : Type}

/-- Whenever a round asks for another one it has passed a token. -/
def Progresses (round : α → Parse (ForInStep α)) : Prop :=
  ∀ a s b t, round a s = (.yield b, t) → t.tokens = s.tokens ∧ s.position < t.position

def TryProgresses (round : α → Rule (ForInStep α)) : Prop :=
  ∀ a s b t, round a s = (.ok (.yield b), t) → t.tokens = s.tokens ∧ s.position < t.position

def Unrolls (round : α → Parse (ForInStep α)) : Prop :=
  ∀ a s, loop a round s = match round a s with
    | (.yield b, t) => loop b round t
    | (.done b, t) => (b, t)

def TryUnrolls (round : α → Rule (ForInStep α)) : Prop :=
  ∀ a s, tryLoop a round s = match round a s with
    | (.ok (.yield b), t) => tryLoop b round t
    | (.ok (.done b), t) => (.ok b, t)
    | (.error fault, t) => (.error fault, t)

/-- A round that cannot fail makes progress as one that may. -/
theorem Progresses.lift {round : α → Parse (ForInStep α)} (h : Progresses round) :
    TryProgresses fun a => liftM (round a) := by
  intro a s b t hrun
  dsimp only at hrun
  rw [liftM_apply, Prod.mk.injEq] at hrun
  exact h a s b t (Prod.ext (Except.ok.inj hrun.1) hrun.2)

theorem left_lt_of_position {s t : Parser} (h : t.tokens = s.tokens ∧ s.position < t.position) : t.left < s.left := by
  have ht := t.position_le
  rw [h.1] at ht
  simp only [Cursor.left, h.1]
  omega

theorem rounds_enough {round : α → Parse (ForInStep α)} (h : Progresses round) (n m : Nat) (a : α) (s : Parser)
    (hn : s.left < n) (hm : s.left < m) : rounds round n a s = rounds round m a s := by
  induction n generalizing m a s with
  | zero => exact absurd hn (Nat.not_lt_zero _)
  | succ n ih =>
      obtain ⟨m, rfl⟩ : ∃ j, m = j + 1 := ⟨m - 1, by omega⟩
      rcases hr : round a s with ⟨b | b, t⟩
      · rw [rounds_done hr, rounds_done hr]
      · have hlt := left_lt_of_position (h a s b t hr)
        rw [rounds_yield hr, rounds_yield hr]
        exact ih m b t (by omega) (by omega)

theorem tryRounds_enough {round : α → Rule (ForInStep α)} (h : TryProgresses round) (n m : Nat) (a : α) (s : Parser)
    (hn : s.left < n) (hm : s.left < m) : tryRounds round n a s = tryRounds round m a s := by
  induction n generalizing m a s with
  | zero => exact absurd hn (Nat.not_lt_zero _)
  | succ n ih =>
      obtain ⟨m, rfl⟩ : ∃ j, m = j + 1 := ⟨m - 1, by omega⟩
      rcases hr : round a s with ⟨fault | b | b, t⟩
      · rw [tryRounds_error hr, tryRounds_error hr]
      · rw [tryRounds_done hr, tryRounds_done hr]
      · have hlt := left_lt_of_position (h a s b t hr)
        rw [tryRounds_yield hr, tryRounds_yield hr]
        exact ih m b t (by omega) (by omega)

theorem Progresses.unrolls {round : α → Parse (ForInStep α)} (h : Progresses round) : Unrolls round := by
  intro a s
  unfold loop
  rcases hr : round a s with ⟨b | b, t⟩
  · rw [rounds_done hr]
  · have hlt := left_lt_of_position (h a s b t hr)
    rw [rounds_yield hr]
    exact rounds_enough h _ _ b t hlt (Nat.lt_succ_self _)

theorem TryProgresses.unrolls {round : α → Rule (ForInStep α)} (h : TryProgresses round) : TryUnrolls round := by
  intro a s
  unfold tryLoop
  rcases hr : round a s with ⟨fault | b | b, t⟩
  · rw [tryRounds_error hr]
  · rw [tryRounds_done hr]
  · have hlt := left_lt_of_position (h a s b t hr)
    rw [tryRounds_yield hr]
    exact tryRounds_enough h _ _ b t hlt (Nat.lt_succ_self _)

/-- Behind a round that agrees with itself. -/
theorem progresses_of_agree {round : α → Parse (ForInStep α)}
    (h : ∀ k a, Agree .same (Below k) Yields (round a) (round a)) : Progresses round := by
  intro a s b t hr
  have hforward := (h 0 a).steady s
  rcases (h (s.left + 1) a).alike rfl (Nat.lt_succ_self s.left) with hlost | ⟨hpass, -⟩
  · exact hlost.elim
  · rw [hr] at hforward hpass
    exact ⟨hforward.tokens, hforward.left_lt_iff.1 (hpass trivial)⟩

theorem tryProgresses_of_agree {round : α → Rule (ForInStep α)}
    (h : ∀ k a, RuleAgree .same (Below k) Yields (round a) (round a)) : TryProgresses round := by
  intro a s b t hr
  have hforward : Forward s (round a s).2 := (h 0 a).steady s
  have halike : Alike .same (okAnd Yields) s s (round a s) (round a s) :=
    (h (s.left + 1) a).alike rfl (Nat.lt_succ_self s.left)
  rcases halike with hlost | ⟨hpass, -⟩
  · exact hlost.elim
  · rw [hr] at hforward hpass
    exact ⟨hforward.tokens, hforward.left_lt_iff.1 (hpass trivial)⟩

/-- The rounds of the loops of the grammar that cannot fail. -/
inductive GrammarLoop : {α : Type} → (α → Parse (ForInStep α)) → Prop
  | skip (continues) : GrammarLoop (skipRound continues)
  | raw (stops) : GrammarLoop (rawRound stops)
  | skipItem (base recovery) : GrammarLoop (skipItemRound base recovery)
  | skipStatement : GrammarLoop skipStatementRound
  | statements (n) : GrammarLoop (listRound (statementAt n))
  | caseBranches (n) : GrammarLoop (caseBranchRound (statementAt n))
  | skipTexts : GrammarLoop skipTextRound
  | skipMisnamed : GrammarLoop skipMisnamedRound
  | variableBlock : GrammarLoop variableRound
  | skipAttributes : GrammarLoop skipAttributeRound
  | codeItems (depth) : GrammarLoop (codeRound depth)
  | properties : GrammarLoop propertyRound
  | fields : GrammarLoop (entryRound field)
  | keys : GrammarLoop (entryRound key)
  | fieldGroups : GrammarLoop (entryRound fieldGroup)
  | sections (depth) : GrammarLoop (sectionRound depth)
  | objectName : GrammarLoop objectNameRound

inductive GrammarTryLoop : {α : Type} → (α → Rule (ForInStep α)) → Prop
  | product (n) : GrammarTryLoop (leftAssocRound productOp? fun _ => unaryWith (deeper n))
  | sum (n) : GrammarTryLoop (leftAssocRound sumOp? fun _ => productWith (deeper n))
  | relation (n) : GrammarTryLoop (leftAssocRound relationOp? (relationRightWith (deeper n)))
  | equality (n) : GrammarTryLoop (leftAssocRound equalityOp? fun _ => relationWith (deeper n))
  | conjunction (n) : GrammarTryLoop (leftAssocRound andOp? fun _ => equalityWith (deeper n))
  | disjunction (n) : GrammarTryLoop (leftAssocRound orOp? fun _ => conjunctionWith (deeper n))
  | elements (n) : GrammarTryLoop (commaRound (elementWith (deeper n)))
  | arguments (n) : GrammarTryLoop (commaRound (deeper n).expression)
  | caseValues : GrammarTryLoop (commaRound element)
  | trailers (n start) : GrammarTryLoop (trailerRound (deeper n) start)
  | dimensions : GrammarTryLoop dimensionRound
  | modifiers : GrammarTryLoop modifierRound
  | parameterModifiers : GrammarTryLoop parameterModifierRound
  | parameters : GrammarTryLoop parameterRound

theorem contained_same : Simulation.same.Contained := Simulation.contained_of_closes trivial

theorem grammarLoop_progresses {round : α → Parse (ForInStep α)} (h : GrammarLoop round) : Progresses round := by
  apply progresses_of_agree
  intro k
  cases h with
  | skip continues =>
      refine agree_skipRound ?_ fun _ _ _ => trivial
      rintro s s' rfl _
      rfl
  | raw stops =>
      intro a
      exact (agree_rawRound stops a).mono (fun s hs => ⟨hs, fun _ _ => trivial⟩) fun _ h => h
  | skipItem base recovery =>
      intro a
      exact (agree_skipItemRound base recovery a).mono (fun s hs => ⟨hs, .inr trivial⟩) fun _ h => h
  | skipStatement => exact agree_skipStatementRound
  | statements n => exact agree_listRound (agree_statementAt n k)
  | caseBranches n =>
      intro a
      exact (agree_caseBranchRound (agree_statementAt n k) a).le (Nat.le_succ k)
  | skipTexts => exact agree_skipTextRound
  | skipMisnamed => exact agree_skipMisnamedRound trivial
  | variableBlock => exact agree_variableRound contained_same
  | skipAttributes => exact agree_skipAttributeRound trivial
  | codeItems depth => exact agree_codeRound trivial depth
  | properties => exact agree_propertyRound contained_same
  | fields => exact agree_entryRound contained_same (agree_field trivial)
  | keys => exact agree_entryRound contained_same (agree_key trivial)
  | fieldGroups => exact agree_entryRound contained_same (agree_fieldGroup trivial)
  | sections depth => exact agree_sectionRound trivial depth
  | objectName => exact agree_objectNameRound trivial

theorem grammarTryLoop_progresses {round : α → Rule (ForInStep α)} (h : GrammarTryLoop round) :
    TryProgresses round := by
  apply tryProgresses_of_agree
  intro k
  have hdeeper : ∀ n, Deeper.Agree .same k (deeper n) (deeper n) := fun n => agree_deeper n k
  have hleft : ∀ {operator? right}, operator? .eof = none → operator? .rightBrace = none →
      (∀ op, RuleAgree .same (Below (k + 1)) Always (right op) (right op)) →
      ∀ e, RuleAgree .same (Below k) Yields (leftAssocRound operator? right e) (leftAssocRound operator? right e) :=
    fun heof hbrace hright e => (agree_leftAssocRound heof hbrace hright e).le (Nat.le_succ k)
  cases h with
  | product n => exact hleft rfl rfl fun _ => agree_unaryWith (hdeeper n)
  | sum n => exact hleft rfl rfl fun _ => agree_productWith (hdeeper n)
  | relation n => exact hleft rfl rfl (agree_relationRightWith (hdeeper n))
  | equality n => exact hleft rfl rfl fun _ => agree_relationWith (hdeeper n)
  | conjunction n => exact hleft rfl rfl fun _ => agree_equalityWith (hdeeper n)
  | disjunction n => exact hleft rfl rfl fun _ => agree_conjunctionWith (hdeeper n)
  | elements n => exact agree_commaRound (agree_elementWith (hdeeper n)).never
  | arguments n => exact agree_commaRound (hdeeper n).expression.never
  | caseValues => exact agree_commaRound agree_element.never
  | trailers n start =>
      intro e
      exact (agree_trailerRound (hdeeper n) start e).le (Nat.le_succ k)
  | dimensions => exact agree_dimensionRound
  | modifiers => exact agree_modifierRound
  | parameterModifiers => exact agree_parameterModifierRound
  | parameters => exact agree_parameterRound

/-- A rule that only moves on, and past some token when it succeeds. -/
structure Consumes (x : Rule α) : Prop where
  steady : Steady (attempt x)
  passes {s a t} : x s = (.ok a, t) → s.position < t.position

/-- What is built of a rule depends on that rule only where fewer tokens are left: it is called behind a token. -/
def Guarded (build : Rule α → Rule β) : Prop :=
  ∀ x y s, Consumes x → Consumes y → (∀ t : Parser, t.left < s.left → x t = y t) → build x s = build y s

theorem Consumes.agree {x y : Rule α} (hx : Consumes x) (hy : Consumes y) {k : Nat}
    (h : ∀ t : Parser, t.left < k → x t = y t) : RuleAgree .same (Below k) Always x y := by
  refine ⟨hx.steady, ?_⟩
  rintro s s' rfl hs
  have hforward : Forward s' (x s').2 := hx.steady s'
  have heq : attempt x s' = attempt y s' := h s' hs
  refine .inr ⟨?_, hy.steady s', congrArg Prod.fst heq, (congrArg Prod.snd heq).symm⟩
  intro hok
  have hok : okAnd Always (x s').1 := hok
  rcases hr : x s' with ⟨fault | a, t⟩
  · rw [hr] at hok
    exact hok.elim
  · rw [hr] at hforward
    show (x s').2.left < s'.left
    rw [hr]
    exact hforward.left_lt_iff.2 (hx.passes hr)

theorem consumes_of_agree {x : Rule α} (h : ∀ k, RuleAgree .same (Below k) Always x x) : Consumes x := by
  refine ⟨(h 0).steady, ?_⟩
  intro s a t hr
  have hforward : Forward s (x s).2 := (h 0).steady s
  have halike : Alike .same (okAnd Always) s s (x s) (x s) :=
    (h (s.left + 1)).alike rfl (Nat.lt_succ_self s.left)
  rcases halike with hlost | ⟨hpass, -⟩
  · exact hlost.elim
  · rw [hr] at hforward hpass
    exact hforward.left_lt_iff.1 (hpass trivial)

theorem eq_of_agree {x y : Rule α} {k : Nat} (h : RuleAgree .same (Below k) Always x y) {s : Parser}
    (hs : s.left < k) : x s = y s := by
  have halike : Alike .same (okAnd Always) s s (x s) (y s) := h.alike rfl hs
  rcases halike with hlost | ⟨-, -, hresult, hstate⟩
  · exact hlost.elim
  · exact Prod.ext hresult hstate.symm

theorem guarded_of_agree {build : Rule α → Rule β}
    (h : ∀ k x y, RuleAgree .same (Below k) Always x y → RuleAgree .same (Below (k + 1)) Always (build x) (build y)) :
    Guarded build := by
  intro x y s hx hy heq
  exact eq_of_agree (h s.left x y (hx.agree hy heq)) (Nat.lt_succ_self _)

/-- The rules of every level pass a token when they succeed. -/
theorem consumes_levels (n : Nat) :
    Consumes (deeper n).expression ∧ Consumes (deeper n).unary ∧ Consumes (statementAt n) ∧
      Consumes (elementType n) :=
  ⟨consumes_of_agree fun k => (agree_deeper n k).expression, consumes_of_agree fun k => (agree_deeper n k).unary,
    consumes_of_agree (agree_statementAt n), consumes_of_agree (agree_elementType n)⟩

theorem guarded_expressionWith :
    (∀ unary, Consumes unary → Guarded fun expression => expressionWith ⟨expression, unary⟩) ∧
      ∀ expression, Consumes expression → Guarded fun unary => expressionWith ⟨expression, unary⟩ := by
  refine ⟨?_, ?_⟩
  · intro unary hunary
    apply guarded_of_agree
    intro k x y hxy
    exact agree_expressionWith ⟨hxy, hunary.agree hunary fun _ _ => rfl⟩
  · intro expression hexpression
    apply guarded_of_agree
    intro k x y hxy
    exact agree_expressionWith ⟨hexpression.agree hexpression fun _ _ => rfl, hxy⟩

theorem guarded_unaryWith :
    (∀ unary, Consumes unary → Guarded fun expression => unaryWith ⟨expression, unary⟩) ∧
      ∀ expression, Consumes expression → Guarded fun unary => unaryWith ⟨expression, unary⟩ := by
  refine ⟨?_, ?_⟩
  · intro unary hunary
    apply guarded_of_agree
    intro k x y hxy
    exact agree_unaryWith ⟨hxy, hunary.agree hunary fun _ _ => rfl⟩
  · intro expression hexpression
    apply guarded_of_agree
    intro k x y hxy
    exact agree_unaryWith ⟨hexpression.agree hexpression fun _ _ => rfl, hxy⟩

theorem guarded_statementWith : Guarded statementWith := guarded_of_agree fun _ _ _ h => agree_statementWith h

theorem guarded_dataTypeWith : Guarded dataTypeWith := guarded_of_agree fun _ _ _ h => agree_dataTypeWith h

theorem skipRound_yields {continues : Parser → Bool} {s : Parser} (h : (!s.atEnd && continues s) = true) :
    skipRound continues () s = (.yield (), (advance s).2) := if_pos h

theorem skipRound_stops {continues : Parser → Bool} {s : Parser} (h : ¬ (!s.atEnd && continues s) = true) :
    skipRound continues () s = (.done (), s) := if_neg h

/-- What passing a token keeps holds behind the tokens that are passed over, and no more of them are. -/
theorem skipWhile_spec (continues : Parser → Bool) {I : Parser → Prop}
    (hI : ∀ t, I t → t.atEnd = false → continues t = true → I (advance t).2) {s : Parser} (hs : I s) :
    I (skipWhile continues s).2 ∧ ((skipWhile continues s).2.atEnd = true ∨
      continues (skipWhile continues s).2 = false) := by
  have hrounds : ∀ n (s : Parser), s.left < n → I s → I (rounds (skipRound continues) n () s).2 ∧
      ((rounds (skipRound continues) n () s).2.atEnd = true ∨
        continues (rounds (skipRound continues) n () s).2 = false) := by
    intro n
    induction n with
    | zero =>
        intro s hn
        exact absurd hn (Nat.not_lt_zero _)
    | succ n ih =>
        intro s hn hs
        by_cases hgo : (!s.atEnd && continues s) = true
        · rw [rounds_yield (skipRound_yields hgo)]
          rw [Bool.and_eq_true, Bool.not_eq_true'] at hgo
          have hlt : (advance s).2.left < s.left := Cursor.left_next_lt hgo.1
          exact ih _ (by omega) (hI s hs hgo.1 hgo.2)
        · rw [rounds_done (skipRound_stops hgo)]
          refine ⟨hs, ?_⟩
          cases hend : s.atEnd with
          | true => exact .inl rfl
          | false =>
              rw [hend, Bool.not_false, Bool.true_and, Bool.not_eq_true] at hgo
              exact .inr hgo
  exact hrounds _ s (Nat.lt_succ_self _) hs

theorem skipTrailing_of_atEnd {s : Parser} (h : s.atEnd = true) : skipTrailing s = ((), s) := by
  rw [skipTrailing, atEnd, look_bind_apply, h]
  rfl

theorem skipTrailing_apply {s : Parser} (h : s.atEnd = false) :
    skipTrailing s = recordSkipped s.position "trailing input"
      (skipWhile (fun _ => true) (report (.expected "end of input" s.peek) s).2).2 := by
  have hposition : (report (.expected "end of input" s.peek) s).2.position = s.position := by
    rw [report, toCursor_record]
  rw [skipTrailing, atEnd, look_bind_apply, h, Bool.not_false, if_pos rfl]
  simp only [peek, here, bind_apply, look_apply, hposition]

theorem skipTrailing_atEnd (s : Parser) : (skipTrailing s).2.atEnd = true := by
  cases h : s.atEnd with
  | true => rw [skipTrailing_of_atEnd h, h]
  | false =>
      have hskip := skipWhile_spec (fun _ => true) (I := fun _ => True) (fun _ _ _ _ => trivial)
        (s := (report (.expected "end of input" s.peek) s).2) trivial
      rw [skipTrailing_apply h, toCursor_recordSkipped]
      rcases hskip.2 with hend | hgo
      · exact hend
      · cases hgo

theorem steady_skipAll : Steady (skipWhile fun _ => true) :=
  (agree_skipWhile (R := .same) (k := 0) (fun _ _ _ _ => rfl) fun _ _ _ => trivial).steady

theorem steady_skipTrailing : Steady skipTrailing := by
  intro s
  cases h : s.atEnd with
  | true =>
      rw [skipTrailing_of_atEnd h]
      exact Forward.refl s
  | false =>
      rw [skipTrailing_apply h]
      exact ((forward_record _ s).trans (steady_skipAll _)).trans (forward_recordSkipped _ _ _)

theorem reportedObject_apply (s : Parser) :
    reportedObject s = match object s with
      | (.ok o, t) => (some o, t)
      | (.error fault, t) => (none, (report fault t).2) := by
  have hattempt : attempt object s = (show Except Fault ExportObject from (object s).1, (object s).2) := rfl
  rw [reportedObject, bind_apply, hattempt]
  rcases object s with ⟨fault | o, t⟩ <;> rfl

theorem steady_object : Steady (attempt object) := (agree_object (R := .same) (k := 0) trivial).steady

theorem steady_reportedObject : Steady reportedObject := by
  intro s
  have hobject : Forward s (object s).2 := steady_object s
  rw [reportedObject_apply]
  rcases hr : object s with ⟨fault | o, t⟩
  · rw [hr] at hobject
    exact hobject.trans (forward_record _ t)
  · rw [hr] at hobject
    exact hobject

/-- There is an object, or a diagnostic that tells why there is none. -/
theorem diagnostics_of_reportedObject {s : Parser} (h : (reportedObject s).1 = none) :
    0 < (reportedObject s).2.diagnostics.size := by
  rw [reportedObject_apply] at h ⊢
  rcases hr : object s with ⟨fault | o, t⟩
  · exact diagnostics_record_ne _ t
  · rw [hr] at h
    cases h

theorem document_of_atEnd {s : Parser} (h : s.atEnd = true) :
    document s = ({ object := none, span := s.spanFrom s.position }, s) := by
  rw [document, here, look_bind_apply, atEnd, look_bind_apply, h, if_pos rfl]
  rfl

theorem document_apply {s : Parser} (h : s.atEnd = false) :
    document s = ({ object := (reportedObject s).1
                    span := (skipTrailing (reportedObject s).2).2.spanFrom s.position },
      (skipTrailing (reportedObject s).2).2) := by
  rw [document, here, look_bind_apply, atEnd, look_bind_apply, h, if_neg Bool.false_ne_true]
  simp only [bind_apply, spanFrom, look_apply, pure_apply]

theorem document_end (s : Parser) :
    Forward s (document s).2 ∧ (document s).2.atEnd = true ∧
      ((document s).1.object = none → (document s).2.diagnostics = #[] → s.atEnd = true) := by
  cases h : s.atEnd with
  | true =>
      rw [document_of_atEnd h]
      exact ⟨Forward.refl s, h, fun _ _ => rfl⟩
  | false =>
      rw [document_apply h]
      have htrailing := steady_skipTrailing (reportedObject s).2
      refine ⟨(steady_reportedObject s).trans htrailing, skipTrailing_atEnd _, ?_⟩
      intro hnone hempty
      have hpos := diagnostics_of_reportedObject hnone
      have hle := htrailing.diagnostics
      rw [hempty] at hle
      exact absurd (Nat.lt_of_lt_of_le hpos hle) (Nat.not_lt_zero 0)

theorem wholeDocument_apply (s : Parser) :
    ∃ first last, wholeDocument s =
      ((document (note first s).2).1, (note last (document (note first s).2).2).2) := ⟨_, _, rfl⟩

/-- For all tokens, in any order: the loops go on only behind a token more and their bound is never met; the rules
that call themselves do so only behind a token more; and in the end all tokens are passed, every level is left, and
there is an object or a diagnostic unless there was no token. -/
theorem reading_ends :
    (∀ {α : Type} {round : α → Parse (ForInStep α)}, GrammarLoop round → Progresses round ∧ Unrolls round) ∧
    (∀ {α : Type} {round : α → Rule (ForInStep α)}, GrammarTryLoop round → TryProgresses round ∧ TryUnrolls round) ∧
    (∀ n, Consumes (deeper n).expression ∧ Consumes (deeper n).unary ∧ Consumes (statementAt n) ∧
      Consumes (elementType n)) ∧
    ((∀ unary, Consumes unary → Guarded fun expression => expressionWith ⟨expression, unary⟩) ∧
      ∀ expression, Consumes expression → Guarded fun unary => expressionWith ⟨expression, unary⟩) ∧
    ((∀ unary, Consumes unary → Guarded fun expression => unaryWith ⟨expression, unary⟩) ∧
      ∀ expression, Consumes expression → Guarded fun unary => unaryWith ⟨expression, unary⟩) ∧
    Guarded statementWith ∧ Guarded dataTypeWith ∧
    ∀ (tokens : Array Token) (preferences : ParserPreferences) (events : Array Event),
      let run := wholeDocument { Parser.ofTokens tokens preferences with events }
      run.2.position = (tokens.filter fun t => t.kind ≠ .eof).size ∧ run.2.atEnd = true ∧ run.2.nesting = 0 ∧
        (run.1.object = none → run.2.diagnostics = #[] → ∀ t ∈ tokens, t.kind = .eof) := by
  refine ⟨fun h => ?_, fun h => ?_, consumes_levels, guarded_expressionWith, guarded_unaryWith,
    guarded_statementWith, guarded_dataTypeWith, ?_⟩
  · have hround := grammarLoop_progresses h
    exact ⟨hround, hround.unrolls⟩
  · have hround := grammarTryLoop_progresses h
    exact ⟨hround, hround.unrolls⟩
  · intro tokens preferences events
    dsimp only
    generalize hstart : ({ Parser.ofTokens tokens preferences with events } : Parser) = s
    have htokens : s.tokens = tokens.filter fun t => t.kind ≠ .eof := by rw [← hstart]; rfl
    have hnesting : s.nesting = 0 := by rw [← hstart]; rfl
    have hposition : s.position = 0 := by rw [← hstart]; rfl
    obtain ⟨first, last, hrun⟩ := wholeDocument_apply s
    obtain ⟨hforward, hend, hobject⟩ := document_end (note first s).2
    rw [hrun]
    refine ⟨?_, hend, hforward.nesting.trans hnesting, ?_⟩
    · have hsize := Cursor.atEnd_iff.1 hend
      rw [hforward.tokens] at hsize
      exact hsize.trans (congrArg Array.size htokens)
    · intro hnone hempty t ht
      have hleft : s.atEnd = true := hobject hnone hempty
      rw [Cursor.atEnd_iff, hposition, htokens] at hleft
      apply Decidable.byContradiction
      intro hkind
      have hmem : t ∈ tokens.filter fun t => t.kind ≠ .eof := Array.mem_filter.2 ⟨ht, by simpa using hkind⟩
      exact absurd (Array.size_pos_of_mem hmem) (by omega)

def brokenField : Array Token :=
  (Lexer.read ("OBJECT Table 1 T\x7bFIELDS\x7b\x7b1;;A;Integer\x7d\x7bB\x7d\x7d" ++
    "CODE\x7bPROCEDURE P();BEGIN BEGIN x END END;\x7d\x7d")).1.tokens

def secondField : Parser := .ofTokens (brokenField.extract 15 19) {}

def nestedBody : Parser := .ofTokens (brokenField.extract 26 31) {}

def below (k : Nat) (x : Rule α) : Rule α := fun s => if s.left < k then x s else (.error (.nestingTooDeep .origin), s)

theorem Consumes.below {x : Rule α} (h : Consumes x) (k : Nat) : Consumes (below k x) := by
  constructor
  · intro s
    show Forward s (Rule.below k x s).2
    unfold Rule.below
    split
    · exact h.steady s
    · exact Forward.refl s
  · intro s a t hrun
    unfold Rule.below at hrun
    split at hrun
    · exact h.passes hrun
    · cases hrun

theorem reading_ends_brokenField :
    (∃ found t, entryRound field #[] secondField = (.yield found, t) ∧ secondField.position < t.position ∧
      loop #[] (entryRound field) secondField = loop found (entryRound field) t) ∧
    (statementWith (below nestedBody.left (statementAt 2)) nestedBody = statementWith (statementAt 2) nestedBody ∧
      (statementWith (statementAt 2) nestedBody).2.diagnostics.size = 0) ∧
    (wholeDocument (Parser.ofTokens brokenField {})).2.position = 34 ∧
    (wholeDocument (Parser.ofTokens brokenField {})).2.nesting = 0 ∧
    (wholeDocument (Parser.ofTokens brokenField {})).2.diagnostics.size = 1 ∧
    ∀ t ∈ #[Token.endAfter Text.Span.origin], t.kind = .eof := by
  -- One evaluation, so that the source is read once.
  have hfacts : (brokenField.filter fun t => t.kind ≠ .eof).size = 34 ∧
      (wholeDocument (Parser.ofTokens brokenField {})).2.diagnostics.size = 1 ∧
      (statementWith (statementAt 2) nestedBody).2.diagnostics.size = 0 ∧
      ForInStep.casesOn (motive := fun _ => Bool) (entryRound field #[] secondField).1 (fun _ => false) (fun _ => true) =
        true := by decide +kernel
  obtain ⟨hsize, hreported, hclean, hround⟩ := hfacts
  obtain ⟨hloop, -, hlevels, -, -, hstatement, -, hrun⟩ := reading_ends
  obtain ⟨hprogress, hunrolls⟩ := hloop .fields
  obtain ⟨-, -, hstatements, -⟩ := hlevels 2
  obtain ⟨hposition, -, hnesting, -⟩ := hrun brokenField {} #[]
  refine ⟨?_, ⟨?_, hclean⟩, hposition.trans hsize, hnesting, hreported,
    (hrun #[Token.endAfter Text.Span.origin] {} #[]).2.2.2 rfl rfl⟩
  · have hfirst := hunrolls #[] secondField
    rcases hrun : entryRound field #[] secondField with ⟨found | found, t⟩
    · rw [hrun] at hround
      cases hround
    · rw [hrun] at hfirst
      exact ⟨found, t, rfl, (hprogress _ _ _ _ hrun).2, hfirst⟩
  · apply hstatement _ _ _ (hstatements.below _) hstatements
    intro t ht
    exact if_pos ht

end CalExport.Rule
