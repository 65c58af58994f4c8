import CalExport.Proofs.Window.Local

namespace CalExport.Rule

variable {α : Type} {W : Window} {s s' t : Parser}

def goesOn : Kind → Bool
  | .leftBrace | .colon | .atSign | .semicolon | .keyword .begin_ => true
  | _ => false

def endsDeclaredName : Kind → Bool
  | .colon | .atSign => true
  | _ => false

structure Window.Ends (W : Window) : Prop where
  first : ∀ i, W.Edge i → goesOn (W.first i).kind = false
  second : ∀ i, W.Edge i → goesOn (W.second i).kind = false

namespace Window.Ends

theorem ne_second (h : W.Ends) {κ : Kind} (hκ : goesOn κ = true) {i : Nat} (hi : W.Edge i) : (W.second i).kind ≠ κ := by
  intro heq
  have hfalse := h.second i hi
  rw [heq, hκ] at hfalse
  cases hfalse

/-- A test of the next token but one that is passed only in front of a token a declaration goes on with. -/
theorem next_eq (h : W.Ends) (hmeets : Meets W s s') (hs : W.sees s.position) {c : Kind → Bool}
    (hc : ∀ κ, goesOn κ = false → c κ = false) :
    c (s'.peekAhead 1).kind = c (s.peekAhead 1).kind := by
  by_cases hnext : W.sees (s.position + 1)
  · rw [hmeets.peekAhead_eq hnext]
  · have hedge : W.Edge (s.position + 1) := ⟨hnext, fun j hj => W.sees_of_le (Nat.le_of_lt_succ hj) hs⟩
    rw [hmeets.peekAhead_second, Cursor.peekAhead, hmeets.first, hc _ (h.first _ hedge), hc _ (h.second _ hedge)]

theorem declarationFollows_eq (h : W.Ends) (hmeets : Meets W s s') (hs : W.sees s.position) :
    declarationFollows s' = declarationFollows s := by
  apply h.next_eq hmeets hs (c := endsDeclaredName)
  intro κ hκ
  cases κ <;> first | rfl | cases hκ

theorem checkNext_eq (h : W.Ends) (hmeets : Meets W s s') (hs : W.sees s.position) :
    s'.checkNext .leftBrace = s.checkNext .leftBrace := by
  apply h.next_eq hmeets hs (c := fun κ => κ == .leftBrace)
  rintro κ hκ
  rw [beq_eq_false_iff_ne]
  rintro rfl
  cases hκ

theorem sectionStarts_eq (h : W.Ends) (hmeets : Meets W s s') (hs : W.sees s.position) :
    sectionStarts s' = sectionStarts s := by
  unfold sectionStarts
  rw [hmeets.peek_eq hs, h.checkNext_eq hmeets hs]

theorem variableHead_eq (h : W.Ends) (hmeets : Meets W s s') (hs : W.sees s.position) :
    variableHead s' = variableHead s := by
  unfold variableHead variablesEnd
  rw [hmeets.peek_eq hs, h.sectionStarts_eq hmeets hs, h.declarationFollows_eq hmeets hs]

theorem returnNameFollows_eq (h : W.Ends) (hmeets : Meets W s s') (hs : W.sees s.position) :
    returnNameFollows s' = returnNameFollows s := by
  unfold returnNameFollows
  rw [hmeets.peek_eq hs, h.declarationFollows_eq hmeets hs]

end Window.Ends

theorem ruleLocal_variableDeclaration : RuleLocal W variableDeclaration variableDeclaration := by
  rw [variableDeclaration_eq]
  apply RuleLocal.agree_semicolon fun k => agree_variableParts.never
  intro v _
  exact RuleLocal.pure v

theorem variableRound_of_stop (h : variableHead s = .stop) (found : Array Variable) :
    variableRound found s = (.done found, s) := by
  rw [variableRound, look_bind_apply, h]
  rfl

theorem variableRound_of_misnamed (h : variableHead s = .misnamed) (found : Array Variable) :
    variableRound found s = (.yield found, (skipMisnamed s).2) := by
  rw [variableRound, look_bind_apply, h]
  rfl

def declaredRound (found : Array Variable) : Parse (ForInStep (Array Variable)) := do
  match ← withRecovery variableRecovery variableDeclaration with
  | some v => return .yield (found.push v)
  | none => return .yield found

theorem variableRound_of_declared (h : variableHead s = .declared) (found : Array Variable) :
    variableRound found s = declaredRound found s := by
  rw [variableRound, look_bind_apply, h]
  rfl

theorem local_declaredRound (found : Array Variable) : Local W (declaredRound found) (declaredRound found) := by
  apply Local.bind (Local.withRecovery _ ruleLocal_variableDeclaration)
  intro v?
  cases v? with
  | some v => exact Local.pure _
  | none => exact Local.pure _

theorem steady_variableRound (found : Array Variable) : Steady (variableRound found) :=
  (agree_variableRound (R := .same) (k := 0) contained_same found).steady

theorem forward_skipMisnamed (s : Parser) : Forward (report (misnamed s.peek) s).2 (skipMisnamed s).2 := by
  have hloop := (Agree.loop (agree_skipMisnamedRound (R := .same) (k := 0) trivial) ()).steady
  simp only [skipMisnamed, peek, here, bind_apply, look_apply]
  exact ((forward_advance _).trans (hloop _)).trans (forward_recordSkipped _ _ _)

/-- The rounds stop behind the stretch: in the first run because no token is passed there. -/
theorem local_variableRound (hends : W.Ends)
    (hstop : ∀ s s', Meets W s s' → ¬ W.sees s.position → variableHead s' = .stop) (found : Array Variable) :
    Local W (variableRound found) (variableRound found) := by
  refine ⟨steady_variableRound found, ?_⟩
  intro s s' h hlands
  by_cases hs : W.sees s.position
  · have hhead := hends.variableHead_eq h hs
    cases hs' : variableHead s with
    | stop =>
        rw [variableRound_of_stop hs', variableRound_of_stop (hhead.trans hs')]
        exact ⟨rfl, h⟩
    | misnamed =>
        rw [variableRound_of_misnamed hs'] at hlands
        exact (hlands.of_report (forward_skipMisnamed s)).elim
    | declared =>
        rw [variableRound_of_declared hs'] at hlands ⊢
        rw [variableRound_of_declared (hhead.trans hs')]
        exact (local_declaredRound found).same h hlands
  · rw [variableRound_of_stop (hstop s s' h hs)]
    rcases hr : variableRound found s with ⟨found' | found', t⟩
    · have hhead : variableHead s = .stop := by
        cases hs' : variableHead s with
        | stop => rfl
        | misnamed =>
            rw [variableRound_of_misnamed hs'] at hr
            cases hr
        | declared =>
            rw [variableRound_of_declared hs', declaredRound, bind_apply] at hr
            cases hv : (withRecovery variableRecovery variableDeclaration s).1 <;> rw [hv] at hr <;> cases hr
      rw [variableRound_of_stop hhead] at hr
      cases hr
      exact ⟨rfl, h⟩
    · rw [hr] at hlands
      have hpass := (grammarLoop_progresses .variableBlock found s found' t hr).2
      exact absurd (hlands.inside _ hpass) hs

theorem local_variableBlock (hends : W.Ends)
    (hstop : ∀ s s', Meets W s s' → ¬ W.sees s.position → variableHead s' = .stop) :
    Local W variableBlock variableBlock := by
  have hprogress := grammarLoop_progresses .variableBlock
  apply Local.bind (Local.loop (local_variableRound hends hstop) hprogress hprogress.unrolls #[])
  intro found
  exact Local.pure _

structure Window.Closes (W : Window) : Prop extends W.Ends where
  noVariables : ∀ i, W.Edge i → (W.second i).kind ≠ .keyword .var
  stops : ∀ s s', Meets W s s' → ¬ W.sees s.position → variableHead s' = .stop

theorem local_optionalVariables (h : W.Closes) : Local W optionalVariables optionalVariables := by
  refine Local.accept_bind nofun nofun h.noVariables fun found => ?_
  cases found with
  | true => exact local_variableBlock h.toEnds h.stops
  | false => exact Local.pure _

theorem ruleLocal_body : RuleLocal W body body := by
  apply RuleLocal.of_levels (x := fun n => bodyWith (statementAt n)) (y := fun n => bodyWith (statementAt n))
  intro n
  refine RuleLocal.expect_then nofun nofun fun _ => ?_
  refine RuleLocal.agree_expect (fun k => RuleAgree.lift (agree_listWith (agree_statementAt n k))) nofun nofun ?_
  intro statements _
  exact RuleLocal.pure statements

theorem advances_body : Advances body := by
  intro s a t hrun _
  exact (consumes_of_agree fun k => agree_body).passes hrun

theorem ruleLocal_optionalBody (h : W.Ends) : RuleLocal W optionalBody optionalBody :=
  RuleLocal.check_ite (fun _ hi => h.ne_second rfl hi) ruleLocal_body advances_body

def procedureHead : Rule (List Variable → List Statement → Text.Span → Procedure) := do
  let isLocal ← accept (.keyword .local_)
  procedureWord
  let (name, id) ← declaredName "procedure name"
  let parameters ← parameterList
  let returnName ← returnName
  let returnType ← returnType
  return fun locals body span => { name, id, isLocal, parameters, returnType, returnName, locals, body, span }

def procedureParts : Rule (Text.Span → Procedure) := do
  let make ← procedureHead
  semicolon
  let locals ← optionalVariables
  let body ← optionalBody
  let _ ← accept .semicolon
  return make locals body

theorem procedure_of_kind (h : s.peek.kind ≠ .identifier) : procedure s = spanned procedureParts s := by
  have hmodifier : modifierFollows s = false := by
    rw [modifierFollows, beq_eq_false_iff_ne.2 h, Bool.false_and, Bool.false_and]
  have hskip : skipModifier s = ((), s) := by
    rw [skipModifier, test, look_bind_apply, hmodifier]
    rfl
  have heq : procedure = (do
      let start ← here
      skipModifier
      let value ← procedureParts
      return value (← spanFrom start)) := by
    simp only [procedure, procedureParts, procedureHead, bind_assoc, pure_bind]
  show attempt procedure s = attempt (spanned procedureParts) s
  rw [heq, spanned, attempt_liftM_bind, attempt_liftM_bind, here, look_bind_apply, look_bind_apply, attempt_liftM_bind,
    bind_apply, hskip]

theorem agree_procedureHead (h : W.Ends) (k : Nat) :
    RuleAgree W.simulation (Below k) Never procedureHead procedureHead := by
  refine RuleAgree.accept_bind ⟨nofun, nofun⟩ fun isLocal => ?_
  apply RuleAgree.bind agree_procedureWord.never
  intro _
  apply RuleAgree.bind (agree_declaredName _).never
  intro name
  apply RuleAgree.bind agree_parameterList.never
  intro parameters
  have hname : ∀ {s s'}, W.simulation.rel s s' → returnNameFollows s' = returnNameFollows s :=
    fun hs => h.returnNameFollows_eq hs.1 hs.2
  apply RuleAgree.bind (agree_returnName hname)
  intro returnName
  apply RuleAgree.bind agree_returnType
  intro returnType
  exact RuleAgree.pure id

theorem ruleLocal_procedureParts (h : W.Closes) : RuleLocal W procedureParts procedureParts := by
  apply RuleLocal.agree_semicolon (agree_procedureHead h.toEnds)
  intro make _
  apply RuleLocal.step (local_optionalVariables h)
  intro locals
  apply RuleLocal.bind (ruleLocal_optionalBody h.toEnds)
  intro body
  refine RuleLocal.accept_bind nofun nofun (fun _ hi => h.ne_second rfl hi) fun _ => ?_
  exact RuleLocal.pure _

/-- A procedure that is read whole and without a diagnostic in one place is read so in the other. -/
theorem procedure_in_window (h : W.Closes) (hmeets : Meets W s s') (hkind : s.peek.kind ≠ .identifier) {p : Procedure}
    (hrun : procedure s = (.ok p, t)) (hlands : Lands W t) : ∃ t', procedure s' = (.ok p, t') ∧ Meets W t t' := by
  have hpass : s.position < t.position := (consumes_of_agree fun k => agree_procedure contained_same).passes hrun
  have hkind' : s'.peek.kind ≠ .identifier := by
    rw [hmeets.peek_eq (hlands.inside _ hpass)]
    exact hkind
  rw [procedure_of_kind hkind] at hrun
  rw [procedure_of_kind hkind']
  exact (ruleLocal_procedureParts h).same_spanned hmeets hrun hpass hlands

end CalExport.Rule
