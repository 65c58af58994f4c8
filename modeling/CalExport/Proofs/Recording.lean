import CalExport.Proofs.TrailingInput

namespace CalExport.Rule

variable {α β : Type} {R : Simulation} {k : Nat}

theorem RuleAgree.of_agree {x y : Rule α} (h : Agree R (Below k) Never (attempt x) (attempt y)) :
    RuleAgree R (Below k) Never x y := h.mono (fun _ hs => hs) fun _ ha => (not_okAnd_never ha).elim

theorem RuleAgree.agree {x y : Rule α} {p : α → Prop} (h : RuleAgree R (Below k) p x y) :
    Agree R (Below k) Never (attempt x) (attempt y) := Agree.never h

theorem Agree.of_levels {x y : Nat → Parse α} {P : Parser → Prop} {p : α → Prop} (h : ∀ n, Agree R P p (x n) (y n)) :
    Agree R P p (fun s => x s.freeLevels s) (fun s => y s.freeLevels s) := by
  refine ⟨fun s => (h _).steady s, ?_⟩
  intro s s' hs hPs
  have hlevels : s'.freeLevels = s.freeLevels := by rw [Parser.freeLevels, Parser.freeLevels, R.nesting_eq hs]
  show Alike R p s s' (x s.freeLevels s) (y s'.freeLevels s')
  rw [hlevels]
  exact (h _).alike hs hPs

section

variable (hR : R.closes)

include hR

theorem agree_advance : Agree R (Below k) Never advance advance := by
  refine ⟨forward_advance, ?_⟩
  intro s s' hs _
  rcases R.advance hs fun _ => hR with hlost | hrel
  · exact .inl hlost
  · exact .inr ⟨fun h => h.elim, forward_advance s', (R.peek_eq hs).symm, hrel⟩

theorem agree_advanceBy_any (n : Nat) : Agree R (Below k) Never (advanceBy n) (advanceBy n) := by
  induction n with
  | zero => exact Agree.pure id
  | succ n ih =>
      apply Agree.bind (agree_advance hR)
      intro t
      apply Agree.bind ih
      intro ts
      exact Agree.pure id

theorem agree_accept_any (κ : Kind) : Agree R (Below k) Never (accept κ) (accept κ) := by
  refine ⟨forward_accept κ, ?_⟩
  intro s s' hs hk
  rw [accept_apply, accept_apply, R.peek_eq hs]
  split
  · rcases (agree_advance hR).alike hs hk with hlost | ⟨-, hforward, -, hrel⟩
    · exact .inl hlost
    · exact .inr ⟨fun h => h.elim, hforward, rfl, hrel⟩
  · exact .inr ⟨fun h => h.elim, Forward.refl s', rfl, hs⟩

theorem agree_expect_any (κ : Kind) : RuleAgree R (Below k) Never (expect κ) (expect κ) := by
  apply RuleAgree.peek
  intro t
  apply RuleAgree.forget
  split
  · exact RuleAgree.lift (agree_advance hR)
  · exact RuleAgree.throw _

theorem agree_raw_any (stops : Kind → Bool) : Agree R (Below k) Never (raw stops) (raw stops) := by
  refine Agree.bind (Agree.loop ?_ _) fun taken => Agree.pure id
  intro a
  exact (agree_rawRound stops a).mono (fun s hs => ⟨hs, fun _ _ => hR⟩) fun _ ha => ha

theorem agree_trial (recovery : List Kind) {x y : Rule α} (hx : RuleAgree R (Below k) Never x y) :
    Agree R (Below k) Never (withRecovery recovery x) (withRecovery recovery y) := by
  apply Agree.depth
  intro base
  apply Agree.forget
  apply Agree.here
  intro start
  apply Agree.bind hx.agree
  intro result
  cases result with
  | ok a => exact Agree.pure id
  | error fault =>
      apply Agree.bind (Agree.report fault)
      intro _
      have hrecover := agree_recoverItem (k := k) (Simulation.contained_of_closes hR) base start recovery
      apply Agree.bind (hrecover.mono (fun _ hs => ⟨hs, .inr hR⟩) fun _ h => h)
      intro _
      exact Agree.pure id

theorem agree_skipMisnamed_any : Agree R (Below k) Never skipMisnamed skipMisnamed := by
  apply Agree.peek
  intro t
  apply Agree.forget
  apply Agree.bind (Agree.report _)
  intro _
  apply Agree.here
  intro start
  apply Agree.bind (agree_advance hR)
  intro _
  apply Agree.bind (Agree.loop (agree_skipMisnamedRound (R.ahead_of_closes hR)) ())
  intro _
  exact Agree.recordSkipped start _

theorem agree_skipAttributes_any : Agree R (Below k) Never skipAttributes skipAttributes := by
  apply Agree.here
  intro start
  apply Agree.bind (Agree.loop (agree_skipAttributeRound hR) 0)
  intro _
  apply Agree.passedSince
  intro passed
  exact Agree.note _

theorem agree_passSection_any (depth n : Nat) :
    Agree R (Below k) Never (passSection depth n) (passSection (depth + R.deep) n) := by
  apply Agree.here
  intro start
  apply Agree.bind (agree_advanceBy_any hR n)
  intro heading
  apply Agree.bind (agree_skipToSection hR depth _)
  intro _
  apply Agree.passedSince
  intro passed
  exact Agree.note _

theorem agree_skipTrailing : Agree R (Below k) Never skipTrailing skipTrailing := by
  apply Agree.atEnd
  intro atEnd
  apply Agree.forget
  split
  · apply Agree.peek
    intro t
    apply Agree.forget
    apply Agree.bind (Agree.report _)
    intro _
    apply Agree.here
    intro start
    apply Agree.bind (agree_skipWhile (fun _ _ _ _ => rfl) fun _ _ _ => hR)
    intro _
    exact Agree.recordSkipped start _
  · exact Agree.pure id

theorem agree_reportedObject : Agree R (Below k) Never reportedObject reportedObject := by
  apply Agree.bind (agree_object hR).agree
  intro result
  cases result with
  | ok o => exact Agree.pure id
  | error fault =>
      apply Agree.bind (Agree.report fault)
      intro _
      exact Agree.pure id

theorem agree_document : Agree R (Below k) Never document document := by
  apply Agree.here
  intro start
  apply Agree.atEnd
  intro atEnd
  apply Agree.forget
  split
  · apply Agree.spanFrom
    intro span
    exact Agree.pure id
  · apply Agree.bind (agree_reportedObject hR)
    intro object
    apply Agree.bind (agree_skipTrailing hR)
    intro _
    apply Agree.spanFrom
    intro span
    exact Agree.pure id

end

theorem record_nesting (d : Diagnostic) (s : Parser) : (record d s).2.nesting = s.nesting :=
  (forward_record d s).nesting

theorem recordSkipped_nesting (start : Nat) (reason : String) (s : Parser) :
    (recordSkipped start reason s).2.nesting = s.nesting := (forward_recordSkipped start reason s).nesting

structure SamePlace (s s' : Parser) : Prop where
  cursor : s'.toCursor = s.toCursor
  nesting : s'.nesting = s.nesting

namespace SamePlace

variable {s s' : Parser}

theorem advance (h : SamePlace s s') : SamePlace (Rule.advance s).2 (Rule.advance s').2 :=
  ⟨congrArg Cursor.next h.cursor, h.nesting⟩

theorem record (d : Diagnostic) (h : SamePlace s s') : SamePlace (Rule.record d s).2 (Rule.record d s').2 := by
  refine ⟨?_, ?_⟩
  · rw [toCursor_record, toCursor_record, h.cursor]
  · rw [record_nesting, record_nesting, h.nesting]

theorem recordSkipped (start : Nat) (reason : String) (h : SamePlace s s') :
    SamePlace (Rule.recordSkipped start reason s).2 (Rule.recordSkipped start reason s').2 := by
  refine ⟨?_, ?_⟩
  · rw [toCursor_recordSkipped, toCursor_recordSkipped, h.cursor]
  · rw [recordSkipped_nesting, recordSkipped_nesting, h.nesting]

end SamePlace

/-- What two runs at the same place may agree on besides: whatever does not depend on where they stand. -/
structure Records (same : Parser → Parser → Prop) : Prop where
  advance {s s'} : same s s' → same (Rule.advance s).2 (Rule.advance s').2
  record {s s'} (d) : SamePlace s s' → same s s' → same (Rule.record d s).2 (Rule.record d s').2
  recordSkipped {s s'} (start reason) : SamePlace s s' → same s s' →
    same (Rule.recordSkipped start reason s).2 (Rule.recordSkipped start reason s').2
  note {s s'} (e) : same s s' → same (Rule.note e s).2 (Rule.note e s').2
  withNesting {s s'} (n) : same s s' → same (s.withNesting n) (s'.withNesting n)

def Simulation.atSamePlace {same : Parser → Parser → Prop} (h : Records same) : Simulation where
  rel s s' := SamePlace s s' ∧ same s s'
  lost _ := False
  closes := True
  ahead := True
  shift := 0
  deep := 0
  lost_mono _ _ h := h
  ahead_of_closes _ := trivial
  peek_eq h := by rw [h.1.cursor]
  peekAhead_eq _ h _ _ := by rw [h.1.cursor]
  position_eq h := by rw [h.1.cursor, Nat.add_zero]
  braceDepth_eq h := by rw [h.1.cursor, Nat.add_zero]
  nesting_eq h := h.1.nesting
  spanFrom_eq h _ := by rw [h.1.cursor, Nat.add_zero]
  advance hs _ := .inr ⟨hs.1.advance, h.advance hs.2⟩
  record d hs := ⟨hs.1.record d, h.record d hs.1 hs.2⟩
  recordSkipped start reason hs := ⟨hs.1.recordSkipped start reason, h.recordSkipped start reason hs.1 hs.2⟩
  note e hs := ⟨⟨hs.1.cursor, hs.1.nesting⟩, h.note e hs.2⟩
  withNesting n hs := ⟨⟨hs.1.cursor, rfl⟩, h.withNesting n hs.2⟩

theorem records_anything : Records fun _ _ => True :=
  ⟨fun _ => trivial, fun _ _ _ => trivial, fun _ _ _ _ => trivial, fun _ _ => trivial, fun _ _ => trivial⟩

/-- The second run keeps the skipped regions of the first one or none, as it prefers, and the same diagnostics. -/
structure SameReport (s s' : Parser) : Prop where
  diagnostics : s'.diagnostics = s.diagnostics
  capped : s'.capped = s.capped
  keeps : s.preferences.recordSkipped = true
  skipped : s'.skipped = if s'.preferences.recordSkipped then s.skipped else #[]

theorem SameReport.record {s s' : Parser} (h : SameReport s s') (d : Diagnostic) :
    SameReport (Rule.record d s).2 (Rule.record d s').2 := by
  unfold Rule.record
  rw [h.diagnostics, h.capped]
  split
  · exact ⟨rfl, rfl, h.keeps, h.skipped⟩
  · split
    · exact h
    · exact ⟨rfl, rfl, h.keeps, h.skipped⟩

theorem SameReport.recordSkipped {s s' : Parser} (h : SameReport s s') (hplace : SamePlace s s') (start : Nat)
    (reason : String) : SameReport (Rule.recordSkipped start reason s).2 (Rule.recordSkipped start reason s').2 := by
  obtain ⟨events, hs⟩ := recordSkipped_snd start reason s
  obtain ⟨events', hs'⟩ := recordSkipped_snd start reason s'
  rw [hs, hs']
  refine ⟨h.diagnostics, h.capped, h.keeps, ?_⟩
  show skippedSince start reason s' = if s'.preferences.recordSkipped then skippedSince start reason s else #[]
  unfold skippedSince
  rw [hplace.cursor, h.keeps, h.skipped]
  by_cases hlt : start < s.position <;> cases s'.preferences.recordSkipped <;> simp [hlt]

theorem records_report : Records SameReport where
  advance h := ⟨h.diagnostics, h.capped, h.keeps, h.skipped⟩
  record d _ h := h.record d
  recordSkipped start reason hplace h := h.recordSkipped hplace start reason
  note _ h := ⟨h.diagnostics, h.capped, h.keeps, h.skipped⟩
  withNesting _ h := ⟨h.diagnostics, h.capped, h.keeps, h.skipped⟩

/-- Two runs of a step from related states come to the same result in related states. -/
theorem same_of_agree {same : Parser → Parser → Prop} (h : Records same) {x : Parse α}
    (hx : ∀ k, Agree (.atSamePlace h) (Below k) Never x x) {s s' : Parser} (hplace : SamePlace s s')
    (hsame : same s s') : (x s').1 = (x s).1 ∧ SamePlace (x s).2 (x s').2 ∧ same (x s).2 (x s').2 := by
  rcases (hx (s.left + 1)).alike ⟨hplace, hsame⟩ (Nat.lt_succ_self _) with hlost | ⟨-, -, hresult, hend⟩
  · exact hlost.elim
  · exact ⟨hresult.symm, hend⟩

/-- The rules of the grammar, whatever they are called with: the steps they are made of, and what reads or passes
each part of a document. -/
inductive Builder : {α : Type} → Parse α → Prop
  /-- What is told by the levels that are left. -/
  | levels {α : Type} {x : Nat → Parse α} : (∀ n, Builder (x n)) → Builder fun s => x s.freeLevels s
  | advance : Builder advance
  | advanceBy (n) : Builder (advanceBy n)
  | accept (κ) : Builder (accept κ)
  | expect (κ) : Builder (attempt (expect κ))
  | report (fault) : Builder (report fault)
  | recordSkipped (start reason) : Builder (recordSkipped start reason)
  | nested {α : Type} {x : Rule α} : Builder (attempt x) → Builder (attempt (nested x))
  | semicolon : Builder semicolon
  | integerValue (t) : Builder (integerValue t)
  | integer : Builder (attempt integer)
  | size : Builder (attempt size)
  | autoNumber : Builder (attempt autoNumber)
  | declaredName (role) : Builder (attempt (declaredName role))
  | raw (stops) : Builder (raw stops)
  | trial {α : Type} (recovery) {x : Rule α} : Builder (attempt x) → Builder (withRecovery recovery x)
  | skipStatement : Builder skipStatement
  | skipToSection (depth reason) : Builder (skipToSection depth reason)
  | skipDeclaration (depth) : Builder (skipDeclaration depth)
  | commaSeparated {α : Type} {x : Rule α} : Builder (attempt x) → Builder (attempt (commaSeparated x))
  | listUpTo {α : Type} (close) {x : Rule α} : Builder (attempt x) → Builder (attempt (listUpTo close x))
  | memberName (expected) : Builder (attempt (memberName expected))
  | subexpression (n) : Builder (attempt (deeper n).expression)
  | sign (n) : Builder (attempt (deeper n).unary)
  | element (n) : Builder (attempt (elementWith (deeper n)))
  | setLiteral (n) : Builder (attempt (setLiteralWith (deeper n)))
  | primary (n) : Builder (attempt (primaryWith (deeper n)))
  | operand (n) : Builder (attempt (operandWith (deeper n)))
  | unary (n) : Builder (attempt (unaryWith (deeper n)))
  | product (n) : Builder (attempt (productWith (deeper n)))
  | sum (n) : Builder (attempt (sumWith (deeper n)))
  | relation (n) : Builder (attempt (relationWith (deeper n)))
  | equality (n) : Builder (attempt (equalityWith (deeper n)))
  | conjunction (n) : Builder (attempt (conjunctionWith (deeper n)))
  | disjunction (n) : Builder (attempt (disjunctionWith (deeper n)))
  | ternary (n) : Builder (attempt (ternaryWith (deeper n)))
  | expression (n) : Builder (attempt (expressionWith (deeper n)))
  | simpleType : Builder (attempt simpleType)
  | referenceType (target) : Builder (attempt (referenceType target))
  | textConstType : Builder (attempt textConstType)
  | dotNetType : Builder (attempt dotNetType)
  | automationType : Builder (attempt automationType)
  | arrayType (n) : Builder (attempt (arrayType (elementType n)))
  | elementType (n) : Builder (attempt (elementType n))
  | dataType (n) : Builder (attempt (dataTypeWith (elementType n)))
  | assignmentOrCall : Builder (attempt assignmentOrCall)
  | exitStatement : Builder (attempt exitStatement)
  | statements (n) : Builder (listWith (statementAt n))
  | body (n) : Builder (attempt (bodyWith (statementAt n)))
  | block (n) : Builder (attempt (blockWith (statementAt n)))
  | branch (n) : Builder (attempt (branchWith (statementAt n)))
  | ifThen (n) : Builder (attempt (ifWith (statementAt n)))
  | whileDo (n) : Builder (attempt (whileWith (statementAt n)))
  | repeatUntil (n) : Builder (attempt (repeatWith (statementAt n)))
  | forDo (n) : Builder (attempt (forWith (statementAt n)))
  | withDo (n) : Builder (attempt (withWith (statementAt n)))
  | caseBranch (n) : Builder (attempt (caseBranchWith (statementAt n)))
  | caseOf (n) : Builder (attempt (caseWith (statementAt n)))
  | statementAt (n) : Builder (attempt (statementAt n))
  | statement (n) : Builder (attempt (statementWith (statementAt n)))
  | filteringMode : Builder (attempt filteringMode)
  | variableDeclaration : Builder (attempt variableDeclaration)
  | skipMisnamed : Builder skipMisnamed
  | variableBlock : Builder variableBlock
  | optionalVariables : Builder optionalVariables
  | parameter : Builder (attempt parameter)
  | parameterList : Builder (attempt parameterList)
  | optionalBody : Builder (attempt optionalBody)
  | procedure : Builder (attempt procedure)
  | triggerBody : Builder (attempt triggerBody)
  | trigger : Builder (attempt trigger)
  | numberedName (role) : Builder (attempt (numberedName role))
  | event : Builder (attempt event)
  | skipAttributes : Builder skipAttributes
  | recoverDeclaration (fault start depth) : Builder (recoverDeclaration fault start depth)
  | codeSection : Builder (attempt codeSection)
  | propertyName : Builder (attempt propertyName)
  | property : Builder (attempt property)
  | propertyList : Builder propertyList
  | propertiesSection : Builder (attempt propertiesSection)
  | fieldsSection : Builder (attempt (bracedSection .fields field))
  | keysSection : Builder (attempt (bracedSection .keys key))
  | fieldGroupsSection : Builder (attempt (bracedSection .fieldGroups fieldGroup))
  | column : Builder column
  | nameList : Builder nameList
  | field : Builder (attempt field)
  | key : Builder (attempt key)
  | fieldGroup : Builder (attempt fieldGroup)
  | passSection (depth heading) : Builder (passSection depth heading)
  | objectName : Builder objectName
  | object : Builder (attempt object)
  | document : Builder document

theorem agree_simpleType_any (hR : R.closes) : RuleAgree R (Below k) Never simpleType simpleType := by
  apply RuleAgree.here
  intro start
  apply RuleAgree.step (agree_advance hR)
  intro t
  refine RuleAgree.accept_ite ⟨nofun, nofun⟩ ?_ ?_
  · apply RuleAgree.bind agree_size.never
    intro length
    refine RuleAgree.expect_then ⟨nofun, nofun⟩ fun _ => ?_
    apply RuleAgree.spanFrom
    intro span
    exact RuleAgree.pure id
  · apply RuleAgree.spanFrom
    intro span
    exact RuleAgree.pure id

theorem agree_referenceType_any (hR : R.closes) (target : Keyword) :
    RuleAgree R (Below k) Never (referenceType target) (referenceType target) := by
  apply RuleAgree.here
  intro start
  apply RuleAgree.step (agree_advance hR)
  intro _
  apply RuleAgree.bind agree_objectNumber
  intro id?
  apply RuleAgree.spanFrom
  intro span
  exact RuleAgree.pure id

theorem agree_builder {same : Parser → Parser → Prop} (h : Records same) {x : Parse α} (hx : Builder x) (k : Nat) :
    Agree (.atSamePlace h) (Below k) Never x x := by
  have hc : (Simulation.atSamePlace h).Contained := Simulation.contained_of_closes trivial
  have hdeeper : ∀ n, Deeper.Agree (.atSamePlace h) k (deeper n) (deeper n) := fun n => agree_deeper n k
  have hstatement : ∀ n, RuleAgree (.atSamePlace h) (Below k) Always (statementAt n) (statementAt n) :=
    fun n => agree_statementAt n k
  have hup : ∀ {α : Type} {p : α → Prop} {x : Rule α}, RuleAgree (.atSamePlace h) (Below (k + 1)) p x x →
      Agree (.atSamePlace h) (Below k) Never (attempt x) (attempt x) := fun hx => (hx.le (Nat.le_succ k)).agree
  induction hx with
  | levels _ ih => exact Agree.of_levels ih
  | advance => exact agree_advance trivial
  | advanceBy n => exact agree_advanceBy_any trivial n
  | accept κ => exact agree_accept_any trivial κ
  | expect κ => exact (agree_expect_any trivial κ).agree
  | report fault => exact Agree.report fault
  | recordSkipped start reason => exact Agree.recordSkipped start reason
  | nested _ ih => exact (RuleAgree.nested (RuleAgree.of_agree ih)).agree
  | semicolon => exact agree_semicolon
  | integerValue t => exact agree_integerValue t
  | integer => exact agree_integer.agree
  | size => exact agree_size.agree
  | autoNumber => exact agree_autoNumber.agree
  | declaredName role => exact (agree_declaredName role).agree
  | raw stops => exact agree_raw_any trivial stops
  | trial recovery _ ih => exact agree_trial trivial recovery (RuleAgree.of_agree ih)
  | skipStatement => exact agree_skipStatement
  | skipToSection depth reason => exact agree_skipToSection trivial depth reason
  | skipDeclaration depth => exact agree_skipDeclaration trivial depth
  | commaSeparated _ ih => exact (agree_commaSeparated (RuleAgree.of_agree ih)).agree
  | listUpTo close _ ih => exact (agree_listUpTo close (RuleAgree.of_agree ih)).agree
  | memberName expected => exact (agree_memberName expected).agree
  | subexpression n => exact (hdeeper n).expression.agree
  | sign n => exact (hdeeper n).unary.agree
  | element n => exact (agree_elementWith (hdeeper n)).agree
  | setLiteral n => exact hup (agree_setLiteralWith (hdeeper n))
  | primary n => exact hup (agree_primaryWith (hdeeper n))
  | operand n => exact hup (agree_operandWith (hdeeper n))
  | unary n => exact hup (agree_unaryWith (hdeeper n))
  | product n => exact hup (agree_productWith (hdeeper n))
  | sum n => exact hup (agree_sumWith (hdeeper n))
  | relation n => exact hup (agree_relationWith (hdeeper n))
  | equality n => exact hup (agree_equalityWith (hdeeper n))
  | conjunction n => exact hup (agree_conjunctionWith (hdeeper n))
  | disjunction n => exact hup (agree_disjunctionWith (hdeeper n))
  | ternary n => exact hup (agree_ternaryWith (hdeeper n))
  | expression n => exact hup (agree_expressionWith (hdeeper n))
  | simpleType => exact (agree_simpleType_any trivial).agree
  | referenceType target => exact (agree_referenceType_any trivial target).agree
  | textConstType => exact agree_textConstType.agree
  | dotNetType => exact agree_dotNetType.agree
  | automationType => exact agree_automationType.agree
  | arrayType n => exact hup (agree_arrayType (agree_elementType n k))
  | elementType n => exact (agree_elementType n k).agree
  | dataType n => exact hup (agree_dataTypeWith (agree_elementType n k))
  | assignmentOrCall => exact agree_assignmentOrCall.agree
  | exitStatement => exact agree_exitStatement.agree
  | statements n => exact agree_listWith (hstatement n)
  | body n => exact hup (agree_bodyWith (hstatement n))
  | block n => exact hup (agree_blockWith (hstatement n))
  | branch n => exact (agree_branchWith (hstatement n)).agree
  | ifThen n => exact hup (agree_ifWith (hstatement n))
  | whileDo n => exact hup (agree_whileWith (hstatement n))
  | repeatUntil n => exact hup (agree_repeatWith (hstatement n))
  | forDo n => exact hup (agree_forWith (hstatement n))
  | withDo n => exact hup (agree_withWith (hstatement n))
  | caseBranch n => exact hup (agree_caseBranchWith (hstatement n))
  | caseOf n => exact hup (agree_caseWith (hstatement n))
  | statementAt n => exact (hstatement n).agree
  | statement n => exact hup (agree_statementWith (hstatement n))
  | filteringMode => exact agree_filteringMode.agree
  | variableDeclaration => exact agree_variableDeclaration.agree
  | skipMisnamed => exact agree_skipMisnamed_any trivial
  | variableBlock => exact agree_variableBlock hc
  | optionalVariables => exact agree_optionalVariables hc
  | parameter => exact agree_parameter.agree
  | parameterList => exact agree_parameterList.agree
  | optionalBody => exact agree_optionalBody.agree
  | procedure => exact (agree_procedure hc).agree
  | triggerBody => exact (agree_triggerBody hc).agree
  | trigger => exact (agree_trigger hc).agree
  | numberedName role => exact (agree_numberedName role).agree
  | event => exact (agree_event hc).agree
  | skipAttributes => exact agree_skipAttributes_any trivial
  | recoverDeclaration fault start depth => exact agree_recoverDeclaration trivial fault start depth
  | codeSection => exact (agree_codeSection trivial).agree
  | propertyName => exact (agree_propertyName trivial).agree
  | property => exact (agree_property hc).agree
  | propertyList => exact agree_propertyList hc
  | propertiesSection => exact (agree_propertiesSection trivial).agree
  | fieldsSection => exact (agree_bracedSection trivial _ (agree_field trivial)).agree
  | keysSection => exact (agree_bracedSection trivial _ (agree_key trivial)).agree
  | fieldGroupsSection => exact (agree_bracedSection trivial _ (agree_fieldGroup trivial)).agree
  | column => exact agree_column hc
  | nameList => exact agree_nameList hc
  | field => exact (agree_field trivial).agree
  | key => exact (agree_key trivial).agree
  | fieldGroup => exact (agree_fieldGroup trivial).agree
  | passSection depth heading => exact agree_passSection_any trivial depth heading
  | objectName => exact agree_objectName trivial
  | object => exact (agree_object trivial).agree
  | document => exact agree_document trivial

/-- Of any tokens the preferences change neither the document nor the diagnostics. -/
theorem wholeDocument_preferences (tokens : Array Token) (p : ParserPreferences) (events : Array Event) :
    let run := wholeDocument { Parser.ofTokens tokens p with events }
    let full := wholeDocument (Parser.ofTokens tokens { recordSkipped := true })
    run.1 = full.1 ∧ run.2.diagnostics = full.2.diagnostics ∧
      run.2.skipped = if p.recordSkipped then full.2.skipped else #[] := by
  dsimp only
  generalize hs : Parser.ofTokens tokens { recordSkipped := true } = s
  generalize hs' : ({ Parser.ofTokens tokens p with events } : Parser) = s'
  obtain ⟨first, last, hrun⟩ := wholeDocument_apply s
  obtain ⟨first', last', hrun'⟩ := wholeDocument_apply s'
  have hplace : SamePlace (note first s).2 (note first' s').2 := by
    subst hs hs'
    exact ⟨rfl, rfl⟩
  have hreport : SameReport (note first s).2 (note first' s').2 := by
    subst hs hs'
    exact ⟨rfl, rfl, rfl, (ite_self _).symm⟩
  have hpreferences : (document (note first' s').2).2.preferences = p := by
    rw [(document_end _).1.preferences, ← hs']
    rfl
  obtain ⟨hdocument, -, hend⟩ := same_of_agree records_report (agree_builder _ .document) hplace hreport
  rw [hrun, hrun']
  refine ⟨hdocument, hend.diagnostics, ?_⟩
  rw [← hpreferences]
  exact hend.skipped

/-- For all tokens: the document and the diagnostics are the same whatever is preferred; without regions being kept
there are none, and otherwise they do not depend on what is logged. And every builder that is run from two states at
the same place, on the same level, comes to the same result, at the same place and on the same level. -/
theorem recording_never_steers :
    (∀ (tokens : Array Token) (p p' : ParserPreferences) (events events' : Array Event),
      let run := wholeDocument { Parser.ofTokens tokens p with events }
      let run' := wholeDocument { Parser.ofTokens tokens p' with events := events' }
      run'.1 = run.1 ∧ run'.2.diagnostics = run.2.diagnostics ∧
        (p.recordSkipped = false → run.2.skipped = #[]) ∧
        (p'.recordSkipped = p.recordSkipped → run'.2.skipped = run.2.skipped)) ∧
    ∀ {α : Type} {x : Parse α}, Builder x → ∀ s s' : Parser, s'.toCursor = s.toCursor → s'.nesting = s.nesting →
      (x s').1 = (x s).1 ∧ (x s').2.toCursor = (x s).2.toCursor ∧ (x s').2.nesting = (x s).2.nesting := by
  refine ⟨?_, ?_⟩
  · intro tokens p p' events events'
    obtain ⟨hdocument, hdiagnostics, hskipped⟩ := wholeDocument_preferences tokens p events
    obtain ⟨hdocument', hdiagnostics', hskipped'⟩ := wholeDocument_preferences tokens p' events'
    refine ⟨hdocument'.trans hdocument.symm, hdiagnostics'.trans hdiagnostics.symm, ?_, ?_⟩
    · intro hoff
      rw [hskipped, hoff, if_neg Bool.false_ne_true]
    · intro hsame
      rw [hskipped', hskipped, hsame]
  · intro α x hx s s' hcursor hnesting
    have hrun := same_of_agree records_anything (agree_builder records_anything hx) ⟨hcursor, hnesting⟩ trivial
    exact ⟨hrun.1, hrun.2.1.cursor, hrun.2.1.nesting⟩

/-- A stray word behind nothing, read with and without keeping the region; and a list of statements, read from a
state that has no room for diagnostics any more and one that has. -/
theorem recording_never_steers_capped :
    let word : Token := ⟨.identifier, "x", Text.Span.origin⟩
    let fresh := Parser.ofTokens #[word] {}
    let full : Parser :=
      { fresh with diagnostics := .replicate (maxDiagnostics + 1) (.ofFault (.missing ";" word)), capped := true }
    (wholeDocument (Parser.ofTokens #[word] { recordSkipped := false })).2.skipped = #[] ∧
      (wholeDocument fresh).2.skipped.size = 1 ∧
      (wholeDocument (Parser.ofTokens #[word] { logRecovery := true })).2.skipped = (wholeDocument fresh).2.skipped ∧
      (statementList full).1 = (statementList fresh).1 := by
  intro word fresh full
  have hoff := (recording_never_steers.1 #[word] { recordSkipped := false } {} #[] #[]).2.2.1 rfl
  have hlogged := (recording_never_steers.1 #[word] {} { logRecovery := true } #[] #[]).2.2.2 rfl
  exact ⟨hoff, by decide +kernel, hlogged, (recording_never_steers.2 (.levels .statements) fresh full rfl rfl).1⟩

end CalExport.Rule
