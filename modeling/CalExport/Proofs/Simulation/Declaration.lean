import CalExport.Proofs.Simulation.Statement
import CalExport.Declaration.Rule

namespace CalExport.Rule

variable {R : Simulation} {P : Parser → Prop} {k : Nat}

theorem agree_simpleType {t : Token} (ht : R.May t.kind) :
    RuleAgree R (fun s => Below k s ∧ s.peek = t) Always simpleType simpleType := by
  apply RuleAgree.here
  intro start
  apply RuleAgree.advance_token ht
  intro t
  refine RuleAgree.accept_ite ⟨nofun, nofun⟩ ?_ ?_
  · apply RuleAgree.bind agree_size.never
    intro length
    refine RuleAgree.expect_then ⟨nofun, nofun⟩ fun _ => ?_
    apply RuleAgree.spanFrom
    intro span
    exact RuleAgree.pure id
  · apply RuleAgree.spanFrom
    intro span
    exact RuleAgree.pure id

theorem agree_objectNumber : RuleAgree R (Below k) Never objectNumber objectNumber := by
  apply RuleAgree.check_ite
  · exact agree_integer.map fun _ h => h.elim
  · exact RuleAgree.pure id

theorem agree_referenceType (target : Keyword) {t : Token} (ht : R.May t.kind) :
    RuleAgree R (fun s => Below k s ∧ s.peek = t) Always (referenceType target) (referenceType target) := by
  apply RuleAgree.here
  intro start
  apply RuleAgree.advance_token ht
  intro _
  apply RuleAgree.bind agree_objectNumber
  intro id?
  apply RuleAgree.spanFrom
  intro span
  exact RuleAgree.pure id

theorem agree_skipTextRound (a : Unit) : Agree R (Below k) Yields (skipTextRound a) (skipTextRound a) := by
  refine Agree.accept_ite ⟨nofun, nofun⟩ ?_ ?_
  · refine Agree.accept_bind ⟨nofun, nofun⟩ fun _ => ?_
    exact Agree.pure id
  · exact Agree.pure id

theorem agree_textConstType : RuleAgree R (Below k) Always textConstType textConstType := by
  apply RuleAgree.here
  intro start
  refine RuleAgree.expect_then ⟨nofun, nofun⟩ fun _ => ?_
  apply RuleAgree.step (Agree.loop agree_skipTextRound ())
  intro _
  apply RuleAgree.spanFrom
  intro span
  exact RuleAgree.pure id

theorem agree_descriptor {α : Type} (typeName : String) (read : String → Except DescriptorError α) :
    Agree R (Below k) Never (descriptor typeName read) (descriptor typeName read) := by
  apply Agree.peek
  intro t
  split
  case h_3 =>
    apply Agree.forget
    apply Agree.bind (Agree.report _)
    intro _
    exact Agree.pure id
  all_goals
    rename_i hkind
    apply Agree.advance_token (R.may_of_eq hkind ⟨nofun, nofun⟩)
    intro _
    split
    · exact Agree.pure id
    · apply Agree.bind (Agree.report _)
      intro _
      exact Agree.pure id

def described {α : Type} (word : Keyword) (typeName : String) (read : String → Except DescriptorError α)
    (make : Option α → Text.Span → DataType) : Rule DataType := do
  let start ← here
  let _ ← expect (.keyword word)
  let info ← descriptor typeName read
  return make info (← spanFrom start)

theorem agree_described {α : Type} (word : Keyword) (typeName : String) (read : String → Except DescriptorError α)
    (make : Option α → Text.Span → DataType) :
    RuleAgree R (Below k) Always (described word typeName read make) (described word typeName read make) := by
  apply RuleAgree.here
  intro start
  refine RuleAgree.expect_then ⟨nofun, nofun⟩ fun _ => ?_
  apply RuleAgree.step (agree_descriptor _ _)
  intro info
  apply RuleAgree.spanFrom
  intro span
  exact RuleAgree.pure id

theorem agree_dotNetType : RuleAgree R (Below k) Always dotNetType dotNetType :=
  agree_described .dotNet "DotNet" DotNetInfo.ofString .dotNet

theorem agree_automationType : RuleAgree R (Below k) Always automationType automationType :=
  agree_described .automation "Automation" AutomationInfo.ofString .automation

theorem agree_dimensionRound (found : Array Nat) :
    RuleAgree R (Below k) Yields (dimensionRound found) (dimensionRound found) := by
  refine RuleAgree.accept_ite ⟨nofun, nofun⟩ ?_ ?_
  · apply RuleAgree.bind agree_size.never
    intro length
    exact RuleAgree.pure id
  · exact RuleAgree.pure id

theorem agree_dimensions : RuleAgree R (Below k) Always dimensions dimensions := by
  refine RuleAgree.expect_then ⟨nofun, nofun⟩ fun opening => ?_
  apply RuleAgree.bind agree_size.never
  intro first
  apply RuleAgree.bind (RuleAgree.tryLoop agree_dimensionRound #[first])
  intro found
  refine RuleAgree.expect_then ⟨nofun, nofun⟩ fun closing => ?_
  split
  · apply RuleAgree.step (Agree.report _)
    intro _
    exact RuleAgree.pure id
  · exact RuleAgree.pure id

section

variable {element element' : Rule DataType} (hsub : RuleAgree R (Below k) Always element element')

include hsub

theorem agree_arrayType : RuleAgree R (Below (k + 1)) Always (arrayType element) (arrayType element') := by
  apply RuleAgree.here
  intro start
  refine RuleAgree.expect_then ⟨nofun, nofun⟩ fun _ => ?_
  apply RuleAgree.bind agree_dimensions.never
  intro found
  refine RuleAgree.expect_then ⟨nofun, nofun⟩ fun _ => ?_
  refine RuleAgree.accept_bind ⟨nofun, nofun⟩ fun temporary => ?_
  apply RuleAgree.bind (hsub.le (Nat.sub_le _ 1)).never
  intro element
  apply RuleAgree.spanFrom
  intro span
  exact RuleAgree.pure id

theorem agree_dataTypeWith : RuleAgree R (Below (k + 1)) Always (dataTypeWith element) (dataTypeWith element') := by
  apply RuleAgree.peek
  intro t
  split
  · exact (agree_arrayType hsub).forget
  · exact agree_textConstType.forget
  · exact agree_dotNetType.forget
  · exact agree_automationType.forget
  · rename_i hkind
    apply RuleAgree.advance_token (R.may_of_eq hkind ⟨nofun, nofun⟩)
    intro _
    exact RuleAgree.pure id
  · rename_i hkind
    exact agree_simpleType (R.may_of_eq hkind ⟨nofun, nofun⟩)
  · rename_i hkind
    exact agree_simpleType (R.may_of_eq hkind ⟨nofun, nofun⟩)
  · rename_i hkind
    split
    · exact agree_referenceType _ (R.may_of_eq hkind ⟨nofun, nofun⟩)
    · exact RuleAgree.throw _
  · exact RuleAgree.throw _

end

theorem agree_elementType (n k : Nat) : RuleAgree R (Below k) Always (elementType n) (elementType n) := by
  induction n generalizing k with
  | zero => exact RuleAgree.tooDeep
  | succ n ih => exact RuleAgree.nested ((agree_dataTypeWith (ih k)).le (Nat.le_succ k))

theorem agree_dataType : RuleAgree R (Below k) Always dataType dataType :=
  RuleAgree.of_levels fun n => (agree_dataTypeWith (agree_elementType n k)).le (Nat.le_succ k)

theorem variablesEnd_eq (ha : R.ahead) {s s' : Parser} (hs : R.rel s s') : variablesEnd s' = variablesEnd s := by
  unfold variablesEnd
  rw [R.peek_eq hs, sectionStarts_eq ha hs]

/-- A block of variables ends in front of a closing brace and at the end of the input. -/
theorem may_of_not_variablesEnd {s : Parser} (h : ¬ variablesEnd s = true) :
    s.peek.kind ≠ .eof ∧ s.peek.kind ≠ .rightBrace := by
  refine ⟨?_, ?_⟩
  · intro heof
    apply h
    rw [variablesEnd, heof]
  · intro hbrace
    apply h
    rw [variablesEnd, hbrace]

theorem agree_filteringMode : RuleAgree R (Below k) Always filteringMode filteringMode := by
  refine RuleAgree.expect_then ⟨nofun, nofun⟩ fun _ => ?_
  apply RuleAgree.peek
  intro t
  split
  · rename_i hname
    apply RuleAgree.advance_token (may_of_canName hname)
    intro _
    refine RuleAgree.expect_then ⟨nofun, nofun⟩ fun _ => ?_
    exact RuleAgree.pure id
  · exact RuleAgree.throw _

theorem agree_modifierRound (v : Variable) : RuleAgree R (Below k) Yields (modifierRound v) (modifierRound v) := by
  apply RuleAgree.peekKind
  intro κ
  split
  case h_4 =>
    refine RuleAgree.advance_kind ⟨nofun, nofun⟩ fun _ => ?_
    apply RuleAgree.bind agree_filteringMode.never
    intro mode
    exact RuleAgree.pure id
  case h_5 => exact RuleAgree.pure id
  all_goals
    refine RuleAgree.advance_kind ⟨nofun, nofun⟩ fun _ => ?_
    exact RuleAgree.pure id

def variableParts : Rule Variable := do
  let start ← here
  let (name, id) ← declaredName "variable name"
  let _ ← expect .colon
  let temporary ← accept (.keyword .temporary)
  let dataType ← dataType
  let declared : Variable := { name, id, dataType, temporary, span := ← spanFrom start }
  let modified ← tryLoop declared modifierRound
  return { modified with span := ← spanFrom start }

theorem variableDeclaration_eq : variableDeclaration = (do
    let v ← variableParts
    semicolon
    return v) := by
  simp [variableDeclaration, variableParts]

theorem agree_variableParts : RuleAgree R (Below k) Always variableParts variableParts := by
  apply RuleAgree.here
  intro start
  apply RuleAgree.andThen (agree_declaredName _)
  intro name
  refine RuleAgree.expect_then ⟨nofun, nofun⟩ fun _ => ?_
  refine RuleAgree.accept_bind ⟨nofun, nofun⟩ fun temporary => ?_
  apply RuleAgree.bind agree_dataType.never
  intro dataType
  apply RuleAgree.spanFrom
  intro span
  apply RuleAgree.bind (RuleAgree.tryLoop agree_modifierRound _)
  intro modified
  apply RuleAgree.spanFrom
  intro span
  exact RuleAgree.pure id

theorem agree_variableDeclaration : RuleAgree R (Below k) Always variableDeclaration variableDeclaration := by
  rw [variableDeclaration_eq]
  apply RuleAgree.andThen agree_variableParts
  intro v
  apply RuleAgree.step agree_semicolon
  intro _
  exact RuleAgree.pure id

theorem agree_skipMisnamedRound (ha : R.ahead) (a : Unit) :
    Agree R (Below k) Yields (skipMisnamedRound a) (skipMisnamedRound a) := by
  apply Agree.atEnd
  intro atEnd
  split
  · exact Agree.pure id
  · apply Agree.forget
    refine Agree.accept_ite ⟨nofun, nofun⟩ ?_ ?_
    · exact Agree.pure id
    · apply Agree.test
      · intro s s' hs _
        rw [variablesEnd_eq ha hs, Cursor.check, R.peek_eq hs, ← Cursor.check]
      · intro stops
        split
        · exact Agree.pure id
        · apply Agree.advance (k := k)
          · rintro s ⟨hs, rfl⟩
            rename_i hgo
            rw [Bool.or_eq_true, not_or] at hgo
            obtain ⟨heof, hbrace⟩ := may_of_not_variablesEnd hgo.2
            exact ⟨hs, heof, fun h => absurd h hbrace⟩
          · intro _
            exact Agree.pure id

theorem agree_skipMisnamed (ha : R.ahead) :
    Agree R (fun s => Below k s ∧ R.May s.peek.kind) Always skipMisnamed skipMisnamed := by
  apply Agree.peek
  intro t
  apply Agree.report_then
  · rintro s u hcursor ⟨⟨hs, hmay⟩, ht⟩
    rw [Below, Cursor.left, Cursor.peek, hcursor]
    exact ⟨⟨hs, hmay⟩, ht⟩
  · apply Agree.here
    intro start
    apply Agree.advance (k := k) fun s hs => hs.1
    intro _
    apply Agree.bind (Agree.loop (agree_skipMisnamedRound ha) ())
    intro _
    exact Agree.recordSkipped start _

theorem variableHead_eq (ha : R.ahead) {s s' : Parser} (hs : R.rel s s') : variableHead s' = variableHead s := by
  unfold variableHead
  rw [variablesEnd_eq ha hs, R.peek_eq hs]
  by_cases hend : variablesEnd s = true
  · rw [if_pos hend, if_pos hend]
  · rw [declarationFollows_eq ha hs (may_of_not_variablesEnd hend).2]

theorem kind_of_variableHead {s : Parser} (h : variableHead s ≠ .stop) :
    s.peek.kind ≠ .eof ∧ s.peek.kind ≠ .rightBrace := by
  apply may_of_not_variablesEnd
  intro hend
  exact h (if_pos hend)

theorem agree_variableRound (hR : R.Contained) (found : Array Variable) :
    Agree R (Below k) Yields (variableRound found) (variableRound found) := by
  apply Agree.look (fun s s' hs _ => variableHead_eq hR.ahead hs)
  intro head
  cases head with
  | stop => exact Agree.pure id
  | misnamed =>
      apply Agree.andThen_of (k := k) (fun s hs => hs.1)
      · apply (agree_skipMisnamed (k := k) hR.ahead).mono _ fun _ h => h
        rintro s ⟨hs, hhead⟩
        obtain ⟨heof, hbrace⟩ := kind_of_variableHead (s := s) (by rw [hhead]; nofun)
        exact ⟨hs, heof, fun h => absurd h hbrace⟩
      · intro _
        exact Agree.pure id
  | declared =>
      apply Agree.andThen_of (k := k) (fun s hs => hs.1)
      · apply (agree_withRecovery (k := k) hR variableRecovery agree_variableDeclaration).mono _ fun _ h => h
        rintro s ⟨hs, hhead⟩
        exact ⟨hs, kind_of_variableHead (s := s) (by rw [hhead]; nofun)⟩
      · intro found?
        cases found? <;> exact Agree.pure id

theorem agree_variableBlock (hR : R.Contained) : Agree R (Below k) Never variableBlock variableBlock := by
  apply Agree.bind (Agree.loop (agree_variableRound hR) #[])
  intro found
  exact Agree.pure id

theorem agree_optionalVariables (hR : R.Contained) :
    Agree R (Below k) Never optionalVariables optionalVariables := by
  refine Agree.accept_ite ⟨nofun, nofun⟩ ?_ ?_
  · exact agree_variableBlock hR
  · exact Agree.pure id

theorem agree_parameterModifierRound (a : Unit) :
    RuleAgree R (Below k) Yields (parameterModifierRound a) (parameterModifierRound a) := by
  apply RuleAgree.peekKind
  intro κ
  split
  case h_3 =>
    refine RuleAgree.advance_kind ⟨nofun, nofun⟩ fun _ => ?_
    apply RuleAgree.bind agree_filteringMode.never
    intro mode
    exact RuleAgree.pure id
  case h_4 => exact RuleAgree.pure id
  all_goals
    refine RuleAgree.advance_kind ⟨nofun, nofun⟩ fun _ => ?_
    exact RuleAgree.pure id

theorem agree_parameter : RuleAgree R (Below k) Always parameter parameter := by
  apply RuleAgree.here
  intro start
  refine RuleAgree.accept_bind ⟨nofun, nofun⟩ fun byReference => ?_
  apply RuleAgree.andThen (agree_declaredName _)
  intro name
  refine RuleAgree.expect_then ⟨nofun, nofun⟩ fun _ => ?_
  refine RuleAgree.accept_bind ⟨nofun, nofun⟩ fun temporary => ?_
  apply RuleAgree.bind agree_dataType.never
  intro dataType
  apply RuleAgree.bind (RuleAgree.tryLoop agree_parameterModifierRound ())
  intro _
  apply RuleAgree.spanFrom
  intro span
  exact RuleAgree.pure id

theorem agree_parameterRound (parameters : Array Parameter) :
    RuleAgree R (Below k) Yields (parameterRound parameters) (parameterRound parameters) := by
  have hsemicolon : R.May .semicolon := ⟨nofun, nofun⟩
  have hcomma : R.May .comma := ⟨nofun, nofun⟩
  apply RuleAgree.test
  · intro s s' hs _
    rw [R.atEnd_eq hs, Cursor.check, R.peek_eq hs, ← Cursor.check]
  · intro stops
    split
    · exact RuleAgree.pure id
    · apply RuleAgree.forget
      apply RuleAgree.andThen agree_parameter
      intro next
      apply RuleAgree.accept_ite hsemicolon
      · exact RuleAgree.pure id
      · apply RuleAgree.accept_ite hcomma
        · exact RuleAgree.pure id
        · exact RuleAgree.pure id

theorem agree_parameterList : RuleAgree R (Below k) Always parameterList parameterList := by
  refine RuleAgree.expect_then ⟨nofun, nofun⟩ fun _ => ?_
  apply RuleAgree.bind (RuleAgree.tryLoop agree_parameterRound #[])
  intro parameters
  refine RuleAgree.expect_then ⟨nofun, nofun⟩ fun _ => ?_
  exact RuleAgree.pure id

theorem modifierFollows_eq (ha : R.ahead) {s s' : Parser} (hs : R.rel s s') :
    modifierFollows s' = modifierFollows s := by
  unfold modifierFollows
  rw [R.peek_eq hs]
  by_cases hkind : s.peek.kind = .identifier
  · rw [R.next_eq ha hs (by rw [hkind]; nofun)]
  · simp only [beq_eq_false_iff_ne.2 hkind, Bool.false_and]

theorem kind_of_modifierFollows {s : Parser} (h : modifierFollows s = true) : s.peek.kind = .identifier := by
  rw [modifierFollows, Bool.and_eq_true, Bool.and_eq_true] at h
  exact eq_of_beq h.1.1

theorem agree_skipModifier (ha : R.ahead) : Agree R (Below k) Never skipModifier skipModifier := by
  apply Agree.test (fun s s' hs _ => modifierFollows_eq ha hs)
  intro follows
  split
  · apply Agree.advance (k := k)
    · rintro s ⟨hs, rfl⟩
      rename_i hfollows
      exact ⟨hs, R.may_of_eq (kind_of_modifierFollows hfollows) ⟨nofun, nofun⟩⟩
    · intro t
      split
      · exact Agree.report _
      · exact Agree.pure id
  · exact Agree.pure id

theorem agree_optionalBody : RuleAgree R (Below k) Never optionalBody optionalBody := by
  apply RuleAgree.check_ite
  · exact agree_body.never
  · exact RuleAgree.pure id

theorem returnNameFollows_eq (ha : R.ahead) {s s' : Parser} (hs : R.rel s s') :
    returnNameFollows s' = returnNameFollows s := by
  unfold returnNameFollows
  rw [R.peek_eq hs]
  by_cases hbrace : s.peek.kind = .rightBrace
  · rw [hbrace]
    rfl
  · rw [declarationFollows_eq ha hs hbrace]

theorem agree_returnName (h : ∀ {s s'}, R.rel s s' → returnNameFollows s' = returnNameFollows s) :
    RuleAgree R (Below k) Never returnName returnName := by
  apply RuleAgree.test (fun s s' hs _ => h hs)
  intro follows
  split
  · apply RuleAgree.forget
    apply RuleAgree.bind (agree_declaredName _).never
    intro name
    exact RuleAgree.pure id
  · exact RuleAgree.pure id

theorem agree_returnType : RuleAgree R (Below k) Never returnType returnType := by
  refine RuleAgree.accept_ite ⟨nofun, nofun⟩ ?_ ?_
  · exact agree_dataType.map fun _ h => h.elim
  · exact RuleAgree.pure id

theorem agree_procedureWord : RuleAgree R (Below k) Always procedureWord procedureWord := by
  refine RuleAgree.accept_ite ⟨nofun, nofun⟩ ?_ ?_
  · exact RuleAgree.pure id
  · refine RuleAgree.expect_then ⟨nofun, nofun⟩ fun _ => ?_
    exact RuleAgree.pure id

def declarationEnd (start : Nat) (make : List Variable → List Statement → Text.Span → α) : Rule α := do
  semicolon
  let locals ← optionalVariables
  let body ← optionalBody
  let _ ← accept .semicolon
  return make locals body (← spanFrom start)

def procedureFrom (start : Nat) (isLocal : Bool) : Rule Procedure := do
  procedureWord
  let (name, id) ← declaredName "procedure name"
  let parameters ← parameterList
  let returnName ← returnName
  let returnType ← returnType
  declarationEnd start fun locals body span =>
    ⟨name, id, isLocal, parameters, returnType, returnName, locals, body, span⟩

theorem procedure_eq : procedure = (do
    let start ← here
    skipModifier
    let isLocal ← accept (.keyword .local_)
    procedureFrom start isLocal) := rfl

theorem agree_declarationEnd {α : Type} (hR : R.Contained) (start : Nat)
    (make : List Variable → List Statement → Text.Span → α) :
    RuleAgree R (Below k) Never (declarationEnd start make) (declarationEnd (start + R.shift) make) := by
  apply RuleAgree.step agree_semicolon
  intro _
  apply RuleAgree.step (agree_optionalVariables hR)
  intro locals
  apply RuleAgree.bind agree_optionalBody
  intro body
  refine RuleAgree.accept_bind ⟨nofun, nofun⟩ fun _ => ?_
  apply RuleAgree.spanFrom
  intro span
  exact RuleAgree.pure id

theorem agree_procedureFrom (hR : R.Contained) (start : Nat) (isLocal : Bool) :
    RuleAgree R (Below k) Always (procedureFrom start isLocal) (procedureFrom (start + R.shift) isLocal) := by
  apply RuleAgree.andThen agree_procedureWord
  intro _
  apply RuleAgree.bind (agree_declaredName _).never
  intro name
  apply RuleAgree.bind agree_parameterList.never
  intro parameters
  apply RuleAgree.bind (agree_returnName (returnNameFollows_eq hR.ahead))
  intro returnName
  apply RuleAgree.bind agree_returnType
  intro returnType
  exact agree_declarationEnd hR start _

theorem agree_procedure (hR : R.Contained) : RuleAgree R (Below k) Always procedure procedure := by
  rw [procedure_eq]
  apply RuleAgree.here
  intro start
  apply RuleAgree.step (agree_skipModifier hR.ahead)
  intro _
  refine RuleAgree.accept_bind ⟨nofun, nofun⟩ fun isLocal => ?_
  exact agree_procedureFrom hR start isLocal

theorem agree_triggerBody (hR : R.Contained) : RuleAgree R (Below k) Always triggerBody triggerBody := by
  apply RuleAgree.step (agree_optionalVariables hR)
  intro locals
  apply RuleAgree.andThen agree_body
  intro body
  exact RuleAgree.pure id

theorem agree_triggerName : RuleAgree R (Below k) Never triggerName triggerName := by
  apply RuleAgree.peek
  intro t
  apply RuleAgree.forget
  apply RuleAgree.bind (agree_declaredName _).never
  intro name
  split
  split
  · exact RuleAgree.pure id
  · apply RuleAgree.step (Agree.report _)
    intro _
    exact RuleAgree.pure id

theorem agree_emptyParentheses : RuleAgree R (Below k) Never emptyParentheses emptyParentheses := by
  refine RuleAgree.accept_ite ⟨nofun, nofun⟩ ?_ ?_
  · refine RuleAgree.expect_then ⟨nofun, nofun⟩ fun _ => ?_
    exact RuleAgree.pure id
  · exact RuleAgree.pure id

theorem trigger_eq : trigger = (do
    let start ← here
    let _ ← expect (.keyword .trigger)
    let name ← triggerName
    emptyParentheses
    declarationEnd start fun locals body span => (⟨name, locals, body, span⟩ : Trigger)) := rfl

theorem agree_trigger (hR : R.Contained) : RuleAgree R (Below k) Always trigger trigger := by
  rw [trigger_eq]
  apply RuleAgree.here
  intro start
  refine RuleAgree.expect_then ⟨nofun, nofun⟩ fun _ => ?_
  apply RuleAgree.bind agree_triggerName
  intro name
  apply RuleAgree.bind agree_emptyParentheses
  intro _
  exact agree_declarationEnd hR start _

theorem agree_numberedName (role : String) :
    RuleAgree R (Below k) Always (numberedName role) (numberedName role) := by
  apply RuleAgree.peek
  intro t
  split
  · rename_i hname
    apply RuleAgree.advance_token (may_of_canName hname)
    intro _
    apply RuleAgree.bind agree_autoNumber
    intro number
    cases number <;> exact RuleAgree.pure id
  · exact RuleAgree.throw _

theorem agree_optionalParameters : RuleAgree R (Below k) Never optionalParameters optionalParameters := by
  apply RuleAgree.check_ite
  · exact agree_parameterList.never
  · exact RuleAgree.pure id

theorem event_eq : event = (do
    let start ← here
    let _ ← expect (.keyword .event)
    let subscriber ← numberedName "event subscriber name"
    let _ ← expect .doubleColon
    let event ← numberedName "event name"
    let parameters ← optionalParameters
    declarationEnd start fun locals body span =>
      (⟨subscriber, event, parameters, locals, body, span⟩ : EventHandler)) := rfl

theorem agree_event (hR : R.Contained) : RuleAgree R (Below k) Always event event := by
  rw [event_eq]
  apply RuleAgree.here
  intro start
  refine RuleAgree.expect_then ⟨nofun, nofun⟩ fun _ => ?_
  apply RuleAgree.bind (agree_numberedName _).never
  intro subscriber
  refine RuleAgree.expect_then ⟨nofun, nofun⟩ fun _ => ?_
  apply RuleAgree.bind (agree_numberedName _).never
  intro event
  apply RuleAgree.bind agree_optionalParameters
  intro parameters
  exact agree_declarationEnd hR start _

theorem agree_skipAttributeRound (hR : R.closes) (depth : Nat) :
    Agree R (Below k) Yields (skipAttributeRound depth) (skipAttributeRound depth) := by
  apply Agree.atEnd
  intro atEnd
  split
  · exact Agree.pure id
  · apply Agree.advance (k := k)
    · rintro s ⟨hs, rfl⟩
      exact ⟨hs, mt Cursor.kind_peek_eq_eof.1 (by assumption), fun _ => hR⟩
    · intro t
      split
      · exact Agree.pure id
      · split <;> exact Agree.pure id
      · exact Agree.pure id

theorem skipAttributeRound_snd {s : Parser} (h : s.atEnd = false) (depth : Nat) :
    (skipAttributeRound depth s).2 = (advance s).2 := by
  simp only [skipAttributeRound, bind_apply, atEnd, look_apply, h]
  rw [if_neg Bool.false_ne_true]
  simp only [bind_apply]
  cases (advance s).1.kind <;> rfl

theorem skipAttributes_apply (s : Parser) :
    (skipAttributes s).2 = (note ((Event.debug "Skipped attribute list").set "tokens"
      (toString ((loop 0 skipAttributeRound s).2.position - s.position))) (loop 0 skipAttributeRound s).2).2 := by
  simp only [skipAttributes, here, passedSince, bind_apply, look_apply]

theorem skipAttributes_passes {s : Parser} (h : s.peek.kind ≠ .eof) : (skipAttributes s).2.left < s.left := by
  have hround : ∀ depth, Steady (skipAttributeRound depth) := fun depth =>
    (agree_skipAttributeRound (R := .same) (k := 0) trivial depth).steady
  rw [skipAttributes_apply]
  apply Nat.lt_of_le_of_lt (forward_note _ _).left_le
  apply loop_passes hround
  rw [skipAttributeRound_snd (by simpa [Cursor.kind_peek_eq_eof] using h)]
  exact left_advance_lt h

theorem agree_skipAttributes (hR : R.closes) :
    Agree R (fun s => Below k s ∧ s.peek.kind ≠ .eof) Always skipAttributes skipAttributes := by
  apply Agree.of_passes _ fun s hs => skipAttributes_passes hs.2
  apply Agree.forget
  apply Agree.here
  intro start
  apply Agree.bind (Agree.loop (agree_skipAttributeRound hR) 0)
  intro _
  apply Agree.passedSince
  intro passed
  exact Agree.note _

theorem agree_recoverDeclaration (hR : R.closes) (fault : Fault) (start depth : Nat) :
    Agree R (Below k) Never (recoverDeclaration fault start depth)
      (recoverDeclaration fault (start + R.shift) (depth + R.deep)) := by
  apply Agree.bind (Agree.report fault)
  intro _
  apply Agree.bind (agree_forceProgress start)
  intro _
  apply Agree.bind (agree_skipDeclaration hR depth)
  intro _
  apply Agree.passedSince
  intro count
  split
  · exact Agree.note _
  · exact Agree.pure id

theorem recoverDeclaration_passes (fault : Fault) (depth : Nat) {s t : Parser} (h : Forward s t)
    (heof : s.peek.kind ≠ .eof) (hbrace : s.peek.kind ≠ .rightBrace) :
    (recoverDeclaration fault s.position depth t).2.left < s.left := by
  have hforce := forceProgress_passes (h.trans (forward_record (.ofFault fault) t)) heof hbrace
  have hskip := steady_skipDeclaration depth (forceProgress s.position (report fault t).2).2
  simp only [recoverDeclaration, bind_apply, passedSince, look_apply]
  generalize (skipDeclaration depth (forceProgress s.position (report fault t).2).2).2 = u at hskip ⊢
  have hlt : u.left < s.left := Nat.lt_of_le_of_lt hskip.left_le hforce
  show ((if 0 < u.position - s.position then note _ else pure () : Parse Unit) u).2.left < s.left
  split
  · exact hlt
  · exact hlt

theorem agree_declaration (hR : R.Contained) : RuleAgree R (Below k) Always declaration declaration := by
  apply RuleAgree.peek
  intro t
  split
  · exact ((agree_trigger hR).map fun _ _ => trivial).forget
  · exact ((agree_event hR).map fun _ _ => trivial).forget
  · split
    · exact ((agree_procedure hR).map fun _ _ => trivial).forget
    · exact RuleAgree.throw _
  · apply RuleAgree.test (fun s s' hs _ => modifierFollows_eq hR.ahead hs)
    intro follows
    split
    · exact ((agree_procedure hR).map fun _ _ => trivial).forget.forget
    · exact RuleAgree.throw _

theorem codeHead_eq (ha : R.ahead) {s s' : Parser} (hs : R.rel s s') : codeHead s' = codeHead s := by
  unfold codeHead
  rw [R.peek_eq hs, documentationStarts_eq ha hs]

theorem kind_of_codeHead {s : Parser} (h : codeHead s ≠ .stop) : s.peek.kind ≠ .eof ∧ s.peek.kind ≠ .rightBrace := by
  refine ⟨?_, ?_⟩
  · intro heof
    apply h
    rw [codeHead, heof]
  · intro hbrace
    apply h
    rw [codeHead, hbrace]

theorem documentationStarts_of_codeHead {s : Parser} (h : codeHead s = .documentation) :
    documentationStarts s = true := by
  unfold codeHead at h
  split at h
  case h_5 =>
    split at h
    · assumption
    · cases h
  all_goals cases h

theorem kind_of_codeHead_globals {s : Parser} (h : codeHead s = .globals) : s.peek.kind = .keyword .var := by
  unfold codeHead at h
  split at h
  case h_3 => assumption
  case h_5 => split at h <;> cases h
  all_goals cases h

theorem agree_codeRound (hR : R.closes) (depth : Nat) (items : Array CodeItem) :
    Agree R (Below k) Yields (codeRound depth items) (codeRound (depth + R.deep) items) := by
  have hcontained : R.Contained := Simulation.contained_of_closes hR
  apply Agree.look (fun s s' hs _ => codeHead_eq hcontained.ahead hs)
  intro head
  cases head with
  | stop => exact Agree.pure id
  | globals =>
      apply Agree.advance (k := k)
      · rintro s ⟨hs, hhead⟩
        exact ⟨hs, R.may_of_eq (kind_of_codeHead_globals hhead) ⟨nofun, nofun⟩⟩
      · intro _
        apply Agree.bind (agree_variableBlock hcontained)
        intro vars
        exact Agree.pure id
  | attributes =>
      apply Agree.andThen_of (k := k) (fun s hs => hs.1)
      · apply (agree_skipAttributes (k := k) hR).mono _ fun _ h => h
        rintro s ⟨hs, hhead⟩
        exact ⟨hs, (kind_of_codeHead (s := s) (by rw [hhead]; nofun)).1⟩
      · intro _
        exact Agree.pure id
  | documentation =>
      apply Agree.andThen_of (k := k) (fun s hs => hs.1)
      · apply Agree.of_passes
        · apply (agree_advanceBy 3).mono _ fun _ h => h
          rintro s ⟨-, hhead⟩ i hi
          obtain ⟨hbegin, hend, hdot⟩ := kinds_of_documentationStarts (documentationStarts_of_codeHead hhead)
          obtain rfl | rfl | rfl : i = 0 ∨ i = 1 ∨ i = 2 := by omega
          · exact R.may_of_eq hbegin ⟨nofun, nofun⟩
          · exact R.may_of_eq hend ⟨nofun, nofun⟩
          · exact R.may_of_eq hdot ⟨nofun, nofun⟩
        · rintro s ⟨-, hhead⟩
          exact advanceBy_passes (by decide) (kind_of_codeHead (s := s) (by rw [hhead]; nofun)).1
      · intro _
        exact Agree.pure id
  | declaration =>
      apply Agree.start
      intro start
      apply Agree.recover (k := k) (fun s hs => hs.1.1) ((agree_declaration hcontained).of_below fun s hs => hs.1.1)
      · intro item
        exact Agree.pure id
      · intro fault
        apply Agree.forget
        apply Agree.bind (agree_recoverDeclaration hR fault start depth)
        intro _
        exact Agree.pure id
      · rintro fault s u ⟨⟨-, hhead⟩, rfl⟩ h _
        obtain ⟨heof, hbrace⟩ := kind_of_codeHead (s := s) (by rw [hhead]; nofun)
        simp only [bind_apply, pure_apply]
        exact recoverDeclaration_passes fault depth h heof hbrace

theorem agree_codeItems (hR : R.closes) (depth : Nat) :
    Agree R (Below k) Never (codeItems depth) (codeItems (depth + R.deep)) := by
  apply Agree.bind (Agree.loop (agree_codeRound hR depth) #[])
  intro items
  exact Agree.pure id

theorem agree_codeSection (hR : R.closes) : RuleAgree R (Below k) Always codeSection codeSection := by
  apply RuleAgree.here
  intro start
  refine RuleAgree.expect_then ⟨nofun, nofun⟩ fun _ => ?_
  refine RuleAgree.expect_then ⟨nofun, nofun⟩ fun _ => ?_
  apply RuleAgree.depth
  intro depth
  apply RuleAgree.forget
  apply RuleAgree.step (agree_codeItems hR depth)
  intro items
  refine RuleAgree.expect_then ⟨nofun, fun _ => hR⟩ fun _ => ?_
  apply RuleAgree.spanFrom
  intro span
  exact RuleAgree.pure id

end CalExport.Rule
