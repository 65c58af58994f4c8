import CalExport.Proofs.Kinship.Statement
import CalExport.Proofs.Simulation.Declaration

namespace CalExport.Rule

variable {α β : Type} {K : Kinship}

/-- The next token is no string, so its text is a word. -/
theorem meet_simpleType {s s' : Parser} (hs : K.Near s s') (hkind : s.peek.kind ≠ .string) :
    Meet K (Under (DataType.mapText K.text)) simpleType simpleType s s' := by
  refine Meet.here hs fun start => ?_
  refine Meet.advance hs fun t t' ht htkind => ?_
  have hword := K.text_word ht (htkind ▸ hkind)
  have hsplit := K.splitSize hword
  dsimp only
  generalize splitSize t.text = split at hsplit
  generalize splitSize t'.text = split' at hsplit
  rcases split with ⟨base, length⟩
  rcases split' with ⟨base', _⟩
  obtain ⟨hbase, rfl⟩ := hsplit
  dsimp only
  refine (keeps_accept .leftBracket).step_eq fun found => ?_
  split
  · refine keeps_size.bind_eq fun size => ?_
    refine keeps_expect_then fun _ _ _ _ => ?_
    refine (keeps_spanFrom start).step_eq fun span => ?_
    apply RuleKeeps.pure
    have hname : Under K.text (base ++ "[" ++ toString size ++ "]") (base' ++ "[" ++ toString size ++ "]") :=
      K.text_of_word (K.word_append (K.word_append (K.word_append hbase rfl) rfl) rfl)
    exact congrArg (DataType.simple · (some size) span) hname
  · refine (keeps_spanFrom start).step_eq fun span => ?_
    apply RuleKeeps.pure
    exact congrArg (DataType.simple · _ span) (K.text_of_word hword)

theorem keeps_objectNumber : RuleKeeps K Eq objectNumber objectNumber := by
  refine (keeps_check .integer).step_eq fun found => ?_
  split
  · exact keeps_integer.map fun _ _ h => congrArg some h
  · exact RuleKeeps.pure rfl

theorem keeps_referenceType (target : Keyword) :
    RuleKeeps K (Under (DataType.mapText K.text)) (referenceType target) (referenceType target) := by
  refine keeps_here.step_eq fun start => ?_
  refine keeps_advance.step fun _ _ _ => ?_
  refine keeps_objectNumber.bind_eq fun id => ?_
  refine (keeps_spanFrom start).step_eq fun span => ?_
  exact RuleKeeps.pure rfl

theorem keeps_textConstType : RuleKeeps K (Under (DataType.mapText K.text)) textConstType textConstType := by
  refine keeps_here.step_eq fun start => ?_
  refine keeps_expect_then fun _ _ _ _ => ?_
  refine (keeps_loop_unit fun _ => ?_).step_eq fun _ => ?_
  · refine (keeps_accept .string).bind_eq fun found => ?_
    split
    · refine (keeps_accept .comma).bind_eq fun _ => ?_
      exact Keeps.pure rfl
    · exact Keeps.pure rfl
  · refine (keeps_spanFrom start).step_eq fun span => ?_
    exact RuleKeeps.pure rfl

/-- A descriptor is a word, whatever it is quoted by. -/
theorem meet_descriptor {s s' : Parser} (hs : K.Near s s') (hvalue : Under K.word s.peek.value s'.peek.value)
    {f : α → β} {read : String → Except DescriptorError α}
    (hread : ∀ {a a'}, Under K.word a a' → Under (Except.map f) (read a) (read a')) (typeName : String) :
    Meet K (Under (Option.map f)) (liftM (descriptor typeName read)) (liftM (descriptor typeName read)) s s' := by
  have hinfo := hread hvalue
  refine Meet.lift_peek hs ?_
  rw [hs.cursor.kind_peek, K.span_eq hs.cursor.peek]
  split
  case h_3 =>
    refine (keeps_report (.refl _)).bind_eq fun _ => ?_
    exact Keeps.pure rfl
  all_goals
    refine keeps_advance.bind fun _ _ _ => ?_
    cases hr : read s.peek.value <;> cases hr' : read s'.peek.value <;> rw [hr, hr'] at hinfo
    case error.error =>
      obtain rfl := Except.error.inj hinfo
      refine (keeps_report (.refl _)).bind_eq fun _ => ?_
      exact Keeps.pure rfl
    case ok.ok => exact Keeps.pure (congrArg some (Except.ok.inj hinfo))
    all_goals cases hinfo

theorem keeps_described {word : Keyword} (hword : (Kind.keyword word).describes = true) {f : α → β}
    {read : String → Except DescriptorError α}
    (hread : ∀ {a a'}, Under K.word a a' → Under (Except.map f) (read a) (read a')) (typeName : String)
    {make : Option α → Text.Span → DataType}
    (hmake : ∀ {info info' span}, Under (Option.map f) info info' →
      Under (DataType.mapText K.text) (make info span) (make info' span)) :
    RuleKeeps K (Under (DataType.mapText K.text)) (described word typeName read make)
      (described word typeName read make) := by
  intro s s' hs
  refine Meet.here hs fun start => ?_
  refine Meet.expect hs fun hkind => ?_
  have hdescribes : s.peek.kind.describes = true := by rw [hkind, hword]
  have hvalue : Under K.word (advance s).2.peek.value (advance s').2.peek.value := by
    have hend : s.atEnd = false := by
      rw [← Bool.not_eq_true, ← Cursor.kind_peek_eq_eof]
      intro heof
      rw [heof] at hdescribes
      cases hdescribes
    have hend' : s'.atEnd = false := hs.cursor.atEnd.trans hend
    show Under K.word s.next.peek.value s'.next.peek.value
    rw [Cursor.peek_next hend, Cursor.peek_next hend', hs.cursor.position]
    exact hs.cursor.described s.position hdescribes
  refine Meet.step (meet_descriptor (keeps_advance s s' hs).2 hvalue hread typeName) fun info info' hinfo => ?_
  refine (keeps_spanFrom start).step_eq fun span => ?_
  exact RuleKeeps.pure (hmake hinfo)

theorem keeps_dotNetType : RuleKeeps K (Under (DataType.mapText K.text)) dotNetType dotNetType :=
  keeps_described rfl K.dotNet "DotNet" fun h => by simp only [Under, DataType.mapText, h]

theorem keeps_automationType : RuleKeeps K (Under (DataType.mapText K.text)) automationType automationType :=
  keeps_described rfl K.automation "Automation" fun h => by simp only [Under, DataType.mapText, h]

theorem keeps_dimensions : RuleKeeps K Eq dimensions dimensions := by
  refine keeps_expect_then fun opening opening' hopening _ => ?_
  refine keeps_size.bind_eq fun first => ?_
  refine RuleKeeps.bind_eq (keeps_tryLoop (r := Eq) (fun found _ hfound => ?_) rfl) fun found => ?_
  · cases hfound
    refine (keeps_accept .comma).step_eq fun more => ?_
    split
    · refine keeps_size.bind_eq fun length => ?_
      exact RuleKeeps.pure rfl
    · exact RuleKeeps.pure rfl
  · refine keeps_expect_then fun closing closing' hclosing _ => ?_
    rw [K.span_eq hopening, K.span_eq hclosing]
    split
    · refine (keeps_report (.refl _)).step_eq fun _ => ?_
      exact RuleKeeps.pure rfl
    · exact RuleKeeps.pure rfl

theorem keeps_arrayType {element element' : Rule DataType}
    (hsub : RuleKeeps K (Under (DataType.mapText K.text)) element element') :
    RuleKeeps K (Under (DataType.mapText K.text)) (arrayType element) (arrayType element') := by
  refine keeps_here.step_eq fun start => ?_
  refine keeps_expect_then fun _ _ _ _ => ?_
  refine keeps_dimensions.bind_eq fun found => ?_
  refine keeps_expect_then fun _ _ _ _ => ?_
  refine (keeps_accept (.keyword .temporary)).step_eq fun temporary => ?_
  refine hsub.bind fun element element' helement => ?_
  refine (keeps_spanFrom start).step_eq fun span => ?_
  apply RuleKeeps.pure
  simp only [Under, DataType.mapText, helement]

theorem keeps_dataTypeWith {element element' : Rule DataType}
    (hsub : RuleKeeps K (Under (DataType.mapText K.text)) element element') :
    RuleKeeps K (Under (DataType.mapText K.text)) (dataTypeWith element) (dataTypeWith element') := by
  intro s s' hs
  refine Meet.peek ?_
  have ht := hs.cursor.peek
  rw [K.kind_eq ht]
  split
  · exact keeps_arrayType hsub s s' hs
  · exact keeps_textConstType s s' hs
  · exact keeps_dotNetType s s' hs
  · exact keeps_automationType s s' hs
  · refine Meet.advance hs fun _ _ _ _ => ?_
    apply RuleKeeps.pure
    simp only [Under, DataType.mapText, K.text_text ht, K.value_text ht, K.span_eq ht]
  · rename_i hkind
    exact meet_simpleType hs (by rw [hkind]; rintro ⟨⟩)
  · rename_i hkind
    exact meet_simpleType hs (by rw [hkind]; rintro ⟨⟩)
  · split
    · exact keeps_referenceType _ s s' hs
    · exact RuleKeeps.throw (.expected _ ht) s s' hs
  · exact RuleKeeps.throw (.expected _ ht) s s' hs

theorem keeps_elementType (n : Nat) :
    RuleKeeps K (Under (DataType.mapText K.text)) (elementType n) (elementType n) := by
  induction n with
  | zero => exact keeps_tooDeep
  | succ n ih => exact keeps_nested (keeps_dataTypeWith ih)

theorem keeps_dataType : RuleKeeps K (Under (DataType.mapText K.text)) dataType dataType :=
  keeps_levels fun n => keeps_dataTypeWith (keeps_elementType n)

theorem variablesEnd_near {s s' : Parser} (hs : K.Near s s') : variablesEnd s' = variablesEnd s := by
  unfold variablesEnd
  rw [hs.cursor.kind_peek, sectionStarts_near hs]

theorem declarationFollows_near {s s' : Parser} (hs : K.Near s s') :
    declarationFollows s' = declarationFollows s := by
  unfold declarationFollows
  rw [hs.cursor.kind_peekAhead]

theorem keeps_filteringMode : RuleKeeps K (Under K.text) filteringMode filteringMode := by
  refine keeps_expect_then fun _ _ _ _ => ?_
  refine keeps_peek.step fun t t' ht => ?_
  rw [K.kind_eq ht]
  split
  · refine keeps_advance.step fun _ _ _ => ?_
    refine keeps_expect_then fun _ _ _ _ => ?_
    exact RuleKeeps.pure (K.value_text ht)
  · exact RuleKeeps.throw (.expected _ ht)

theorem keeps_modifierRound {v v' : Variable} (hv : Under (Variable.mapText K.text) v v') :
    RuleKeeps K (Kinship.Round (Under (Variable.mapText K.text))) (modifierRound v) (modifierRound v') := by
  refine keeps_peekKind.step_eq fun κ => ?_
  split
  · refine keeps_advance.step fun _ _ _ => ?_
    apply RuleKeeps.pure
    show { v.mapText K.text with inDataSet := true } = { v'.mapText K.text with inDataSet := true }
    rw [hv]
  · refine keeps_advance.step fun _ _ _ => ?_
    apply RuleKeeps.pure
    show { v.mapText K.text with withEvents := true } = { v'.mapText K.text with withEvents := true }
    rw [hv]
  · refine keeps_advance.step fun _ _ _ => ?_
    apply RuleKeeps.pure
    show { v.mapText K.text with runOnClient := true } = { v'.mapText K.text with runOnClient := true }
    rw [hv]
  · refine keeps_advance.step fun _ _ _ => ?_
    refine keeps_filteringMode.bind fun mode mode' hmode => ?_
    apply RuleKeeps.pure
    show { v.mapText K.text with securityFiltering := some (K.text mode) } =
      { v'.mapText K.text with securityFiltering := some (K.text mode') }
    rw [hv, hmode]
  · exact RuleKeeps.pure hv

theorem keeps_variableDeclaration :
    RuleKeeps K (Under (Variable.mapText K.text)) variableDeclaration variableDeclaration := by
  refine keeps_here.step_eq fun start => ?_
  refine (keeps_declaredName _).bind ?_
  rintro ⟨name, id⟩ ⟨name', _⟩ ⟨hname, rfl⟩
  refine keeps_expect_then fun _ _ _ _ => ?_
  refine (keeps_accept (.keyword .temporary)).step_eq fun temporary => ?_
  refine keeps_dataType.bind fun type type' htype => ?_
  refine (keeps_spanFrom start).step_eq fun span => ?_
  refine (keeps_tryLoop (fun _ _ h => keeps_modifierRound h) ?_).bind fun modified modified' hmodified => ?_
  · simp only [Under, Variable.mapText, K.text_of_word hname, htype]
  · refine (keeps_spanFrom start).step_eq fun span => ?_
    refine keeps_semicolon.step_eq fun _ => ?_
    apply RuleKeeps.pure
    show { modified.mapText K.text with span } = { modified'.mapText K.text with span }
    rw [hmodified]

theorem blames_misnamed {t t' : Token} (h : K.akin t t') : K.Blames (misnamed t) (misnamed t') := by
  unfold misnamed
  rw [K.kind_eq h, K.span_eq h]
  split
  · exact .refl _
  · exact .expected _ h

theorem keeps_skipMisnamed : Keeps K Eq skipMisnamed skipMisnamed := by
  refine keeps_peek.bind fun t t' ht => ?_
  refine (keeps_report (blames_misnamed ht)).bind_eq fun _ => ?_
  refine keeps_here.bind_eq fun start => ?_
  refine keeps_advance.bind fun _ _ _ => ?_
  refine (keeps_loop_unit fun _ => ?_).bind_eq fun _ => ?_
  · refine keeps_atEnd.bind_eq fun ended => ?_
    split
    · exact Keeps.pure rfl
    · refine (keeps_accept .semicolon).bind_eq fun found => ?_
      split
      · exact Keeps.pure rfl
      · refine (keeps_test fun s s' hs => ?_).bind_eq fun stop => ?_
        · rw [hs.cursor.check, variablesEnd_near hs]
        · split
          · exact Keeps.pure rfl
          · refine keeps_advance.bind fun _ _ _ => ?_
            exact Keeps.pure rfl
  · exact keeps_recordSkipped start _

theorem variableHead_near {s s' : Parser} (hs : K.Near s s') : variableHead s' = variableHead s := by
  unfold variableHead
  rw [variablesEnd_near hs, hs.cursor.kind_peek, declarationFollows_near hs]

theorem keeps_variableBlock : Keeps K (Under (List.map (Variable.mapText K.text))) variableBlock variableBlock := by
  refine Keeps.bind (r := Under (Array.map (Variable.mapText K.text)))
    (keeps_loop (fun found found' hfound => ?_) rfl) fun found found' hfound => ?_
  · refine (Keeps.look fun s s' hs => (variableHead_near hs).symm).bind_eq fun head => ?_
    cases head with
    | stop => exact Keeps.pure hfound
    | misnamed =>
        refine keeps_skipMisnamed.bind_eq fun _ => ?_
        exact Keeps.pure hfound
    | declared =>
        apply (keeps_withRecovery variableRecovery keeps_variableDeclaration).recovered
        · intro v v' hv
          exact Keeps.pure (under_push hfound hv)
        · exact Keeps.pure hfound
  · exact Keeps.pure (under_toList hfound)

theorem keeps_optionalVariables :
    Keeps K (Under (List.map (Variable.mapText K.text))) optionalVariables optionalVariables := by
  refine (keeps_accept (.keyword .var)).bind_eq fun found => ?_
  split
  · exact keeps_variableBlock
  · exact Keeps.pure rfl

theorem keeps_parameterModifiers : RuleKeeps K Eq (tryLoop () parameterModifierRound) (tryLoop () parameterModifierRound) := by
  refine keeps_tryLoop (r := Eq) (fun _ _ _ => ?_) rfl
  refine keeps_peekKind.step_eq fun κ => ?_
  split
  · refine keeps_advance.step fun _ _ _ => ?_
    exact RuleKeeps.pure rfl
  · refine keeps_advance.step fun _ _ _ => ?_
    exact RuleKeeps.pure rfl
  · refine keeps_advance.step fun _ _ _ => ?_
    refine keeps_filteringMode.bind fun _ _ _ => ?_
    exact RuleKeeps.pure rfl
  · exact RuleKeeps.pure rfl

theorem keeps_parameter : RuleKeeps K (Under (Parameter.mapText K.text)) parameter parameter := by
  refine keeps_here.step_eq fun start => ?_
  refine (keeps_accept (.keyword .var)).step_eq fun byReference => ?_
  refine (keeps_declaredName _).bind ?_
  rintro ⟨name, id⟩ ⟨name', _⟩ ⟨hname, rfl⟩
  refine keeps_expect_then fun _ _ _ _ => ?_
  refine (keeps_accept (.keyword .temporary)).step_eq fun temporary => ?_
  refine keeps_dataType.bind fun type type' htype => ?_
  refine keeps_parameterModifiers.bind_eq fun _ => ?_
  refine (keeps_spanFrom start).step_eq fun span => ?_
  apply RuleKeeps.pure
  simp only [Under, Parameter.mapText, K.text_of_word hname, htype]

theorem keeps_parameterList :
    RuleKeeps K (Under (List.map (Parameter.mapText K.text))) parameterList parameterList := by
  refine keeps_expect_then fun _ _ _ _ => ?_
  refine RuleKeeps.bind (r := Under (Array.map (Parameter.mapText K.text)))
    (keeps_tryLoop (fun found found' hfound => ?_) rfl) fun found found' hfound => ?_
  · refine (keeps_test fun s s' hs => ?_).step_eq fun stop => ?_
    · rw [hs.cursor.check, hs.cursor.atEnd]
    · split
      · exact RuleKeeps.pure hfound
      · refine keeps_parameter.bind fun next next' hnext => ?_
        refine (keeps_accept .semicolon).step_eq fun semicolon => ?_
        split
        · exact RuleKeeps.pure (under_push hfound hnext)
        · refine (keeps_accept .comma).step_eq fun comma => ?_
          split
          · exact RuleKeeps.pure (under_push hfound hnext)
          · exact RuleKeeps.pure (under_push hfound hnext)
  · refine keeps_expect_then fun _ _ _ _ => ?_
    exact RuleKeeps.pure (under_toList hfound)

/-- The modifiers are told by the word in front of a procedure. -/
theorem foreignModifier_akin {t t' : Token} (h : K.akin t t') (hkind : t.kind = .identifier) :
    foreignModifier? t'.text = foreignModifier? t.text :=
  K.modifier (K.text_word h (by rw [hkind]; rintro ⟨⟩))

theorem modifierFollows_near {s s' : Parser} (hs : K.Near s s') : modifierFollows s' = modifierFollows s := by
  unfold modifierFollows
  rw [hs.cursor.kind_peek, hs.cursor.kind_peekAhead]
  by_cases hkind : s.peek.kind = .identifier
  · rw [foreignModifier_akin hs.cursor.peek hkind]
  · simp only [beq_eq_false_iff_ne.2 hkind, Bool.false_and]

theorem skipModifier_apply (s : Parser) :
    skipModifier s = if modifierFollows s = true then (match foreignModifier? s.peek.text with
      | some (_, instead) => report (.foreignConstruct "AL access modifier" instead s.peek.span)
      | none => pure () : Parse Unit) (advance s).2 else ((), s) := by
  have h : skipModifier s = (if modifierFollows s = true then advance >>= fun modifier =>
      match foreignModifier? modifier.text with
      | some (_, instead) => report (.foreignConstruct "AL access modifier" instead modifier.span)
      | none => pure () else pure () : Parse Unit) s := rfl
  rw [h]
  split <;> rfl

theorem keeps_skipModifier : Keeps K Eq skipModifier skipModifier := by
  intro s s' hs
  rw [skipModifier_apply, skipModifier_apply, modifierFollows_near hs]
  by_cases hfollows : modifierFollows s = true
  · have hkind : s.peek.kind = .identifier := by
      unfold modifierFollows at hfollows
      simp only [Bool.and_eq_true, beq_iff_eq] at hfollows
      exact hfollows.1.1
    rw [if_pos hfollows, if_pos hfollows, foreignModifier_akin hs.cursor.peek hkind, K.span_eq hs.cursor.peek]
    have hnear := (keeps_advance s s' hs).2
    cases foreignModifier? s.peek.text with
    | none => exact ⟨rfl, hnear⟩
    | some modifier => exact keeps_report (.refl _) _ _ hnear
  · rw [if_neg hfollows, if_neg hfollows]
    exact ⟨rfl, hs⟩

theorem keeps_optionalBody :
    RuleKeeps K (Under (List.map (Statement.mapText K.text))) optionalBody optionalBody := by
  refine (keeps_check (.keyword .begin_)).step_eq fun found => ?_
  split
  · exact keeps_body
  · exact RuleKeeps.pure rfl

theorem keeps_returnName : RuleKeeps K (Under (Option.map K.text)) returnName returnName := by
  refine (keeps_test fun s s' hs => ?_).step_eq fun named => ?_
  · unfold returnNameFollows
    rw [hs.cursor.kind_peek, declarationFollows_near hs]
  · split
    · refine (keeps_declaredName _).bind fun declared declared' hdeclared => ?_
      exact RuleKeeps.pure (congrArg some (K.text_of_word hdeclared.1))
    · exact RuleKeeps.pure rfl

theorem keeps_returnType : RuleKeeps K (Under (Option.map (DataType.mapText K.text))) returnType returnType := by
  refine (keeps_accept .colon).step_eq fun found => ?_
  split
  · exact keeps_dataType.map fun _ _ h => congrArg some h
  · exact RuleKeeps.pure rfl

theorem keeps_procedureWord : RuleKeeps K Eq procedureWord procedureWord := by
  refine (keeps_accept (.keyword .procedure)).step_eq fun found => ?_
  split
  · exact RuleKeeps.pure rfl
  · refine keeps_expect_then fun _ _ _ _ => ?_
    exact RuleKeeps.pure rfl

/-- What is made of the variables and of the body has only to keep the nearness of either. -/
theorem keeps_declarationEnd {r : α → α → Prop} (start : Nat)
    {make make' : List Variable → List Statement → Text.Span → α}
    (hmake : ∀ {locals locals' body body' span}, Under (List.map (Variable.mapText K.text)) locals locals' →
      Under (List.map (Statement.mapText K.text)) body body' → r (make locals body span) (make' locals' body' span)) :
    RuleKeeps K r (declarationEnd start make) (declarationEnd start make') := by
  refine keeps_semicolon.step_eq fun _ => ?_
  refine keeps_optionalVariables.step fun locals locals' hlocals => ?_
  refine keeps_optionalBody.bind fun body body' hbody => ?_
  refine (keeps_accept .semicolon).step_eq fun _ => ?_
  refine (keeps_spanFrom start).step_eq fun span => ?_
  exact RuleKeeps.pure (hmake hlocals hbody)

theorem keeps_procedure : RuleKeeps K (Under (Procedure.mapText K.text)) procedure procedure := by
  rw [procedure_eq]
  refine keeps_here.step_eq fun start => ?_
  refine keeps_skipModifier.step_eq fun _ => ?_
  refine (keeps_accept (.keyword .local_)).step_eq fun isLocal => ?_
  refine keeps_procedureWord.bind_eq fun _ => ?_
  refine (keeps_declaredName _).bind ?_
  rintro ⟨name, id⟩ ⟨name', _⟩ ⟨hname, rfl⟩
  refine keeps_parameterList.bind fun parameters parameters' hparameters => ?_
  refine keeps_returnName.bind fun returnName returnName' hreturnName => ?_
  refine keeps_returnType.bind fun returnType returnType' hreturnType => ?_
  refine keeps_declarationEnd start fun hlocals hbody => ?_
  simp only [Under, Procedure.mapText, K.text_of_word hname, hparameters, hreturnName, hreturnType, hlocals, hbody]

theorem keeps_triggerBody :
    RuleKeeps K (fun a b => Under (List.map (Variable.mapText K.text)) a.1 b.1 ∧
      Under (List.map (Statement.mapText K.text)) a.2 b.2) triggerBody triggerBody := by
  refine keeps_optionalVariables.step fun locals locals' hlocals => ?_
  refine keeps_body.bind fun body body' hbody => ?_
  exact RuleKeeps.pure ⟨hlocals, hbody⟩

theorem keeps_triggerName : RuleKeeps K (Under K.text) triggerName triggerName := by
  refine keeps_peek.step fun t t' ht => ?_
  refine (keeps_declaredName _).bind ?_
  rintro ⟨name, id⟩ ⟨name', _⟩ ⟨hname, rfl⟩
  dsimp only
  rw [K.trigger hname]
  split
  · exact RuleKeeps.pure (K.text_of_word hname)
  · refine (keeps_report (.unknownTrigger ht)).step_eq fun _ => ?_
    exact RuleKeeps.pure (K.text_of_word hname)

theorem keeps_emptyParentheses : RuleKeeps K Eq emptyParentheses emptyParentheses := by
  refine (keeps_accept .leftParen).step_eq fun found => ?_
  split
  · refine keeps_expect_then fun _ _ _ _ => ?_
    exact RuleKeeps.pure rfl
  · exact RuleKeeps.pure rfl

theorem keeps_trigger : RuleKeeps K (Under (Trigger.mapText K.text)) trigger trigger := by
  rw [trigger_eq]
  refine keeps_here.step_eq fun start => ?_
  refine keeps_expect_then fun _ _ _ _ => ?_
  refine keeps_triggerName.bind fun name name' hname => ?_
  refine keeps_emptyParentheses.bind_eq fun _ => ?_
  refine keeps_declarationEnd start fun hlocals hbody => ?_
  simp only [Under, Trigger.mapText, hname, hlocals, hbody]

theorem keeps_numberedName (role : String) : RuleKeeps K (Under K.text) (numberedName role) (numberedName role) := by
  refine keeps_peek.step fun t t' ht => ?_
  rw [K.kind_eq ht]
  split
  · refine keeps_advance.step fun _ _ _ => ?_
    refine keeps_autoNumber.bind_eq fun number => ?_
    cases number with
    | none => exact RuleKeeps.pure (K.value_text ht)
    | some number => exact RuleKeeps.pure (K.text_append (K.text_append (K.value_text ht) rfl) rfl)
  · exact RuleKeeps.throw (.expected role ht)

theorem keeps_optionalParameters :
    RuleKeeps K (Under (List.map (Parameter.mapText K.text))) optionalParameters optionalParameters := by
  refine (keeps_check .leftParen).step_eq fun found => ?_
  split
  · exact keeps_parameterList
  · exact RuleKeeps.pure rfl

theorem keeps_event : RuleKeeps K (Under (EventHandler.mapText K.text)) event event := by
  rw [event_eq]
  refine keeps_here.step_eq fun start => ?_
  refine keeps_expect_then fun _ _ _ _ => ?_
  refine (keeps_numberedName _).bind fun subscriber subscriber' hsubscriber => ?_
  refine keeps_expect_then fun _ _ _ _ => ?_
  refine (keeps_numberedName _).bind fun event event' hevent => ?_
  refine keeps_optionalParameters.bind fun parameters parameters' hparameters => ?_
  refine keeps_declarationEnd start fun hlocals hbody => ?_
  simp only [Under, EventHandler.mapText, hsubscriber, hevent, hparameters, hlocals, hbody]

theorem keeps_skipAttributes : Keeps K Eq skipAttributes skipAttributes := by
  refine keeps_here.bind_eq fun start => ?_
  refine Keeps.bind_eq (keeps_loop (r := Eq) (fun depth _ hdepth => ?_) rfl) fun _ => ?_
  · cases hdepth
    refine keeps_atEnd.bind_eq fun ended => ?_
    split
    · exact Keeps.pure rfl
    · refine keeps_advance.bind fun t t' ht => ?_
      rw [K.kind_eq ht]
      split
      · exact Keeps.pure rfl
      · split <;> exact Keeps.pure rfl
      · exact Keeps.pure rfl
  · refine (keeps_passedSince start).bind_eq fun passed => ?_
    exact keeps_note rfl

theorem keeps_recoverDeclaration {e e' : Fault} (h : K.Blames e e') (start depth : Nat) :
    Keeps K Eq (recoverDeclaration e start depth) (recoverDeclaration e' start depth) := by
  refine (keeps_report h).bind_eq fun _ => ?_
  refine (keeps_forceProgress start).bind_eq fun _ => ?_
  refine (keeps_skipDeclaration depth).bind_eq fun _ => ?_
  refine (keeps_passedSince start).bind_eq fun count => ?_
  split
  · exact keeps_note rfl
  · exact Keeps.pure rfl

theorem keeps_declaration : RuleKeeps K (Under (CodeItem.mapText K.text)) declaration declaration := by
  have hprocedure : RuleKeeps K (Under (CodeItem.mapText K.text)) (CodeItem.procedure <$> procedure)
      (CodeItem.procedure <$> procedure) := keeps_procedure.map fun _ _ h => congrArg CodeItem.procedure h
  refine keeps_peek.step fun t t' ht => ?_
  rw [K.kind_eq ht]
  split
  · exact keeps_trigger.map fun _ _ h => congrArg CodeItem.trigger h
  · exact keeps_event.map fun _ _ h => congrArg CodeItem.event h
  · split
    · exact hprocedure
    · exact RuleKeeps.throw (.expected _ ht)
  · refine (keeps_test fun _ _ hs => modifierFollows_near hs).step_eq fun follows => ?_
    split
    · exact hprocedure
    · exact RuleKeeps.throw (.expected _ ht)

theorem codeHead_near {s s' : Parser} (hs : K.Near s s') : codeHead s' = codeHead s := by
  unfold codeHead
  rw [hs.cursor.kind_peek, documentationStarts_near hs]

theorem keeps_codeItems (depth : Nat) :
    Keeps K (Under (List.map (CodeItem.mapText K.text))) (codeItems depth) (codeItems depth) := by
  refine Keeps.bind (r := Under (Array.map (CodeItem.mapText K.text)))
    (keeps_loop (fun items items' hitems => ?_) rfl) fun items items' hitems => ?_
  · refine (Keeps.look fun s s' hs => (codeHead_near hs).symm).bind_eq fun head => ?_
    cases head with
    | stop => exact Keeps.pure hitems
    | globals =>
        refine keeps_advance.bind fun _ _ _ => ?_
        refine keeps_variableBlock.bind fun declared declared' hdeclared => ?_
        exact Keeps.pure (under_push hitems (congrArg CodeItem.globals hdeclared))
    | attributes =>
        refine keeps_skipAttributes.bind_eq fun _ => ?_
        exact Keeps.pure hitems
    | documentation =>
        refine (keeps_advanceBy 3).bind fun _ _ _ => ?_
        exact Keeps.pure hitems
    | declaration =>
        refine keeps_here.bind_eq fun start => ?_
        apply keeps_declaration.recover
        · intro item item' hitem
          exact Keeps.pure (under_push hitems hitem)
        · intro e e' he
          refine (keeps_recoverDeclaration he start depth).bind_eq fun _ => ?_
          exact Keeps.pure hitems
  · exact Keeps.pure (under_toList hitems)

theorem keeps_codeSection : RuleKeeps K (Under (CodeSection.mapText K.text)) codeSection codeSection := by
  refine keeps_here.step_eq fun start => ?_
  refine keeps_expect_then fun _ _ _ _ => ?_
  refine keeps_expect_then fun _ _ _ _ => ?_
  refine keeps_depth.step_eq fun depth => ?_
  refine (keeps_codeItems depth).step fun items items' hitems => ?_
  refine keeps_expect_then fun _ _ _ _ => ?_
  refine (keeps_spanFrom start).step_eq fun span => ?_
  apply RuleKeeps.pure
  rw [Under, CodeSection.mapText_ofItems, CodeSection.mapText_ofItems, hitems]

end CalExport.Rule
