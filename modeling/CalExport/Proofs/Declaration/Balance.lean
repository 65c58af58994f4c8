import CalExport.Proofs.Statement.Balance
import CalExport.Proofs.Simulation.Declaration

namespace CalExport

theorem Kind.plain_of_canName {κ : Kind} (h : κ.canName = true) : κ ≠ .eof ∧ κ.isBlockWord = false := by
  cases κ with
  | identifier | quotedIdentifier => exact ⟨(by rintro ⟨⟩), rfl⟩
  | keyword k => cases k <;> first | exact ⟨(by rintro ⟨⟩), rfl⟩ | cases h
  | _ => cases h

namespace Rule

variable {α β : Type}

namespace Settles

variable {n : Nat} {κ : Kind} {x : Rule α} {f : α → Rule β}

theorem lift {x : Parse α} {f : α → Rule β} (hx : Settles 0 (liftM x)) (hf : ∀ a, Settles n (f a)) :
    Settles n (liftM x >>= f) := bind hx hf

theorem peek {f : Token → Rule β} (hf : ∀ t, Covers (fun l => clearMembers l = true ∧ IsNext t l) (f t)
    fun run _ _ => Closes n run) : Settles n (liftM Rule.peek >>= f) := Covers.peek hf

/-- A token that may be a name opens and closes nothing. -/
theorem name {P : List Token → Prop} {f : Token → Rule β} {t : Token} (ht : t.kind.canName = true)
    (hP : ∀ l, P l → clearMembers l = true ∧ IsNext t l) (hf : ∀ t, Settles n (f t)) :
    Covers P (liftM Rule.advance >>= f) fun run _ _ => Closes n run :=
  advance (Kind.plain_of_canName ht).1 (Kind.plain_of_canName ht).2
    (fun l hl => ⟨(hP l hl).1, (hP l hl).2.1⟩) hf

theorem tryLoop {round : α → Rule (ForInStep α)} (hprogress : TryProgresses round)
    (hround : ∀ a, Settles 0 (round a)) (a : α) : Settles 0 (Rule.tryLoop a round) := by
  refine Covers.tryLoop (g := fun _ run _ _ => Closes 0 run) hprogress (fun a => ?_) a
  apply (hround a).mono
  intro run rest next hclear hrun
  cases next with
  | yield b => exact ⟨clearMembers_right hclear, fun _ _ _ hv => hrun.append hv⟩
  | done b => exact hrun

/-- What is tried and fails is reported, so it is not clean. -/
theorem withRecovery {recovery : List Kind} (hx : Settles 0 x) : Settles 0 (liftM (withRecovery recovery x)) := by
  refine Covers.step (Settles.look fun base => ?_)
  refine Covers.step (Settles.look fun start => ?_)
  apply Settles.recover hx
  · exact fun a => Settles.pure (some a)
  · intro fault
    exact Covers.report (f := fun _ => liftM (recoverItem base start recovery >>= fun _ => Pure.pure none))
      (steady_recoverItem base start recovery)

end Settles

theorem settles_semicolon : Settles 0 (liftM semicolon) := by
  refine Covers.step (Settles.accept (by rintro ⟨⟩) rfl fun found => ?_)
  cases found with
  | true => exact Settles.pure ()
  | false => exact Covers.step (Settles.look fun next => Settles.reported _)

theorem settles_boundedValue (largest : Nat) (token : Token) : Settles 0 (liftM (boundedValue largest token)) := by
  unfold boundedValue
  dsimp only
  split
  · exact Settles.pure _
  · exact Covers.step (Settles.report Forward.refl)

theorem settles_integer : Settles 0 integer := by
  refine Settles.accept (by rintro ⟨⟩) rfl fun negative => ?_
  refine Settles.expect (by rintro ⟨⟩) rfl fun token => ?_
  have hvalue : Settles 0 (liftM (integerValue token)) :=
    Covers.step (Settles.lift (settles_boundedValue _ token) fun value => Settles.pure _)
  exact Settles.lift hvalue fun value => Settles.pure _

theorem settles_size : Settles 0 size := Settles.expect (by rintro ⟨⟩) rfl fun token => settles_boundedValue _ token

theorem settles_autoNumber : Settles 0 autoNumber := by
  refine Settles.accept (by rintro ⟨⟩) rfl fun found => ?_
  split
  · exact settles_integer.bind fun number => Settles.pure _
  · exact Settles.pure _

theorem settles_declaredName (role : String) : Settles 0 (declaredName role) := by
  refine Settles.peek fun token => ?_
  split
  · rename_i hname
    exact Settles.name hname (fun l hl => hl) fun _ => settles_autoNumber.bind fun number => Settles.pure _
  · split
    · exact Covers.throw _
    · exact Covers.throw _

theorem settles_simpleType (s : Token) (hs : s.kind ≠ .eof) (hplain : s.kind.isBlockWord = false) :
    Covers (fun l => clearMembers l = true ∧ IsNext s l) simpleType fun run _ _ => Closes 0 run := by
  refine Covers.here fun start => ?_
  refine Settles.advance hs hplain (fun l hl => ⟨hl.1, hl.2.1⟩) fun token => ?_
  dsimp only
  refine Settles.accept (by rintro ⟨⟩) rfl fun found => ?_
  split
  · refine settles_size.bind fun length => ?_
    refine Settles.expect (by rintro ⟨⟩) rfl fun _ => ?_
    exact Settles.look fun span => Settles.pure _
  · exact Settles.look fun span => Settles.pure _

theorem settles_objectNumber : Settles 0 objectNumber := by
  refine Settles.look fun found => ?_
  split
  · exact settles_integer.map
  · exact Settles.pure _

theorem settles_referenceType (target : Keyword) (s : Token) (hs : s.kind ≠ .eof)
    (hplain : s.kind.isBlockWord = false) :
    Covers (fun l => clearMembers l = true ∧ IsNext s l) (referenceType target) fun run _ _ => Closes 0 run := by
  refine Covers.here fun start => ?_
  refine Settles.advance hs hplain (fun l hl => ⟨hl.1, hl.2.1⟩) fun _ => ?_
  refine settles_objectNumber.bind fun id => ?_
  exact Settles.look fun span => Settles.pure _

theorem settles_skipTexts : Settles 0 (liftM skipTexts) := by
  refine Settles.loop (grammarLoop_progresses .skipTexts) (fun _ => ?_) ()
  refine Covers.step (Settles.accept (by rintro ⟨⟩) rfl fun found => ?_)
  split
  · exact Covers.step (Settles.accept (by rintro ⟨⟩) rfl fun _ => Settles.pure _)
  · exact Settles.pure _

theorem settles_textConstType : Settles 0 textConstType := by
  refine Settles.look fun start => ?_
  refine Settles.expect (by rintro ⟨⟩) rfl fun _ => ?_
  refine settles_skipTexts.lift fun _ => ?_
  exact Settles.look fun span => Settles.pure _

theorem settles_descriptor (typeName : String) (read : String → Except DescriptorError α) :
    Settles 0 (liftM (descriptor typeName read)) := by
  refine Covers.step (Settles.peek fun token => ?_)
  split
  case h_3 => exact Covers.step (Covers.report Forward.refl)
  all_goals
    rename_i hkind
    refine Covers.step (Settles.advance (by rintro ⟨⟩) rfl (fun l hl => ⟨hl.1, hl.2.1.trans hkind⟩) fun _ => ?_)
    split
    · exact Settles.pure _
    · exact Covers.step (Settles.report Forward.refl)

theorem settles_described {word : Keyword} (hword : (Kind.keyword word).isBlockWord = false) (typeName : String)
    (read : String → Except DescriptorError α) (make : Option α → Text.Span → DataType) :
    Settles 0 (described word typeName read make) := by
  refine Settles.look fun start => ?_
  refine Settles.expect (by rintro ⟨⟩) hword fun _ => ?_
  refine (settles_descriptor typeName read).lift fun info => ?_
  exact Settles.look fun span => Settles.pure _

theorem settles_dimensions : Settles 0 dimensions := by
  have hround : ∀ found, Settles 0 (dimensionRound found) := by
    intro found
    refine Settles.accept (by rintro ⟨⟩) rfl fun comma => ?_
    split
    · exact settles_size.bind fun length => Settles.pure _
    · exact Settles.pure _
  refine Settles.expect (by rintro ⟨⟩) rfl fun opening => ?_
  refine settles_size.bind fun first => ?_
  refine (Settles.tryLoop (grammarTryLoop_progresses .dimensions) hround _).bind fun found => ?_
  refine Settles.expect (by rintro ⟨⟩) rfl fun closing => ?_
  split
  · exact Settles.report Forward.refl
  · exact Settles.pure _

theorem settles_arrayType {element : Rule DataType} (h : Settles 0 element) : Settles 0 (arrayType element) := by
  refine Settles.look fun start => ?_
  refine Settles.expect (by rintro ⟨⟩) rfl fun _ => ?_
  refine settles_dimensions.bind fun found => ?_
  refine Settles.expect (by rintro ⟨⟩) rfl fun _ => ?_
  refine Settles.accept (by rintro ⟨⟩) rfl fun temporary => ?_
  refine h.bind fun element => ?_
  exact Settles.look fun span => Settles.pure _

theorem plain_of_isObjectReference {k : Keyword} (h : (k.isObjectReference || k == .form) = true) :
    (Kind.keyword k).isBlockWord = false := by
  cases k <;> first | rfl | cases h

theorem settles_dataTypeWith {element : Rule DataType} (h : Settles 0 element) : Settles 0 (dataTypeWith element) := by
  refine Settles.peek fun token => ?_
  have hclear : ∀ l, clearMembers l = true ∧ IsNext token l → clearMembers l = true := fun l hl => hl.1
  split
  · exact (settles_arrayType h).weaken hclear
  · exact settles_textConstType.weaken hclear
  · exact (settles_described rfl _ _ _).weaken hclear
  · exact (settles_described rfl _ _ _).weaken hclear
  · rename_i hkind
    exact Settles.advance (by rintro ⟨⟩) rfl (fun l hl => ⟨hl.1, hl.2.1.trans hkind⟩) fun _ => Settles.pure _
  · rename_i hkind
    exact settles_simpleType token (by rw [hkind]; rintro ⟨⟩) (by rw [hkind]; rfl)
  · rename_i hkind
    exact settles_simpleType token (by rw [hkind]; rintro ⟨⟩) (by rw [hkind]; rfl)
  · rename_i k _ _ _ _ _ hkind
    split
    · rename_i href
      have hplain : token.kind.isBlockWord = false := hkind ▸ plain_of_isObjectReference href
      exact settles_referenceType k token (by rw [hkind]; rintro ⟨⟩) hplain
    · exact Covers.throw _
  · exact Covers.throw _

theorem settles_elementType (n : Nat) : Settles 0 (elementType n) := by
  induction n with
  | zero => exact Covers.tooDeep
  | succ n ih => exact Covers.nested (settles_dataTypeWith ih)

theorem settles_dataType : Settles 0 dataType :=
  Covers.of_levels (x := fun n => dataTypeWith (elementType n)) fun n => settles_dataTypeWith (settles_elementType n)

theorem settles_filteringMode : Settles 0 filteringMode := by
  refine Settles.expect (by rintro ⟨⟩) rfl fun _ => ?_
  refine Settles.peek fun token => ?_
  split
  · rename_i hname
    exact Settles.name hname (fun l hl => hl) fun _ => Settles.expect (by rintro ⟨⟩) rfl fun _ => Settles.pure _
  · exact Covers.throw _

theorem settles_modifierRound (v : Variable) : Settles 0 (modifierRound v) := by
  apply Covers.peekKind
  intro κ
  split
  · exact Settles.advance (by rintro ⟨⟩) rfl (fun l hl => hl) fun _ => Settles.pure _
  · exact Settles.advance (by rintro ⟨⟩) rfl (fun l hl => hl) fun _ => Settles.pure _
  · exact Settles.advance (by rintro ⟨⟩) rfl (fun l hl => hl) fun _ => Settles.pure _
  · refine Settles.advance (by rintro ⟨⟩) rfl (fun l hl => hl) fun _ => ?_
    exact settles_filteringMode.bind fun mode => Settles.pure _
  · exact (Settles.pure _).weaken fun l hl => hl.1

theorem settles_variableDeclaration : Settles 0 variableDeclaration := by
  refine Settles.look fun start => ?_
  refine (settles_declaredName _).bind fun named => ?_
  refine Settles.expect (by rintro ⟨⟩) rfl fun _ => ?_
  refine Settles.accept (by rintro ⟨⟩) rfl fun temporary => ?_
  refine settles_dataType.bind fun type => ?_
  refine Settles.look fun span => ?_
  refine (Settles.tryLoop (grammarTryLoop_progresses .modifiers) settles_modifierRound _).bind fun modified => ?_
  refine Settles.look fun span => ?_
  exact settles_semicolon.lift fun _ => Settles.pure _

theorem settles_skipMisnamed : Settles 0 (liftM skipMisnamed) := by
  have hrest : Steady (here >>= fun start => advance >>= fun _ => Rule.loop () skipMisnamedRound >>= fun _ =>
      recordSkipped start "misnamed declaration") := fun s =>
    ((forward_advance s).trans ((Agree.loop (agree_skipMisnamedRound (R := .same) (k := 0) trivial) ()).steady _)).trans
      (forward_recordSkipped _ _ _)
  exact Covers.step (Settles.look fun token => Covers.report (f := fun _ => liftM (here >>= fun start => advance >>=
    fun _ => Rule.loop () skipMisnamedRound >>= fun _ => recordSkipped start "misnamed declaration")) hrest)

theorem settles_variableBlock : Settles 0 (liftM variableBlock) := by
  have hround : ∀ found, Settles 0 (liftM (variableRound found)) := by
    intro found
    refine Covers.step (Settles.look fun head => ?_)
    cases head with
    | stop => exact Settles.pure _
    | misnamed =>
        exact Covers.step (settles_skipMisnamed.lift fun _ => Settles.pure _)
    | declared =>
        refine Covers.step ((Settles.withRecovery settles_variableDeclaration).lift fun read => ?_)
        cases read with
        | some v => exact Settles.pure _
        | none => exact Settles.pure _
  exact Covers.step ((Settles.loop (grammarLoop_progresses .variableBlock) hround #[]).lift fun _ => Settles.pure _)

theorem settles_optionalVariables : Settles 0 (liftM optionalVariables) := by
  refine Covers.step (Settles.accept (by rintro ⟨⟩) rfl fun found => ?_)
  split
  · exact settles_variableBlock
  · exact Settles.pure _

theorem settles_parameter : Settles 0 parameter := by
  have hround : ∀ u, Settles 0 (parameterModifierRound u) := by
    intro u
    apply Covers.peekKind
    intro κ
    split
    · exact Settles.advance (by rintro ⟨⟩) rfl (fun l hl => hl) fun _ => Settles.pure _
    · exact Settles.advance (by rintro ⟨⟩) rfl (fun l hl => hl) fun _ => Settles.pure _
    · refine Settles.advance (by rintro ⟨⟩) rfl (fun l hl => hl) fun _ => ?_
      exact settles_filteringMode.bind fun mode => Settles.pure _
    · exact (Settles.pure _).weaken fun l hl => hl.1
  refine Settles.look fun start => ?_
  refine Settles.accept (by rintro ⟨⟩) rfl fun byReference => ?_
  refine (settles_declaredName _).bind fun named => ?_
  refine Settles.expect (by rintro ⟨⟩) rfl fun _ => ?_
  refine Settles.accept (by rintro ⟨⟩) rfl fun temporary => ?_
  refine settles_dataType.bind fun type => ?_
  refine (Settles.tryLoop (grammarTryLoop_progresses .parameterModifiers) hround ()).bind fun _ => ?_
  exact Settles.look fun span => Settles.pure _

theorem settles_parameterList : Settles 0 parameterList := by
  have hround : ∀ found, Settles 0 (parameterRound found) := by
    intro found
    refine Settles.look fun stop => ?_
    split
    · exact Settles.pure _
    · refine settles_parameter.bind fun next => ?_
      refine Settles.accept (by rintro ⟨⟩) rfl fun semicolon => ?_
      split
      · exact Settles.pure _
      · refine Settles.accept (by rintro ⟨⟩) rfl fun comma => ?_
        split
        · exact Settles.pure _
        · exact Settles.pure _
  refine Settles.expect (by rintro ⟨⟩) rfl fun _ => ?_
  refine (Settles.tryLoop (grammarTryLoop_progresses .parameters) hround #[]).bind fun parameters => ?_
  exact Settles.expect (by rintro ⟨⟩) rfl fun _ => Settles.pure _

theorem settles_optionalParameters : Settles 0 optionalParameters := by
  refine Settles.look fun found => ?_
  split
  · exact settles_parameterList
  · exact Settles.pure _

/-- A modifier that is passed is reported. -/
theorem settles_skipModifier : Settles 0 (liftM skipModifier) := by
  refine Covers.step (Covers.look
    (r := fun follows l => follows = true → nextKind l = .identifier) ?_ fun follows => ?_)
  · exact fun s hfollows => (kind_peek s).symm.trans (kind_of_modifierFollows hfollows)
  · split
    · rename_i hfollows
      refine Covers.step (Settles.advance (by rintro ⟨⟩) rfl (fun l hl => ⟨hl.1, hl.2 hfollows⟩) fun modifier => ?_)
      split
      · exact Settles.reported _
      · exact Settles.pure ()
    · exact (Settles.pure ()).weaken fun l hl => hl.1

theorem settles_body : Settles 0 body :=
  Covers.of_levels (x := fun n => bodyWith (statementAt n)) fun n => settles_bodyWith (settles_statementAt n)

theorem settles_optionalBody : Settles 0 optionalBody := by
  refine Settles.look fun found => ?_
  split
  · exact settles_body
  · exact Settles.pure _

theorem settles_returnName : Settles 0 returnName := by
  refine Settles.look fun found => ?_
  split
  · exact (settles_declaredName _).bind fun named => Settles.pure _
  · exact Settles.pure _

theorem settles_returnType : Settles 0 returnType := by
  refine Settles.accept (by rintro ⟨⟩) rfl fun found => ?_
  split
  · exact settles_dataType.map
  · exact Settles.pure _

theorem settles_procedureWord : Settles 0 procedureWord := by
  refine Settles.accept (by rintro ⟨⟩) rfl fun found => ?_
  split
  · exact Settles.pure _
  · exact Settles.expect (by rintro ⟨⟩) rfl fun _ => Settles.pure _

theorem settles_declarationEnd (start : Nat) (make : List Variable → List Statement → Text.Span → α) :
    Settles 0 (declarationEnd start make) := by
  refine settles_semicolon.lift fun _ => ?_
  refine settles_optionalVariables.lift fun locals => ?_
  refine settles_optionalBody.bind fun body => ?_
  refine Settles.accept (by rintro ⟨⟩) rfl fun _ => ?_
  exact Settles.look fun span => Settles.pure _

theorem settles_procedure : Settles 0 procedure := by
  have hfrom : ∀ start isLocal, Settles 0 (procedureFrom start isLocal) := by
    intro start isLocal
    refine settles_procedureWord.bind fun _ => ?_
    refine (settles_declaredName _).bind fun named => ?_
    refine settles_parameterList.bind fun parameters => ?_
    refine settles_returnName.bind fun returnName => ?_
    refine settles_returnType.bind fun returnType => ?_
    exact settles_declarationEnd _ _
  rw [procedure_eq]
  refine Settles.look fun start => ?_
  refine settles_skipModifier.lift fun _ => ?_
  exact Settles.accept (by rintro ⟨⟩) rfl fun isLocal => hfrom start isLocal

theorem settles_triggerBody : Settles 0 triggerBody := by
  refine settles_optionalVariables.lift fun locals => ?_
  exact settles_body.bind fun body => Settles.pure _

theorem settles_trigger : Settles 0 trigger := by
  have hname : Settles 0 triggerName := by
    refine Settles.look fun token => ?_
    refine (settles_declaredName _).bind fun named => ?_
    obtain ⟨name, id⟩ := named
    dsimp only
    split
    · exact Settles.pure _
    · exact Settles.report Forward.refl
  have hparentheses : Settles 0 emptyParentheses := by
    refine Settles.accept (by rintro ⟨⟩) rfl fun found => ?_
    split
    · exact Settles.expect (by rintro ⟨⟩) rfl fun _ => Settles.pure _
    · exact Settles.pure _
  rw [trigger_eq]
  refine Settles.look fun start => ?_
  refine Settles.expect (by rintro ⟨⟩) rfl fun _ => ?_
  refine hname.bind fun name => ?_
  refine hparentheses.bind fun _ => ?_
  exact settles_declarationEnd _ _

theorem settles_numberedName (role : String) : Settles 0 (numberedName role) := by
  refine Settles.peek fun token => ?_
  split
  · rename_i hname
    refine Settles.name hname (fun l hl => hl) fun _ => ?_
    refine settles_autoNumber.bind fun number => ?_
    split
    · exact Settles.pure _
    · exact Settles.pure _
  · exact Covers.throw _

theorem settles_event : Settles 0 event := by
  rw [event_eq]
  refine Settles.look fun start => ?_
  refine Settles.expect (by rintro ⟨⟩) rfl fun _ => ?_
  refine (settles_numberedName _).bind fun subscriber => ?_
  refine Settles.expect (by rintro ⟨⟩) rfl fun _ => ?_
  refine (settles_numberedName _).bind fun event => ?_
  refine settles_optionalParameters.bind fun parameters => ?_
  exact settles_declarationEnd _ _

end Rule

end CalExport
