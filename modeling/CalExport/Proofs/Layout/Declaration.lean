import CalExport.Proofs.Layout.Statement
import CalExport.Proofs.Simulation.Declaration

namespace CalExport.Rule

open Text

variable {α : Type} {F : Fence} {m : Nat}

def Fence.Recovers (F : Fence) (recovery : List Kind) : Prop :=
  F.limit < F.tokens.size → (F.tokenAt F.limit).kind = .rightBrace ∨ (F.tokenAt F.limit).kind ∈ recovery

theorem Fence.recovers_of_open (ho : F.Open) (recovery : List Kind) : Fence.Recovers F recovery :=
  fun h => absurd (ho ▸ h) (Nat.lt_irrefl _)

/-- The end of the input does not stand in front of the last token. -/
theorem Fence.lt_size_of_kind (h : (F.tokenAt F.limit).kind ≠ .eof) : F.limit < F.tokens.size := by
  apply Nat.lt_of_le_of_ne F.limit_le
  intro heq
  rw [heq, Cursor.tokenAt_size] at h
  exact h F.kind_eof

theorem lays_skipItem {base : Nat} {recovery : List Kind} (hbase : F.limit < F.tokens.size → base = F.braceDepth)
    (hrecovery : Fence.Recovers F recovery) : Lays F m (skipItem base recovery) fun _ _ => True := by
  apply Lays.loop (I := fun _ _ => True) fun _ => trivial
  intro _ k _ _
  apply Lays.peekKind
  apply Lays.look_of (p := fun opened => F.limit < F.tokens.size → opened = 0)
  · intro s hs _ hlt
    rw [hs.level hlt, hbase hlt, Nat.sub_self]
  · intro opened hopened
    split
    · exact Lays.pure fun _ => trivial
    · rename_i heof
      -- A token at the fence is never passed: no brace is open there, and the search stops at its kind.
      have hlets : (opened ≠ 0 ∨ (F.tokenAt k).kind ∉ recovery ∧ (F.tokenAt k).kind ≠ .rightBrace) → F.Lets k := by
        intro hgo hle
        apply Nat.lt_of_le_of_ne hle
        rintro rfl
        have hlt := Fence.lt_size_of_kind heof
        rcases hgo with hgo | ⟨hgo, hbrace⟩
        · exact hgo (hopened hlt)
        · exact (hrecovery hlt).elim hbrace hgo
      split
      · split
        · exact Lays.pure fun _ => trivial
        · rename_i hopen
          apply Lays.advance (hlets (.inl hopen))
          exact fun _ => Lays.pure fun _ => trivial
      · rename_i hbrace
        split
        · exact Lays.pure fun _ => trivial
        · rename_i hstop
          apply Lays.advance
          · apply hlets
            by_cases h : opened = 0
            · exact .inr ⟨fun hmem => hstop ⟨h, hmem⟩, hbrace⟩
            · exact .inl h
          · exact fun _ => Lays.pure fun _ => trivial

theorem lays_forceProgress {start : Nat} (hstart : F.Open ∨ start < F.limit) :
    Lays F m (forceProgress start) fun _ _ => True := by
  apply Lays.peekKind
  apply Lays.look_of (p := (· = m - start))
  · rintro s _ rfl
    rfl
  · rintro _ rfl
    split
    · rename_i hstuck
      apply Lays.bind (R := fun _ _ => True)
      · apply Lays.advance (f := pure)
        · intro hle
          rcases hstart with ho | hstart
          · exact F.lets_of_open ho hstuck.2.1 hle
          · omega
        · exact fun _ => Lays.pure fun _ => trivial
      · exact fun _ _ _ _ => Lays.pure fun _ => trivial
    · exact Lays.pure fun _ => trivial

theorem lays_recoverItem {base start : Nat} {recovery : List Kind}
    (hbase : F.limit < F.tokens.size → base = F.braceDepth) (hstart : F.Open ∨ start < F.limit)
    (hrecovery : Fence.Recovers F recovery) : Lays F m (recoverItem base start recovery) fun _ _ => True := by
  apply Lays.here
  apply Lays.bind (lays_skipItem hbase hrecovery)
  intro _ k _ _
  apply Lays.bind (Lays.accepted (F.passes rfl))
  intro _ j _ _
  apply Lays.bind (lays_forceProgress hstart)
  intro _ i _ _
  exact (Lays.skipped m _).mono fun _ _ _ _ _ => trivial

/-- What a rule with recovery yields is what the rule yields. -/
theorem lays_withRecovery {recovery : List Kind} {x : Rule α} {R : α → Nat → Prop} (hx : RuleLays F m x R)
    (hstart : F.Open ∨ F.Lets m) (hrecovery : Fence.Recovers F recovery) :
    Lays F m (withRecovery recovery x) fun result k => ∀ a, result = some a → R a k := by
  apply Lays.of_place
  intro _ hlimit
  apply Lays.depth
  intro base hbase
  apply Lays.here
  apply Lays.attempt hx
  · intro a k _ ha
    refine Lays.pure fun hc => ?_
    rintro _ ⟨⟩
    exact ha hc
  · intro fault k _ hfault
    apply Lays.report hfault
    apply Lays.bind (lays_recoverItem hbase (hstart.imp_right fun h => h hlimit) hrecovery)
    exact fun _ _ _ _ => Lays.pure fun _ => nofun

theorem lays_filteringMode : RuleLays F m filteringMode fun _ _ => True := by
  apply RuleLays.expect (F.passes rfl)
  intro _ _
  apply RuleLays.peek
  split
  · rename_i hname
    apply RuleLays.advance (F.lets_of_test hname (forall_fences rfl rfl rfl rfl rfl))
    intro _
    apply RuleLays.expect (F.passes rfl)
    exact fun _ _ => RuleLays.pure fun _ => trivial
  · exact RuleLays.expected _

/-- What stands behind a type leaves the type as it is. -/
theorem lays_modifiers (v : Variable) :
    RuleLays F m (tryLoop v modifierRound) fun v' _ => v'.dataType = v.dataType := by
  apply RuleLays.tryLoop (I := fun (w : Variable) _ => w.dataType = v.dataType) fun _ => rfl
  intro w k _ hw
  apply RuleLays.peekKind
  split
  case h_4 hkind =>
    apply RuleLays.advance (F.lets_of_kind (by rw [hkind]; rfl))
    intro _
    apply RuleLays.bind lays_filteringMode
    exact fun _ _ _ _ => RuleLays.pure hw
  case h_5 => exact RuleLays.pure hw
  all_goals
    rename_i hkind
    apply RuleLays.advance (F.lets_of_kind (by rw [hkind]; rfl))
    exact fun _ => RuleLays.pure hw

theorem builds_variableDeclaration : Builds F Variable.outline variableDeclaration := by
  intro m
  apply RuleLays.here
  apply RuleLays.bind (lays_declaredName _)
  rintro ⟨name, id⟩ k₁ hk₁ hname
  apply RuleLays.expect (F.passes rfl)
  intro _ _
  apply RuleLays.step (Lays.accepted (F.passes rfl))
  intro temporary k₂ hk₂ _
  apply RuleLays.bind (builds_dataType k₂)
  intro type k₃ hk₃ htype
  apply RuleLays.spanFrom
  intro _ declared _
  dsimp only
  apply RuleLays.bind (lays_modifiers _)
  intro v k₄ hk₄ hv
  apply RuleLays.spanFrom
  intro hsize span hspan
  apply RuleLays.step lays_semicolon
  intro _ k₅ hk₅ _
  refine RuleLays.pure fun hc => ?_
  have hsolid : Solid F.toCursor m k₄ (Variable.outline { v with span }) := by
    apply Solid.node (by omega) hsize (hspan hc)
    have hrow := (htype hc).row.mono (show m ≤ k₂ by omega) hk₄
    simp [hv hc, hrow]
  exact hsolid.mono (Nat.le_refl m) hk₅

/-- A fence ends a block of variables. -/
theorem variablesEnd_of_fences {s : Parser} (h : fences s.peek.kind = true) : variablesEnd s = true := by
  have hkind : ∀ κ, fences κ = true → s.peek.kind = κ → variablesEnd s = true := by
    apply forall_fences
    all_goals
      intro hκ
      simp [variablesEnd, hκ, Keyword.isDeclarationStart]
  exact hkind _ h rfl

theorem lets_of_not_variablesEnd {s : Parser} (hs : Within F s) (h : variablesEnd s = false) : F.Lets s.position := by
  apply F.lets_of_kind
  rw [← hs.peek]
  cases hf : fences s.peek.kind with
  | false => rfl
  | true => rw [variablesEnd_of_fences hf] at h; cases h

theorem bounded_misnamed (c : Cursor) (i : Nat) : Bounded c (misnamed (c.tokenAt i)).span := by
  unfold misnamed
  split
  · exact .token c i
  · exact .expected c _ i

theorem lays_skipMisnamed (h : F.Lets m) : Lays F m skipMisnamed fun _ _ => True := by
  apply Lays.peek
  apply Lays.report fun _ => bounded_misnamed F.toCursor m
  apply Lays.here
  apply Lays.advance h
  intro _
  apply Lays.bind (R := fun _ _ => True)
  · apply Lays.loop (I := fun _ _ => True) fun _ => trivial
    intro _ k _ _
    apply Lays.look
    intro found
    split
    · exact Lays.pure fun _ => trivial
    · apply Lays.accept (F.passes rfl)
      · exact fun _ _ => Lays.pure fun _ => trivial
      · apply Lays.look_of (p := fun found => found = false → F.Lets k)
        · rintro s hs rfl hgo
          rw [Bool.or_eq_false_iff] at hgo
          exact lets_of_not_variablesEnd hs hgo.2
        · intro found hgo
          cases found with
          | true => exact Lays.pure fun _ => trivial
          | false =>
              apply Lays.advance (hgo rfl)
              exact fun _ => Lays.pure fun _ => trivial
  · exact fun _ k _ _ => (Lays.skipped m _).mono fun _ _ _ _ _ => trivial

/-- A block of variables goes on only in front of a token that may be passed. -/
theorem lets_of_variableHead {s : Parser} (hs : Within F s) (h : variableHead s ≠ .stop) : F.Lets s.position := by
  apply lets_of_not_variablesEnd hs
  cases hend : variablesEnd s with
  | false => rfl
  | true =>
      rw [variableHead, hend] at h
      exact absurd rfl h

theorem recovers_variables : Fence.Recovers F variableRecovery := by
  intro _
  have hkinds : ∀ κ, fences κ = true → κ ≠ .eof → κ = .rightBrace ∨ κ ∈ variableRecovery := by
    apply forall_fences
    · exact fun h => absurd rfl h
    all_goals decide
  apply hkinds _ F.fenced
  exact Cursor.kind_tokenAt_ne_eof ‹_›

theorem lays_variableRound {k : Nat} {found : Array Variable} (hk : m ≤ k)
    (hfound : F.InOrder → Row F.toCursor m k (found.toList.map Variable.outline)) :
    Lays F k (variableRound found) fun r j => Row F.toCursor m j ((payload r).toList.map Variable.outline) := by
  apply Lays.look_of (p := fun head => head ≠ .stop → F.Lets k)
  · rintro s hs rfl
    exact lets_of_variableHead hs
  · intro head hhead
    cases head with
    | stop => exact Lays.pure hfound
    | misnamed =>
        apply Lays.bind (lays_skipMisnamed (hhead nofun))
        intro _ j hj _
        exact Lays.pure fun hc => (hfound hc).mono (Nat.le_refl m) hj
    | declared =>
        apply Lays.bind (lays_withRecovery (builds_variableDeclaration k) (.inr (hhead nofun)) recovers_variables)
        intro result j hj hresult
        cases result with
        | none => exact Lays.pure fun hc => (hfound hc).mono (Nat.le_refl m) hj
        | some v =>
            refine Lays.pure fun hc => ?_
            have hrow := (hresult hc v rfl).row
            simpa [payload] using (hfound hc).append hrow hk hj

theorem lays_variableBlock :
    Lays F m variableBlock fun found k => Row F.toCursor m k (found.map Variable.outline) := by
  apply Lays.bind (R := fun found k => Row F.toCursor m k (found.toList.map Variable.outline))
  · exact Lays.loop (fun _ => .nil) fun found k hk hfound => lays_variableRound hk hfound
  · exact fun found k _ hfound => Lays.pure hfound

theorem lays_optionalVariables :
    Lays F m optionalVariables fun found k => Row F.toCursor m k (found.map Variable.outline) := by
  apply Lays.accept (F.passes rfl)
  · exact fun _ _ => lays_variableBlock.mono fun _ k _ _ h => h.mono (Nat.le_succ m) (Nat.le_refl k)
  · exact Lays.pure fun _ => .nil

theorem lays_parameterModifiers : RuleLays F m (tryLoop () parameterModifierRound) fun _ _ => True := by
  apply RuleLays.tryLoop (I := fun _ _ => True) fun _ => trivial
  intro _ k _ _
  apply RuleLays.peekKind
  split
  case h_3 hkind =>
    apply RuleLays.advance (F.lets_of_kind (by rw [hkind]; rfl))
    intro _
    apply RuleLays.bind lays_filteringMode
    exact fun _ _ _ _ => RuleLays.pure fun _ => trivial
  case h_4 => exact RuleLays.pure fun _ => trivial
  all_goals
    rename_i hkind
    apply RuleLays.advance (F.lets_of_kind (by rw [hkind]; rfl))
    exact fun _ => RuleLays.pure fun _ => trivial

theorem builds_parameter : Builds F Parameter.outline parameter := by
  intro m
  apply RuleLays.here
  apply RuleLays.step (Lays.accepted (F.passes rfl))
  intro byReference k₁ hk₁ _
  apply RuleLays.bind (lays_declaredName _)
  rintro ⟨name, id⟩ k₂ hk₂ hname
  apply RuleLays.expect (F.passes rfl)
  intro _ _
  apply RuleLays.step (Lays.accepted (F.passes rfl))
  intro temporary k₃ hk₃ _
  apply RuleLays.bind (builds_dataType k₃)
  intro type k₄ hk₄ htype
  apply RuleLays.bind lays_parameterModifiers
  intro _ k₅ hk₅ _
  apply RuleLays.spanFrom
  intro hsize span hspan
  refine RuleLays.pure fun hc => ?_
  apply Solid.node (by omega) hsize (hspan hc)
  have hrow := (htype hc).row.mono (show m ≤ k₃ by omega) hk₅
  simp [hrow]

theorem lays_parameterRound {k : Nat} {found : Array Parameter} (hk : m ≤ k)
    (hfound : F.InOrder → Row F.toCursor m k (found.toList.map Parameter.outline)) :
    RuleLays F k (parameterRound found) fun r j =>
      Row F.toCursor m j ((payload r).toList.map Parameter.outline) := by
  apply RuleLays.look
  intro stop
  split
  · exact RuleLays.pure hfound
  · apply RuleLays.bind (builds_parameter k)
    intro p j hj hp
    have hpush : F.InOrder → ∀ i, j ≤ i → Row F.toCursor m i ((found.push p).toList.map Parameter.outline) := by
      intro hc i hi
      rw [Array.toList_push, List.map_append]
      exact (hfound hc).append ((hp hc).row.mono (Nat.le_refl k) hi) hk (by omega)
    apply RuleLays.accept (F.passes rfl)
    · exact fun _ _ => RuleLays.pure fun hc => hpush hc _ (Nat.le_succ j)
    · apply RuleLays.accept (F.passes rfl)
      · exact fun _ _ => RuleLays.pure fun hc => hpush hc _ (Nat.le_succ j)
      · exact RuleLays.pure fun hc => hpush hc _ (Nat.le_refl j)

theorem builds_parameterList : BuildsRow F Parameter.outline parameterList := by
  intro m
  apply RuleLays.expect (F.passes rfl)
  intro _ _
  apply RuleLays.bind (R := fun found k => Row F.toCursor (m + 1) k (found.toList.map Parameter.outline))
  · exact RuleLays.tryLoop (fun _ => .nil) fun found k hk hfound => lays_parameterRound hk hfound
  · intro found k _ hfound
    apply RuleLays.expect (F.passes rfl)
    intro _ _
    exact RuleLays.pure fun hc => (hfound hc).mono (Nat.le_succ m) (Nat.le_succ k)

theorem builds_optionalParameters : BuildsRow F Parameter.outline optionalParameters := by
  intro m
  apply RuleLays.check
  intro found
  split
  · exact builds_parameterList m
  · exact RuleLays.pure fun _ => .nil

/-- A modifier of the successor language leads on to the keyword behind it. -/
theorem leadsOn_of_modifierFollows {s : Parser} (hs : Within F s) (h : modifierFollows s = true) :
    (F.tokenAt s.position).kind = .identifier ∧ leadsOn (F.tokenAt s.position) = true := by
  rw [modifierFollows, Bool.and_eq_true, Bool.and_eq_true, beq_iff_eq, hs.peek] at h
  refine ⟨h.1.1, ?_⟩
  rw [leadsOn, h.1.1]
  exact h.1.2

/-- In front of a procedure a modifier may be passed, and nothing else. -/
theorem lays_skipModifier {β : Type} {f : Unit → Rule β} {Q : β → Nat → Prop} (hno : RuleLays F m (f ()) Q)
    (hyes : leadsOn (F.tokenAt m) = true → RuleLays F (m + 1) (f ()) Q) :
    RuleLays F m (liftM skipModifier >>= f) Q := by
  show Lays F m (skipModifier >>= fun u => attempt (f u)) (Outcome F Q)
  rw [skipModifier, bind_assoc]
  apply Lays.look_of (p := fun follows => follows = true →
    (F.tokenAt m).kind = .identifier ∧ leadsOn (F.tokenAt m) = true)
  · rintro s hs rfl
    exact leadsOn_of_modifierFollows hs
  · intro follows hmodifier
    split
    · obtain ⟨hkind, hlead⟩ := hmodifier ‹_›
      rw [bind_assoc]
      apply Lays.advance (F.lets_of_kind (by rw [hkind]; rfl))
      intro _
      split
      · exact Lays.report (fun _ => .token F.toCursor m) (hyes hlead)
      · exact hyes hlead
    · exact hno

theorem lays_optionalBody :
    RuleLays F m optionalBody fun found k => Row F.toCursor m k (found.map Statement.outline) := by
  apply RuleLays.check
  intro found
  split
  · exact lays_body.mono fun _ _ _ _ h => h.2
  · exact RuleLays.pure fun _ => .nil

theorem lays_returnName : RuleLays F m returnName fun _ _ => True := by
  apply RuleLays.look
  intro follows
  split
  · exact (lays_declaredName _).bind fun _ _ _ _ => RuleLays.pure fun _ => trivial
  · exact RuleLays.pure fun _ => trivial

theorem lays_returnType :
    RuleLays F m returnType fun type k => Row F.toCursor m k (type.toList.map DataType.outline) := by
  apply RuleLays.accept (F.passes rfl)
  · intro _ _
    exact (builds_dataType (m + 1)).map fun type k _ _ h => h.row.mono (Nat.le_succ m) (Nat.le_refl k)
  · exact RuleLays.pure fun _ => .nil

def Fence.LetsKeyword (F : Fence) (m : Nat) : Prop := (F.tokenAt m).kind.keyword? ≠ none → F.Lets m

theorem Fence.letsKeyword_of_open (ho : F.Open) : Fence.LetsKeyword F m := by
  intro hk
  apply F.lets_of_open ho
  intro heof
  rw [heof] at hk
  exact hk rfl

theorem lays_procedureWord (h : Fence.LetsKeyword F m) : RuleLays F m procedureWord fun _ k => m < k := by
  apply RuleLays.accept fun hk => h (by rw [hk]; nofun)
  · exact fun _ _ => RuleLays.pure fun _ => Nat.lt_succ_self m
  · apply RuleLays.expect fun hk => h (by rw [hk]; nofun)
    exact fun _ _ => RuleLays.pure fun _ => Nat.lt_succ_self m

theorem lays_declarationEnd {start : Nat} {make : List Variable → List Statement → Span → α} {outline : α → Outline}
    (lists : List (List Outline)) (hstart : F.InOrder → start < m)
    (hlists : F.InOrder → ∀ list ∈ lists, Row F.toCursor start m list)
    (hnode : ∀ locals body span, outline (make locals body span) =
      .node span (lists ++ [locals.map Variable.outline, body.map Statement.outline])) :
    RuleLays F m (declarationEnd start make) fun a k => Solid F.toCursor start k (outline a) := by
  apply RuleLays.step lays_semicolon
  intro _ k₁ hk₁ _
  apply RuleLays.step lays_optionalVariables
  intro locals k₂ hk₂ hlocals
  apply RuleLays.bind lays_optionalBody
  intro body k₃ hk₃ hbody
  apply RuleLays.step (Lays.accepted (F.passes rfl))
  intro _ k₄ hk₄ _
  apply RuleLays.spanFrom
  intro hsize span hspan
  refine RuleLays.pure fun hc => ?_
  have hlt := hstart hc
  have hlists' : ∀ list ∈ lists, Row F.toCursor start k₄ list :=
    fun list hlist => (hlists hc list hlist).mono (Nat.le_refl start) (by omega)
  have hlocals' := (hlocals hc).mono (show start ≤ k₁ by omega) (show k₂ ≤ k₄ by omega)
  have hbody' := (hbody hc).mono (show start ≤ k₂ by omega) hk₄
  rw [hnode]
  apply Solid.node (by omega) hsize (hspan hc)
  exact List.forall_mem_append.2 ⟨hlists', by simp [hlocals', hbody']⟩

theorem lays_procedureFrom {start : Nat} (isLocal : Bool) (hstart : start ≤ m) (h : Fence.LetsKeyword F m) :
    RuleLays F m (procedureFrom start isLocal) fun p k => Solid F.toCursor start k p.outline := by
  apply RuleLays.bind (lays_procedureWord h)
  intro _ k₁ hk₁ hword
  apply RuleLays.bind (lays_declaredName _)
  rintro ⟨name, id⟩ k₂ hk₂ hname
  apply RuleLays.bind (builds_parameterList k₂)
  intro parameters k₃ hk₃ hparameters
  apply RuleLays.bind lays_returnName
  intro returnName k₄ hk₄ _
  apply RuleLays.bind lays_returnType
  intro returnType k₅ hk₅ htype
  apply lays_declarationEnd [parameters.map Parameter.outline, returnType.toList.map DataType.outline]
  · intro hc
    have hless := hword hc
    omega
  · intro hc
    have hparameters' := (hparameters hc).mono (show start ≤ k₂ by omega) (show k₃ ≤ k₅ by omega)
    have htype' := (htype hc).mono (show start ≤ k₄ by omega) (Nat.le_refl k₅)
    simp [hparameters', htype']
  · exact fun _ _ _ => rfl

theorem lays_procedure (h : Fence.LetsKeyword F m) :
    RuleLays F m procedure fun p k => Solid F.toCursor m k p.outline := by
  -- A modifier and LOCAL each lead on to the keyword behind them.
  have hlocal : ∀ j, m ≤ j → Fence.LetsKeyword F j → RuleLays F j (do
      let isLocal ← accept (.keyword .local_)
      procedureFrom m isLocal) fun p k => Solid F.toCursor m k p.outline := by
    intro j hj hlets
    apply RuleLays.accept fun hk => hlets (by rw [hk]; nofun)
    · intro hk _
      exact lays_procedureFrom true (by omega) (F.lets_of_leadsOn (by rw [leadsOn, hk]))
    · exact lays_procedureFrom false hj hlets
  rw [procedure_eq]
  apply RuleLays.here
  apply lays_skipModifier
  · exact hlocal m (Nat.le_refl m) h
  · exact fun hlead => hlocal (m + 1) (Nat.le_succ m) (F.lets_of_leadsOn hlead)

theorem lays_triggerBody : RuleLays F m triggerBody fun found k => m < k ∧
    Row F.toCursor m k (found.1.map Variable.outline) ∧ Row F.toCursor m k (found.2.map Statement.outline) := by
  apply RuleLays.step lays_optionalVariables
  intro locals k hk hlocals
  apply RuleLays.bind lays_body
  intro body j hj hbody
  refine RuleLays.pure fun hc => ?_
  obtain ⟨hlt, hrow⟩ := hbody hc
  exact ⟨by omega, (hlocals hc).mono (Nat.le_refl m) hj, hrow.mono hk (Nat.le_refl j)⟩

theorem lays_triggerName : RuleLays F m triggerName fun _ _ => True := by
  apply RuleLays.peek
  apply RuleLays.bind (lays_declaredName _)
  rintro ⟨name, id⟩ k _ _
  dsimp only
  split
  · exact RuleLays.pure fun _ => trivial
  · exact RuleLays.report (fun _ => .token F.toCursor m) (RuleLays.pure fun _ => trivial)

theorem lays_emptyParentheses : RuleLays F m emptyParentheses fun _ _ => True := by
  apply RuleLays.accept (F.passes rfl)
  · intro _ _
    apply RuleLays.expect (F.passes rfl)
    exact fun _ _ => RuleLays.pure fun _ => trivial
  · exact RuleLays.pure fun _ => trivial

theorem builds_trigger : Builds F Trigger.outline trigger := by
  intro m
  rw [trigger_eq]
  apply RuleLays.here
  apply RuleLays.expect (F.passes rfl)
  intro _ _
  apply RuleLays.bind lays_triggerName
  intro name k₁ hk₁ _
  apply RuleLays.bind lays_emptyParentheses
  intro _ k₂ hk₂ _
  apply lays_declarationEnd []
  · exact fun _ => by omega
  · exact fun _ => List.forall_mem_nil _
  · exact fun _ _ _ => rfl

theorem lays_numberedName (role : String) : RuleLays F m (numberedName role) fun _ _ => True := by
  apply RuleLays.peek
  split
  · rename_i hname
    apply RuleLays.advance (F.lets_of_test hname (forall_fences rfl rfl rfl rfl rfl))
    intro _
    apply RuleLays.bind lays_autoNumber
    intro number k _ _
    cases number with
    | none => exact RuleLays.pure fun _ => trivial
    | some number => exact RuleLays.pure fun _ => trivial
  · exact RuleLays.expected role

theorem builds_event : Builds F EventHandler.outline event := by
  intro m
  rw [event_eq]
  apply RuleLays.here
  apply RuleLays.expect (F.passes rfl)
  intro _ _
  apply RuleLays.bind (lays_numberedName _)
  intro subscriber k₁ hk₁ _
  apply RuleLays.expect (F.passes rfl)
  intro _ _
  apply RuleLays.bind (lays_numberedName _)
  intro event k₂ hk₂ _
  apply RuleLays.bind (builds_optionalParameters k₂)
  intro parameters k₃ hk₃ hparameters
  apply lays_declarationEnd [parameters.map Parameter.outline]
  · exact fun _ => by omega
  · intro hc
    have hrow := (hparameters hc).mono (show m ≤ k₂ by omega) (Nat.le_refl k₃)
    simp [hrow]
  · exact fun _ _ _ => rfl

structure CodeRows (c : Cursor) (lo hi : Nat) (items : List CodeItem) : Prop where
  globals : Row c lo hi ((items.flatMap CodeItem.globals?).map Variable.outline)
  procedures : Row c lo hi ((items.filterMap CodeItem.procedure?).map Procedure.outline)
  triggers : Row c lo hi ((items.filterMap CodeItem.trigger?).map Trigger.outline)
  events : Row c lo hi ((items.filterMap CodeItem.event?).map EventHandler.outline)

namespace CodeRows

variable {c : Cursor} {lo mid hi lo' hi' : Nat} {items more : List CodeItem}

theorem nil : CodeRows c lo hi [] := ⟨.nil, .nil, .nil, .nil⟩

theorem mono (h : CodeRows c lo hi items) (hlo : lo' ≤ lo) (hhi : hi ≤ hi') : CodeRows c lo' hi' items :=
  ⟨h.globals.mono hlo hhi, h.procedures.mono hlo hhi, h.triggers.mono hlo hhi, h.events.mono hlo hhi⟩

theorem append (h : CodeRows c lo mid items) (h' : CodeRows c mid hi more) (hlo : lo ≤ mid) (hhi : mid ≤ hi) :
    CodeRows c lo hi (items ++ more) where
  globals := by simpa using h.globals.append h'.globals hlo hhi
  procedures := by simpa using h.procedures.append h'.procedures hlo hhi
  triggers := by simpa using h.triggers.append h'.triggers hlo hhi
  events := by simpa using h.events.append h'.events hlo hhi

theorem ofGlobals {declared : List Variable} (h : Row c lo hi (declared.map Variable.outline)) :
    CodeRows c lo hi [.globals declared] := ⟨by simpa [CodeItem.globals?] using h, .nil, .nil, .nil⟩

theorem ofProcedure {p : Procedure} (h : Solid c lo hi p.outline) : CodeRows c lo hi [.procedure p] :=
  ⟨.nil, h.row, .nil, .nil⟩

theorem ofTrigger {t : Trigger} (h : Solid c lo hi t.outline) : CodeRows c lo hi [.trigger t] :=
  ⟨.nil, .nil, h.row, .nil⟩

theorem ofEvent {e : EventHandler} (h : Solid c lo hi e.outline) : CodeRows c lo hi [.event e] :=
  ⟨.nil, .nil, .nil, h.row⟩

end CodeRows

theorem lays_declaration (h : Fence.LetsKeyword F m) :
    RuleLays F m declaration fun item k => CodeRows F.toCursor m k [item] := by
  have hprocedure : RuleLays F m (CodeItem.procedure <$> procedure) fun item k => CodeRows F.toCursor m k [item] :=
    (lays_procedure h).map fun _ _ _ _ hp => .ofProcedure hp
  apply RuleLays.peek
  split
  · exact (builds_trigger m).map fun _ _ _ _ ht => .ofTrigger ht
  · exact (builds_event m).map fun _ _ _ _ he => .ofEvent he
  · split
    · exact hprocedure
    · exact RuleLays.expected _
  · apply RuleLays.look
    intro follows
    split
    · exact hprocedure
    · exact RuleLays.expected _

theorem lays_skipAttributes (ho : F.Open) : Lays F m skipAttributes fun _ _ => True := by
  apply Lays.here
  apply Lays.bind (R := fun _ _ => True)
  · apply Lays.loop (I := fun _ _ => True) fun _ => trivial
    intro depth k _ _
    apply Lays.look
    intro found
    split
    · exact Lays.pure fun _ => trivial
    · apply Lays.bind (Lays.pass ho)
      intro token j _ _
      split <;> exact Lays.pure fun _ => trivial
  · intro _ k _ _
    apply Lays.look
    intro passed
    exact (Lays.noted _).mono fun _ _ _ _ _ => trivial

/-- The search for the next declaration stops at a fence. -/
theorem lays_skipDeclaration {depth : Nat} (hdepth : F.limit < F.tokens.size → F.braceDepth ≤ depth) :
    Lays F m (skipDeclaration depth) fun _ _ => True := by
  apply Lays.here
  apply Lays.bind (R := fun _ k => m ≤ k)
  · apply Lays.skipWhile
    intro s hs hend hgo hle
    apply Nat.lt_of_le_of_ne hle
    intro heq
    have hlt : F.limit < F.tokens.size := by
      rw [← Bool.not_eq_true, Cursor.atEnd_iff, hs.tokens] at hend
      exact Nat.lt_of_le_of_ne F.limit_le (heq ▸ hend)
    have hstop : ∀ κ, fences κ = true → s.peek.kind = κ → κ ≠ .eof → declarationBoundary depth s = true := by
      apply forall_fences
      · exact fun _ h => absurd rfl h
      · intro hκ _
        simp [declarationBoundary, hκ, hs.level hlt, hdepth hlt]
      all_goals
        intro hκ _
        simp [declarationBoundary, hκ, Keyword.isDeclarationStart]
    have hkind : s.peek.kind = (F.tokenAt F.limit).kind := by rw [hs.peek, heq]
    have hboundary := hstop _ F.fenced hkind (Cursor.kind_tokenAt_ne_eof hlt)
    rw [hboundary] at hgo
    cases hgo
  · exact fun _ k _ _ => (Lays.skipped m _).mono fun _ _ _ _ _ => trivial

theorem lays_recoverDeclaration {fault : Fault} {start depth : Nat} (hfault : F.InOrder → Bounded F.toCursor fault.span)
    (hstart : F.Open ∨ start < F.limit) (hdepth : F.limit < F.tokens.size → F.braceDepth ≤ depth) :
    Lays F m (recoverDeclaration fault start depth) fun _ _ => True := by
  apply Lays.report hfault
  apply Lays.bind (lays_forceProgress hstart)
  intro _ k _ _
  apply Lays.bind (lays_skipDeclaration hdepth)
  intro _ j _ _
  apply Lays.look
  intro count
  split
  · exact (Lays.noted _).mono fun _ _ _ _ _ => trivial
  · exact Lays.pure fun _ => trivial

/-- `BEGIN END.` has no token that a fence may stand at. -/
theorem lays_documentation (h : F.Lets m ∧ F.Lets (m + 1) ∧ F.Lets (m + 2)) :
    Lays F m (advanceBy 3) fun _ _ => True := by
  apply Lays.advance h.1
  intro _
  apply Lays.bind (R := fun _ _ => True)
  · apply Lays.advance h.2.1
    intro _
    apply Lays.bind (R := fun _ _ => True)
    · apply Lays.advance h.2.2
      exact fun _ => (Lays.pure (R := fun _ _ => True) fun _ => trivial).bind fun _ _ _ _ => Lays.pure fun _ => trivial
    · exact fun _ _ _ _ => Lays.pure fun _ => trivial
  · exact fun _ _ _ _ => Lays.pure fun _ => trivial

theorem lets_of_documentationStarts {s : Parser} (hs : Within F s) (h : documentationStarts s = true) :
    F.Lets s.position ∧ F.Lets (s.position + 1) ∧ F.Lets (s.position + 2) := by
  rw [documentationStarts, Bool.and_eq_true, Bool.and_eq_true, beq_iff_eq, beq_iff_eq, beq_iff_eq, Cursor.peek,
    Cursor.peekAhead, Cursor.peekAhead, hs.tokenAt, hs.tokenAt, hs.tokenAt] at h
  exact ⟨F.passes rfl h.1.1, F.passes rfl h.1.2, F.passes rfl h.2⟩

/-- What is needed of a fence for a round of a CODE section to stay in front of it. -/
structure Fence.Holds (F : Fence) (depth m : Nat) : Prop where
  lets : F.Open ∨ m < F.limit
  attributes : (F.tokenAt m).kind = .leftBracket → Lays F m skipAttributes fun _ _ => True
  level : F.limit < F.tokens.size → F.braceDepth ≤ depth

theorem Fence.holds_of_open (ho : F.Open) (depth m : Nat) : Fence.Holds F depth m :=
  ⟨.inl ho, fun _ => lays_skipAttributes ho, fun h => absurd (ho ▸ h) (Nat.lt_irrefl _)⟩

theorem lays_codeRound {depth k : Nat} {items : Array CodeItem} (hk : m ≤ k) (h : Fence.Holds F depth k)
    (hitems : F.InOrder → CodeRows F.toCursor m k items.toList) :
    Lays F k (codeRound depth items) fun r j => CodeRows F.toCursor m j (payload r).toList := by
  have hsame : ∀ j, k ≤ j → F.InOrder → CodeRows F.toCursor m j items.toList :=
    fun j hj hc => (hitems hc).mono (Nat.le_refl m) hj
  have hpush : ∀ item j, k ≤ j → F.InOrder → CodeRows F.toCursor k j [item] →
      CodeRows F.toCursor m j (items.push item).toList := by
    intro item j hj hc hitem
    rw [Array.toList_push]
    exact (hitems hc).append hitem hk hj
  apply Lays.look_of (p := fun head =>
    (head = .globals → fences (F.tokenAt k).kind = false) ∧ (head = .attributes → (F.tokenAt k).kind = .leftBracket) ∧
      (head = .documentation → F.Lets k ∧ F.Lets (k + 1) ∧ F.Lets (k + 2)))
  · rintro s hs rfl
    rw [codeHead, hs.peek]
    split
    · simp
    · simp
    · rename_i hkind
      simp [hkind, fences]
    · rename_i hkind
      simp [hkind]
    · split
      · rename_i hdoc
        simpa using lets_of_documentationStarts hs hdoc
      · simp
  · rintro head ⟨hglobals, hattributes, hdocumentation⟩
    cases head with
    | stop => exact Lays.pure hitems
    | globals =>
        apply Lays.advance (F.lets_of_kind (hglobals rfl))
        intro _
        apply Lays.bind lays_variableBlock
        intro declared j hj hdeclared
        exact Lays.pure fun hc => hpush _ j (by omega) hc
          (.ofGlobals ((hdeclared hc).mono (Nat.le_succ k) (Nat.le_refl j)))
    | attributes =>
        apply Lays.bind (h.attributes (hattributes rfl))
        exact fun _ j hj _ => Lays.pure (hsame j hj)
    | documentation =>
        apply Lays.bind (lays_documentation (hdocumentation rfl))
        exact fun _ j hj _ => Lays.pure (hsame j hj)
    | declaration =>
        apply Lays.here
        apply Lays.attempt (lays_declaration ?_)
        · exact fun item j hj hitem => Lays.pure fun hc => hpush item j hj hc (hitem hc)
        · intro fault j hj hfault
          apply Lays.bind (lays_recoverDeclaration hfault h.lets h.level)
          exact fun _ i hi _ => Lays.pure (hsame i (by omega))
        · rcases h.lets with ho | hlt
          · exact Fence.letsKeyword_of_open ho
          · exact fun _ => F.lets_of_lt hlt

theorem lays_codeItems (ho : F.Open) (depth : Nat) :
    Lays F m (codeItems depth) fun items k => CodeRows F.toCursor m k items := by
  apply Lays.bind (R := fun items k => CodeRows F.toCursor m k items.toList)
  · exact Lays.loop (fun _ => .nil) fun items k hk hitems =>
      lays_codeRound hk (Fence.holds_of_open ho depth k) hitems
  · exact fun items k _ hitems => Lays.pure hitems

theorem builds_codeSection (ho : F.Open) : Builds F (CodeSection.outline 0) codeSection := by
  intro m
  apply RuleLays.here
  apply RuleLays.expect (F.passes rfl)
  intro _ _
  apply RuleLays.expect (F.passes rfl)
  intro _ _
  apply RuleLays.look
  intro depth
  apply RuleLays.step (lays_codeItems ho depth)
  intro items k hk hitems
  apply RuleLays.expect (F.passes_brace ho)
  intro _ _
  apply RuleLays.spanFrom
  intro hsize span hspan
  refine RuleLays.pure fun hc => ?_
  apply Solid.node (by omega) hsize (hspan hc)
  obtain ⟨hglobals, hprocedures, htriggers, hevents⟩ :=
    (hitems hc).mono (show m ≤ m + 1 + 1 by omega) (Nat.le_succ k)
  simp [CodeSection.outlineLists, CodeSection.ofItems, hglobals, hprocedures, htriggers, hevents]

end CalExport.Rule
