import CalExport.Proofs.Upkeep.Basic

namespace CalExport.Rule

variable {α : Type} {U : Upkeep} {n : Nat} {Q : α → Prop}

theorem serves_semicolon : Serves U n semicolon Always := by
  apply Serves.bind (Serves.accept _)
  intro found _
  split
  · apply Serves.look
    intro t
    exact Serves.report _
  · exact Serves.pure trivial

theorem serves_boundedValue (largest : Nat) (t : Token) : Serves U n (boundedValue largest t) Always := by
  unfold boundedValue
  dsimp only
  split
  · exact Serves.pure trivial
  · exact (Serves.report _).bind fun _ _ => Serves.pure trivial

theorem serves_integerValue (t : Token) : Serves U n (integerValue t) Always :=
  (serves_boundedValue _ t).bind fun _ _ => Serves.pure trivial

theorem serves_integer : RuleServes U n integer Always := by
  apply RuleServes.accept
  intro negative
  apply RuleServes.expect
  intro t
  apply RuleServes.step (serves_integerValue t)
  intro value _
  exact RuleServes.pure trivial

theorem serves_size : RuleServes U n size Always := by
  apply RuleServes.expect
  intro t
  exact RuleServes.lift (serves_boundedValue _ t)

theorem serves_autoNumber : RuleServes U n autoNumber Always := by
  apply RuleServes.accept_ite
  · exact serves_integer.bind fun _ _ => RuleServes.pure trivial
  · exact RuleServes.pure trivial

theorem serves_declaredName (role : String) : RuleServes U n (declaredName role) Always := by
  apply RuleServes.look
  intro t
  split
  · apply RuleServes.advance
    intro _
    exact serves_autoNumber.bind fun _ _ => RuleServes.pure trivial
  · split
    · exact RuleServes.throw _
    · exact RuleServes.throw _

theorem moves_raw (stops : Kind → Bool) : Moves (raw stops) := by
  refine Moves.bind (Moves.loop ?_ _) fun taken => Moves.pure _
  rintro ⟨taken, depth⟩
  apply Moves.look
  intro κ
  split
  · exact Moves.pure _
  · exact Moves.advance.bind fun _ => Moves.pure _

theorem moves_skipItem (base : Nat) (recovery : List Kind) : Moves (skipItem base recovery) := by
  apply Moves.loop
  intro _
  apply Moves.look
  intro κ
  apply Moves.look
  intro opened
  split
  · exact Moves.pure _
  · split
    · split
      · exact Moves.pure _
      · apply Moves.advance.bind
        intro _
        exact Moves.pure _
    · split
      · exact Moves.pure _
      · exact Moves.advance.bind fun _ => Moves.pure _

theorem moves_forceProgress (start : Nat) : Moves (forceProgress start) := by
  intro s
  rw [forceProgress_apply]
  split
  · exact Moves.advance s
  · exact .refl

theorem serves_recoverItem (base start : Nat) (recovery : List Kind) :
    Serves U.reported n (recoverItem base start recovery) Always := by
  apply Serves.skip "error recovery"
  intro s
  have hskip := moves_skipItem base recovery s
  have haccept := hskip.trans (Moves.accept .semicolon _)
  exact ⟨_, haccept.trans (moves_forceProgress start _), .inr (by rw [recoverItem_apply])⟩

theorem serves_withRecovery (recovery : List Kind) {rule : Rule α} (h : RuleServes U n rule Q) :
    Serves U n (withRecovery recovery rule) fun a? => ∀ a, a? = some a → Q a := by
  apply Serves.look
  intro base
  apply Serves.look
  intro start
  apply Serves.attempt h
  · rintro a ha
    apply Serves.pure
    rintro _ ⟨⟩
    exact ha
  · intro fault
    apply Serves.report_then
    apply (serves_recoverItem base start recovery).bind
    intro _ _
    apply Serves.pure
    rintro _ ⟨⟩

theorem skipStatement_apply (s : Parser) : skipStatement s =
    recordSkipped s.position "statement recovery" (loop () skipStatementRound s).2 := by
  simp only [skipStatement, here, look_apply, bind_apply]

theorem serves_skipStatement : Serves U.reported n skipStatement Always := by
  apply Serves.skip "statement recovery"
  intro s
  refine ⟨_, ?_, .inr (by rw [skipStatement_apply])⟩
  apply Moves.loop
  intro _
  apply Moves.look
  intro κ
  split
  · exact Moves.pure _
  · apply Moves.advance.bind
    intro _
    exact Moves.pure _

theorem skipped_skipToSection (depth : Nat) (reason : String) (s : Parser) :
    Skipped reason s (skipToSection depth reason s).2 := by
  have hskip := Moves.skipWhile (fun s => !(s.braceDepth ≤ depth && (s.check .rightBrace || sectionStarts s))) s
  show Skipped reason s ((ite (0 < (skipWhile _ s).2.position - s.position) _ _ : Parse Unit) (skipWhile _ s).2).2
  split
  · exact ⟨_, .note _ hskip, .inr rfl⟩
  · exact ⟨_, hskip, .inl rfl⟩

theorem serves_skipToSection (depth : Nat) (reason : String) :
    Serves U.reported n (skipToSection depth reason) Always :=
  Serves.skip reason (skipped_skipToSection depth reason)

/-- A section without a place in the tree is passed without a report. -/
theorem serves_passToSection (depth : Nat) : Serves U n (skipToSection depth "unsupported section") Always := by
  intro s hs _
  obtain ⟨hholds, hnesting⟩ := U.skipped (skipped_skipToSection depth _ s) hs (.inl rfl)
  exact ⟨hholds, hnesting, trivial⟩

theorem serves_skipDeclaration (depth : Nat) : Serves U.reported n (skipDeclaration depth) Always := by
  apply Serves.skip "declaration recovery"
  intro s
  refine ⟨_, Moves.skipWhile (fun s => !declarationBoundary depth s) s, .inr ?_⟩
  simp only [skipDeclaration, here, look_apply, bind_apply]

end CalExport.Rule
