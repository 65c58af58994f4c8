import CalExport.Proofs.Layout.Document
import CalExport.Proofs.Rounds
import CalExport.Proofs.Window.Rest
import CalExport.Proofs.Window.Section

namespace CalExport.Rule

variable {β : Type} {W : Window} {s s' t c : Parser} {head : SectionHead}

structure EndsHere (head : SectionHead) (c : Parser) : Prop where
  fresh : goesOn c.peek.kind = false
  globals : head = .globals → variableHead c = .stop
  passes : head = .passed ∨ head = .objectProperties → (c.check .rightBrace || sectionStarts c) = true

theorem endsHere_of_rightBrace (h : c.peek.kind = .rightBrace) : EndsHere head c where
  fresh := by rw [h]; rfl
  globals _ := by rw [variableHead, variablesEnd, h]; rfl
  passes _ := by rw [Cursor.check_iff.2 h]; rfl

theorem kind_of_sectionStarts (h : sectionStarts c = true) : ∃ k, c.peek.kind = .keyword k ∧ k.isSection = true := by
  unfold sectionStarts at h
  split at h
  · rename_i hkind
    exact ⟨.code, hkind, rfl⟩
  · rename_i k _ hkind
    exact ⟨k, hkind, h⟩
  · cases h

theorem goesOn_of_sectionStarts (h : sectionStarts c = true) : goesOn c.peek.kind = false := by
  obtain ⟨k, hkind, hsection⟩ := kind_of_sectionStarts h
  rw [hkind]
  cases k <;> first | rfl | cases hsection

theorem endsHere_of_sectionStarts (h : sectionStarts c = true) : EndsHere head c := by
  obtain ⟨k, hkind, hsection⟩ := kind_of_sectionStarts h
  refine ⟨goesOn_of_sectionStarts h, fun _ => ?_, fun _ => by rw [h, Bool.or_true]⟩
  · have hends : variablesEnd c = true := by simp [variablesEnd, hkind, h]
    rw [variableHead, if_pos hends]

theorem sectionStarts_congr {b : Parser} (hpeek : b.peek = c.peek) (hnext : b.peekAhead 1 = c.peekAhead 1) :
    sectionStarts b = sectionStarts c := by
  unfold sectionStarts Cursor.checkNext
  rw [hpeek, hnext]

theorem variableHead_congr {b : Parser} (hpeek : b.peek = c.peek) (hnext : b.peekAhead 1 = c.peekAhead 1) :
    variableHead b = variableHead c := by
  unfold variableHead variablesEnd declarationFollows
  rw [hpeek, hnext, sectionStarts_congr hpeek hnext]

theorem sectionRound_of_ok {depth : Nat} {sec : ObjectSection} (hhead : sectionHead? s = some head)
    (hrun : sectionRule depth head s = (.ok sec, t)) (found : Array ObjectSection) :
    sectionRound depth found s = (.yield (found.push sec), t) := by
  have hattempt : attempt (sectionRule depth head) s = (.ok sec, t) := hrun
  rw [sectionRound, look_bind_apply, hhead]
  dsimp only
  rw [here, look_bind_apply, bind_apply, hattempt]
  rfl

/-- A round that goes on without a diagnostic has read a section. -/
theorem exists_of_sectionRound {depth : Nat} {found found' : Array ObjectSection}
    (h : sectionRound depth found s = (.yield found', t)) (hclean : t.diagnostics = #[]) :
    ∃ head sec, sectionHead? s = some head ∧ sectionRule depth head s = (.ok sec, t) ∧ found' = found.push sec := by
  rw [sectionRound, look_bind_apply] at h
  cases hhead : sectionHead? s with
  | none =>
      rw [hhead] at h
      cases h
  | some head =>
      rw [hhead] at h
      dsimp only at h
      rw [here, look_bind_apply, bind_apply] at h
      rcases hrun : attempt (sectionRule depth head) s with ⟨fault | sec, u⟩
      · rw [hrun] at h
        dsimp only at h
        rw [bind_apply, bind_apply, passedSince, look_bind_apply] at h
        split at h
        · cases h
        · cases h
          exact absurd hclean (ne_empty_of_forward (steady_skipToSection depth _ _) (diagnostics_record_ne _ u))
      · rw [hrun] at h
        cases h
        exact ⟨head, sec, rfl, hrun, rfl⟩

theorem appends_sectionRound (depth : Nat) : Appends (sectionRound depth) := by
  intro found s
  simp only [sectionRound, look_bind_apply]
  cases sectionHead? s with
  | none => simp [pure_apply]
  | some head =>
      dsimp only
      rw [here, look_bind_apply, look_bind_apply, bind_apply, bind_apply]
      cases (attempt (sectionRule depth head) s).1 with
      | ok sec => rfl
      | error fault =>
          dsimp only
          simp only [bind_apply, passedSince, look_apply]
          generalize (skipToSection depth "section recovery" _).2 = v
          by_cases hstuck : v.position - s.position = 0
          · simp [hstuck, pure_apply]
          · simp [hstuck, pure_apply]

theorem steady_sectionRound (depth : Nat) (found : Array ObjectSection) : Steady (sectionRound depth found) :=
  (agree_sectionRound (R := .same) (k := 0) trivial depth found).steady

/-- Sections one after the other, in front of the same end in both places. -/
theorem visits_in_window {depth : Nat} (hborders : ∀ head, W.Borders depth head) {found found' : Array ObjectSection}
    (hvisits : Visits (sectionRound depth) found s found' t) (hmeets : Meets W s s') (hlands : Lands W t) :
    ∃ t', Visits (sectionRound (depth + W.deep)) found s' found' t' ∧ Meets W t t' := by
  induction hvisits generalizing s' with
  | refl found s => exact ⟨s', .refl found s', hmeets⟩
  | next hround hrest ih =>
      have hlands' := hlands.of_forward (hrest.forward (steady_sectionRound depth))
      obtain ⟨head, sec, hhead, hrun, rfl⟩ := exists_of_sectionRound hround hlands'.clean
      obtain ⟨hhead', u', hrun', hmeets'⟩ := sectionRule_in_window (hborders head) hmeets hhead hrun hlands'
      obtain ⟨t', hvisits', hmeets''⟩ := ih hmeets' hlands
      exact ⟨t', .next (sectionRound_of_ok hhead' hrun' _) hvisits', hmeets''⟩

/-- In front of the same tokens the sections that follow are the same. -/
theorem sameRest_sections (depth : Nat) (h : SameRest s s') :
    (loop #[] (sectionRound depth) s').1 = (loop #[] (sectionRound depth) s).1 ∧
      SameRest (loop #[] (sectionRound depth) s).2 (loop #[] (sectionRound depth) s').2 ∧
      ∃ regions, (loop #[] (sectionRound depth) s).2.skipped = s.skipped ++ regions ∧
        (loop #[] (sectionRound depth) s').2.skipped = s'.skipped ++ regions := by
  apply h.step
  intro R k hR hdeep
  have hloop := Agree.loop (k := k) (agree_sectionRound hR depth) #[]
  rwa [hdeep] at hloop

theorem objectNameRound_apply (found : Array Token) (s : Parser) :
    objectNameRound found s = if (s.atEnd || s.check .leftBrace) = true then (.done found, s)
      else (.yield (found.push s.peek), (advance s).2) := by
  rw [objectNameRound, test, look_bind_apply]
  split <;> rfl

/-- A name whose last token both runs see, in front of a token that they see, too. -/
theorem nameTokens_in_window (hsound : W.Sound) (hmeets : Meets W s s') (found : Array Token)
    (hsees : W.sees (loop found objectNameRound s).2.position) :
    (loop found objectNameRound s').1 = (loop found objectNameRound s).1 ∧
      Meets W (loop found objectNameRound s).2 (loop found objectNameRound s').2 := by
  have hprogress := grammarLoop_progresses .objectName
  have hsteady : ∀ found, Steady (objectNameRound found) := fun found =>
    (agree_objectNameRound (R := .same) (k := 0) trivial found).steady
  -- The rounds go on with fewer tokens left each time.
  induction hleft : s.left using Nat.strongRecOn generalizing found s s' with
  | ind n ih =>
      have hs : W.sees s.position := W.sees_of_le (steady_rounds hsteady _ found s).position hsees
      have hstops : (s'.atEnd || s'.check .leftBrace) = (s.atEnd || s.check .leftBrace) := by
        rw [hmeets.atEnd_eq hs, Cursor.check, hmeets.peek_eq hs, ← Cursor.check]
      rw [hprogress.unrolls found s] at hsees ⊢
      rw [hprogress.unrolls found s', objectNameRound_apply, hstops, hmeets.peek_eq hs]
      by_cases hstop : (s.atEnd || s.check .leftBrace) = true
      · rw [objectNameRound_apply, if_pos hstop, if_pos hstop]
        exact ⟨rfl, hmeets⟩
      · have hround : objectNameRound found s = _ := (objectNameRound_apply found s).trans (if_neg hstop)
        have hless := left_lt_of_position (hprogress _ _ _ _ hround)
        rw [hround] at hsees ⊢
        rw [if_neg hstop]
        exact ih _ (hleft ▸ hless) (hmeets.advance hs fun _ => hsound) _ hsees rfl

theorem steady_objectName : Steady objectName := (agree_objectName (R := .same) (k := 0) trivial).steady

/-- A quoted name is told by the brace behind it, which is the last token of the heading. -/
theorem objectName_in_window (hsound : W.Sound) (hmeets : Meets W s s')
    (hbrace : (objectName s).2.peek.kind = .leftBrace) (hsees : W.sees (objectName s).2.position) :
    (objectName s').1 = (objectName s).1 ∧ Meets W (objectName s).2 (objectName s').2 := by
  have hforward := steady_objectName s
  have hs : W.sees s.position := W.sees_of_le hforward.position hsees
  have hquoted : quotedBefore .leftBrace s' = quotedBefore .leftBrace s := by
    rw [quotedBefore, quotedBefore, Cursor.check, Cursor.check, hmeets.peek_eq hs]
    by_cases hkind : s.peek.kind = .quotedIdentifier
    · have hpass : s.position < (objectName s).2.position := by
        apply Nat.lt_of_le_of_ne hforward.position
        intro hsame
        rw [hforward.peek_eq hsame.symm, hkind] at hbrace
        cases hbrace
      rw [Cursor.checkNext, Cursor.checkNext, hmeets.peekAhead_eq (W.sees_of_le hpass hsees)]
    · rw [beq_eq_false_iff_ne.2 hkind, Bool.false_and, Bool.false_and]
  rw [objectName, test, look_bind_apply] at hsees ⊢
  rw [look_bind_apply, hquoted]
  by_cases hkind : quotedBefore .leftBrace s = true
  · rw [if_pos hkind] at hsees ⊢
    exact ⟨congrArg Token.value (hmeets.peek_eq hs), hmeets.advance hs fun _ => hsound⟩
  · rw [if_neg hkind] at hsees ⊢
    obtain ⟨htokens, hmeets'⟩ := nameTokens_in_window hsound hmeets #[] hsees
    rw [bind_apply, bind_apply, htokens]
    exact ⟨rfl, hmeets'⟩

theorem reportedName_apply (s : Parser) :
    reportedName s = ((objectName s).1, if (objectName s).1.isEmpty = true then
      (report (.missingName "object" (objectName s).2.peek.span) (objectName s).2).2 else (objectName s).2) := by
  rw [reportedName, bind_apply]
  split <;> rfl

theorem toCursor_reportedName (s : Parser) : (reportedName s).2.toCursor = (objectName s).2.toCursor := by
  rw [reportedName_apply]
  dsimp only
  split
  · exact toCursor_record _ _
  · rfl

theorem reportedName_in_window (hsound : W.Sound) (hmeets : Meets W s s')
    (hbrace : (reportedName s).2.peek.kind = .leftBrace) (hsees : W.sees (reportedName s).2.position) :
    (reportedName s').1 = (reportedName s).1 ∧ Meets W (reportedName s).2 (reportedName s').2 := by
  rw [toCursor_reportedName] at hbrace hsees
  obtain ⟨hname, hmeets'⟩ := objectName_in_window hsound hmeets hbrace hsees
  rw [reportedName_apply, reportedName_apply, hname, hmeets'.peek_eq hsees]
  refine ⟨rfl, ?_⟩
  dsimp only
  split
  · exact hmeets'.record _
  · exact hmeets'

theorem steady_reportedName : Steady reportedName := (agree_reportedName (R := .same) (k := 0) trivial).steady

/-- The name of an object, up to the brace behind it. -/
theorem RuleLocal.reportedName {f g : String → Token → Rule β} (hsound : W.Sound)
    (hf : ∀ name t, RuleLocal W (f name t) (g name t)) :
    RuleLocal W (liftM Rule.reportedName >>= fun name => Rule.expect .leftBrace >>= f name)
      (liftM Rule.reportedName >>= fun name => Rule.expect .leftBrace >>= g name) := by
  have hbrace : ∀ name, RuleLocal W (Rule.expect .leftBrace >>= f name) (Rule.expect .leftBrace >>= g name) :=
    fun name => RuleLocal.expect_then nofun nofun (hf name)
  refine ⟨steady_bind steady_reportedName fun name => (hbrace name).steady, ?_⟩
  intro s s' b t hmeets hrun hlands
  obtain ⟨name, u, hname, hrest⟩ := exists_of_bind hrun
  have hpass := advances_expect_bind (by nofun) (fun t => (hf name t).steady) hrest hlands.clean
  cases hname
  obtain ⟨_, _, hexpect, -⟩ := exists_of_bind hrest
  obtain ⟨hkind, -⟩ := exists_of_expect hexpect
  obtain ⟨hsame, hmeets'⟩ := reportedName_in_window hsound hmeets hkind (hlands.inside _ hpass)
  have hname' : (liftM Rule.reportedName : Rule String) s' = (.ok (Rule.reportedName s').1, (Rule.reportedName s').2) :=
    rfl
  rw [bind_of_ok hname', hsame]
  exact (hbrace _).same hmeets' hrest hlands

theorem consumes_heading : Consumes heading := consumes_of_agree fun _ => agree_heading trivial

theorem local_heading (hsound : W.Sound) : RuleLocal W heading heading := by
  have hpass : ∀ (kind : ObjectKind) (id : Int), Advances (liftM reportedName >>= fun name =>
      expect .leftBrace >>= fun _ => pure (kind, id, name)) := by
    intro kind id
    apply advances_bind (x := liftM reportedName) steady_reportedName
    intro name
    apply advances_expect_bind (by nofun)
    exact fun _ s => Forward.refl s
  refine RuleLocal.expect_then nofun nofun fun _ => ?_
  apply RuleLocal.agree_bind fun k => agree_objectKind.never
  · exact fun kind => advances_bind (agree_integer (R := .same) (k := 0)).steady (hpass kind)
  · intro kind
    apply RuleLocal.agree_bind (fun k => agree_integer.never) (hpass kind)
    intro id
    exact RuleLocal.reportedName hsound fun name _ => RuleLocal.pure (kind, id, name)

/-- The last token of a heading is a brace. -/
theorem braceDepth_of_heading {a : ObjectKind × Int × String} (h : heading s = (.ok a, t)) : t.braceDepth ≠ 0 := by
  obtain ⟨_, u₁, _, h⟩ := exists_of_bind h
  obtain ⟨_, u₂, _, h⟩ := exists_of_bind h
  obtain ⟨_, u₃, _, h⟩ := exists_of_bind h
  obtain ⟨_, u₄, _, h⟩ := exists_of_bind h
  obtain ⟨_, u₅, hopening, h⟩ := exists_of_bind h
  obtain ⟨hkind, rfl⟩ := exists_of_expect hopening
  cases h
  have hdepth : (advance u₄).2.braceDepth = _ := Cursor.braceDepth_next (atEnd_of_kind (by rw [hkind]; nofun))
  rw [hdepth, hkind]
  exact Nat.succ_ne_zero _

/-- What stands in an object behind some of its sections. -/
theorem objectBody_of_visits {kind : ObjectKind} {id : Int} {name : String} {u : Parser} {found : Array ObjectSection}
    (hheading : heading s = (.ok (kind, id, name), t)) (hvisits : Visits (sectionRound t.braceDepth) #[] t found u) :
    objectBody s = (.ok (.ofSections kind id name (found ++ (loop #[] (sectionRound t.braceDepth) u).1).toList),
      (loop #[] (sectionRound t.braceDepth) u).2) := by
  have hprogress := grammarLoop_progresses (.sections t.braceDepth)
  have hsections : sections t.braceDepth t = ((loop found (sectionRound t.braceDepth) u).1.toList,
      (loop found (sectionRound t.braceDepth) u).2) := by
    rw [sections, bind_apply, hvisits.loop_eq hprogress.unrolls]
    rfl
  rw [(appends_sectionRound t.braceDepth).loop_eq hprogress] at hsections
  have hbody := objectBody_of_ok hheading
  rw [sectionsOf, hheading] at hbody
  dsimp only at hbody
  rw [hbody, hsections]

theorem sectionsLoop_of_rightBrace {depth : Nat} (h : s.peek.kind = .rightBrace) :
    loop #[] (sectionRound depth) s = (#[], s) := by
  have hdone : sectionRound depth #[] s = (.done #[], s) := by
    rw [sectionRound, look_bind_apply, sectionHead?, h]
    rfl
  rw [(grammarLoop_progresses (.sections depth)).unrolls, hdone]

/-- An object whose sections end in front of its closing brace. -/
theorem object_of_visits {kind : ObjectKind} {id : Int} {name : String} {u : Parser} {found : Array ObjectSection}
    (hheading : heading s = (.ok (kind, id, name), t)) (hvisits : Visits (sectionRound t.braceDepth) #[] t found u)
    (hclosing : u.peek.kind = .rightBrace) :
    object s = (.ok (.ofSections kind id name found.toList ((advance u).2.spanFrom s.position)), (advance u).2) := by
  have hbody := objectBody_of_visits hheading hvisits
  rw [sectionsLoop_of_rightBrace hclosing, Array.append_empty] at hbody
  rw [object_of_ok hbody, closingBrace_apply, if_pos hclosing]

end CalExport.Rule
