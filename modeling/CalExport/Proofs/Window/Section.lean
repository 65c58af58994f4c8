import CalExport.Proofs.Ahead
import CalExport.Proofs.Window.Declaration

namespace CalExport.Rule

variable {α : Type} {W : Window} {s s' t : Parser}

def Window.upTo (W : Window) (n : Nat) : Window :=
  { W with
    sees := fun i => W.sees i ∧ i < n
    sees_of_le := fun hle h => ⟨W.sees_of_le hle h.1, Nat.lt_of_le_of_lt hle h.2⟩
    second_eq := fun h => W.second_eq h.1 }

theorem Meets.upTo (h : Meets W s s') {n : Nat} (hn : s.position ≤ n) : Meets (W.upTo n) s s' :=
  { h with passed := fun i hi => ⟨h.passed i hi, Nat.lt_of_lt_of_le hi hn⟩ }

theorem Meets.of_upTo {n : Nat} (h : Meets (W.upTo n) s s') : Meets W s s' :=
  { h with passed := fun i hi => (h.passed i hi).1 }

/-- No look ahead goes beyond the last token of a front, when that is a closing brace. -/
theorem Window.closes_upTo {n : Nat} (hsound : W.Sound) (hinside : W.sees n) (hlast : (W.first n).kind = .rightBrace) :
    (W.upTo (n + 1)).simulation.closes := by
  refine ⟨?_, hsound.imp_right fun h i hi => h i hi.1⟩
  intro i j hi hij hbraces
  have hlt : j < n + 1 := by
    apply Nat.lt_of_not_le
    intro hle
    exact hbraces n (Nat.le_of_lt_succ hi.2) hle hlast
  exact ⟨W.sees_of_le (Nat.le_of_lt_succ hlt) hinside, hlt⟩

def blockOf (keyword : Keyword) (contents : Rule α) : Rule α := do
  let _ ← expect (.keyword keyword)
  let _ ← expect .leftBrace
  let a ← contents
  let _ ← expect .rightBrace
  return a

theorem exists_of_expect {κ : Kind} {a : Token} (h : expect κ s = (.ok a, t)) :
    s.peek.kind = κ ∧ t = (advance s).2 := by
  rw [expect_apply] at h
  split at h
  · cases h
    exact ⟨by assumption, rfl⟩
  · cases h

theorem exists_of_blockOf {keyword : Keyword} {contents : Rule α} {a : α} (h : blockOf keyword contents s = (.ok a, t)) :
    s.peek.kind = .keyword keyword ∧ (advance s).2.peek.kind = .leftBrace ∧
      ∃ u, contents (advance (advance s).2).2 = (.ok a, u) ∧ u.peek.kind = .rightBrace ∧ t = (advance u).2 := by
  obtain ⟨_, _, hfirst, h⟩ := exists_of_bind h
  obtain ⟨hkeyword, rfl⟩ := exists_of_expect hfirst
  obtain ⟨_, _, hsecond, h⟩ := exists_of_bind h
  obtain ⟨hopening, rfl⟩ := exists_of_expect hsecond
  obtain ⟨b, u, hcontents, h⟩ := exists_of_bind h
  obtain ⟨_, _, hlast, h⟩ := exists_of_bind h
  obtain ⟨hclosing, rfl⟩ := exists_of_expect hlast
  cases h
  exact ⟨hkeyword, hopening, u, hcontents, hclosing, rfl⟩

/-- What stands between braces is read alike, whatever stands behind the last of them. -/
theorem blockOf_in_window {keyword : Keyword} {contents : Rule α}
    (hagree : ∀ {R : Simulation} {k : Nat}, R.closes → RuleAgree R (Below k) Never contents contents)
    (hsound : W.Sound) (hmeets : Meets W s s') {a : α} (hrun : blockOf keyword contents s = (.ok a, t))
    (hlands : Lands W t) : ∃ t', blockOf keyword contents s' = (.ok a, t') ∧ Meets W t t' := by
  obtain ⟨-, -, u, hcontents, hclosing, rfl⟩ := exists_of_blockOf hrun
  have hsteady : Steady (attempt contents) := (hagree (R := .same) (k := 0) trivial).steady
  have hforward : Forward s u :=
    ((forward_advance s).trans (forward_advance _)).trans (forward_of_steady hsteady hcontents)
  have hposition : (advance u).2.position = u.position + 1 := by
    apply Cursor.position_next
    exact atEnd_of_kind (by rw [hclosing]; rintro ⟨⟩)
  have hlast : (W.first u.position).kind = .rightBrace := by
    rw [← hmeets.first, Cursor.tokenAt, ← hforward.tokens, ← hforward.eof]
    exact hclosing
  have hcloses := Window.closes_upTo hsound (hlands.inside u.position (by omega)) hlast
  have hlocal : RuleLocal (W.upTo (u.position + 1)) (blockOf keyword contents) (blockOf keyword contents) := by
    refine RuleLocal.expect_then (by rintro ⟨⟩) (by rintro ⟨⟩) fun _ => ?_
    refine RuleLocal.expect_then (by rintro ⟨⟩) (by rintro ⟨⟩) fun _ => ?_
    refine RuleLocal.agree_expect (fun k => hagree hcloses) (by rintro ⟨⟩) (fun _ => hcloses.2) ?_
    exact fun b _ => RuleLocal.pure b
  have hlands' : Lands (W.upTo (u.position + 1)) (advance u).2 :=
    ⟨hlands.clean, fun i hi => ⟨hlands.inside i hi, hposition ▸ hi⟩⟩
  have hle : s.position ≤ u.position + 1 := Nat.le_succ_of_le hforward.position
  obtain ⟨t', hrun', hmeets'⟩ := hlocal.same (hmeets.upTo hle) hrun hlands'
  exact ⟨t', hrun', hmeets'.of_upTo⟩

theorem exists_of_map {β : Type} {f : α → β} {x : Rule α} {b : β} (h : (f <$> x) s = (.ok b, t)) :
    ∃ a, x s = (.ok a, t) ∧ b = f a := by
  rw [← bind_pure_comp] at h
  obtain ⟨a, u, hx, hpure⟩ := exists_of_bind h
  cases hpure
  exact ⟨a, hx, rfl⟩

theorem map_of_ok {β : Type} {f : α → β} {x : Rule α} {a : α} (h : x s = (.ok a, t)) : (f <$> x) s = (.ok (f a), t) := by
  rw [← bind_pure_comp, bind_of_ok h]
  rfl

theorem codeSection_eq : codeSection = spanned (CodeSection.ofItems <$> blockOf .code (do codeItems (← depth))) := by
  simp [codeSection, spanned, blockOf]

theorem codeSection_in_window (hsound : W.Sound) (hmeets : Meets W s s') {c : CodeSection}
    (hrun : codeSection s = (.ok c, t)) (hlands : Lands W t) : ∃ t', codeSection s' = (.ok c, t') ∧ Meets W t t' := by
  have hpass : s.position < t.position := (consumes_of_agree fun k => agree_codeSection trivial).passes hrun
  rw [codeSection_eq] at hrun ⊢
  obtain ⟨value, hvalue, rfl⟩ := exists_of_spanned hrun
  obtain ⟨items, hblock, rfl⟩ := exists_of_map hvalue
  have hagree : ∀ {R : Simulation} {k : Nat}, R.closes →
      RuleAgree R (Below k) Never (do codeItems (← depth)) (do codeItems (← depth)) := by
    intro R k hR
    apply RuleAgree.depth
    intro depth
    apply RuleAgree.forget
    exact RuleAgree.lift (agree_codeItems hR depth)
  obtain ⟨t', hblock', hmeets'⟩ := blockOf_in_window hagree hsound hmeets hblock hlands
  rw [spanned_of_ok (map_of_ok hblock'), hmeets.position, hmeets'.spanFrom_eq hpass]
  exact ⟨t', rfl, hmeets'⟩

namespace Local

theorem here {β : Type} {f g : Nat → Parse β} (hf : ∀ n, Local W (f n) (g (n + W.shift))) :
    Local W (Rule.here >>= f) (Rule.here >>= g) := by
  refine ⟨fun s => (hf s.position).steady s, ?_⟩
  intro s s' h hlands
  have hsame := (hf s.position).same h hlands
  rw [← h.position] at hsame
  exact hsame

theorem passedSince {β : Type} (start : Nat) {f g : Nat → Parse β} (hf : ∀ n, Local W (f n) (g n)) :
    Local W (Rule.passedSince start >>= f) (Rule.passedSince (start + W.shift) >>= g) := by
  refine ⟨fun s => (hf (s.position - start)).steady s, ?_⟩
  intro s s' h hlands
  have hsame := (hf (s.position - start)).same h hlands
  have hpassed : s'.position - (start + W.shift) = s.position - start := by rw [h.position, Nat.add_sub_add_right]
  rw [Rule.passedSince, Rule.passedSince, look_bind_apply, look_bind_apply, hpassed]
  exact hsame

theorem note (e e' : Event) : Local W (Rule.note e) (Rule.note e') :=
  ⟨forward_note e, fun h _ => ⟨rfl, h.note e e'⟩⟩

theorem recordSkipped (start : Nat) (reason : String) :
    Local W (Rule.recordSkipped start reason) (Rule.recordSkipped (start + W.shift) reason) :=
  ⟨forward_recordSkipped start reason, fun h _ => ⟨rfl, h.recordSkipped start reason⟩⟩

/-- Tokens are passed while the same holds in both runs. Behind the stretch the first run stops because no token is
passed there. -/
theorem skipWhile {c c' : Parser → Bool}
    (hsame : ∀ s s', Meets W s s' → W.sees s.position → c' s' = c s)
    (hbrace : W.Sound)
    (hstop : ∀ s s', Meets W s s' → ¬ W.sees s.position → s.atEnd = true ∨ c s = false → c' s' = false) :
    Local W (Rule.skipWhile c) (Rule.skipWhile c') := by
  have hround : Local W (skipRound c ()) (skipRound c' ()) := by
    have hsteady : Steady (skipRound c ()) := by
      intro s
      unfold skipRound
      split
      · exact forward_advance s
      · exact Forward.refl s
    refine ⟨hsteady, ?_⟩
    intro s s' h hlands
    unfold skipRound at hlands ⊢
    by_cases hs : W.sees s.position
    · rw [h.atEnd_eq hs, hsame s s' h hs]
      split
      · exact ⟨rfl, h.advance hs fun _ => hbrace⟩
      · exact ⟨rfl, h⟩
    · have hdone : ¬ (!s.atEnd && c s) = true := by
        intro hgo
        rw [if_pos hgo] at hlands
        rw [Bool.and_eq_true, Bool.not_eq_true'] at hgo
        have hposition : (Rule.advance s).2.position = s.position + 1 := Cursor.position_next hgo.1
        exact hs (hlands.inside s.position (hposition ▸ Nat.lt_succ_self _))
      have hdone' : c' s' = false := by
        apply hstop s s' h hs
        rwa [Bool.not_eq_true, Bool.and_eq_false_iff, Bool.not_eq_false'] at hdone
      rw [if_neg hdone, if_neg (by simp [hdone'])]
      exact ⟨rfl, h⟩
  have hprogress : ∀ c, Progresses (skipRound c) := fun c => grammarLoop_progresses (.skip c)
  exact Local.loop (fun _ => hround) (hprogress c) (hprogress c').unrolls ()

end Local

def sectionBoundary (depth : Nat) (s : Parser) : Bool :=
  s.braceDepth ≤ depth && (s.check .rightBrace || sectionStarts s)

def Window.Passes (W : Window) (depth : Nat) : Prop :=
  ∀ s s', Meets W s s' → ¬ W.sees s.position → s.atEnd = true ∨ sectionBoundary depth s = true →
    sectionBoundary (depth + W.deep) s' = true

theorem sectionBoundary_eq (hends : W.Ends) (hmeets : Meets W s s') (hs : W.sees s.position) (depth : Nat) :
    sectionBoundary (depth + W.deep) s' = sectionBoundary depth s := by
  have hdepth : decide (s'.braceDepth ≤ depth + W.deep) = decide (s.braceDepth ≤ depth) := by
    simp only [hmeets.braceDepth, Nat.add_le_add_iff_right]
  rw [sectionBoundary, hdepth, hends.sectionStarts_eq hmeets hs, Cursor.check, hmeets.peek_eq hs]
  rfl

theorem local_skipToSection (hsound : W.Sound) (hends : W.Ends) {depth : Nat} (hstop : W.Passes depth)
    (reason : String) : Local W (skipToSection depth reason) (skipToSection (depth + W.deep) reason) := by
  have hskip : Local W (skipWhile fun s => !sectionBoundary depth s)
      (skipWhile fun s => !sectionBoundary (depth + W.deep) s) := by
    apply Local.skipWhile _ hsound
    · intro s s' h hs hdone
      rw [Bool.not_eq_false'] at hdone
      rw [hstop s s' h hs hdone]
      rfl
    · intro s s' h hs
      rw [sectionBoundary_eq hends h hs]
  apply Local.here
  intro start
  apply Local.bind hskip
  intro _
  apply Local.passedSince
  intro count
  split
  · exact (Local.note _ _).bind fun _ => Local.recordSkipped start reason
  · exact Local.pure _

theorem advanceBy_snd (n : Nat) (s : Parser) : (advanceBy n s).2 = skip n s := by
  induction n generalizing s with
  | zero => rfl
  | succ n ih => exact ih (advance s).2

theorem position_skip_of_kinds {n : Nat} (h : ∀ i < n, (s.peekAhead i).kind ≠ .eof) :
    (skip n s).position = s.position + n := by
  induction n generalizing s with
  | zero => rfl
  | succ n ih =>
      have hposition : (advance s).2.position = s.position + 1 :=
        Cursor.position_next (atEnd_of_kind (h 0 (Nat.succ_pos n)))
      rw [skip, ih, hposition, Nat.add_assoc, Nat.add_comm 1]
      intro i hi
      rw [peekAhead_advance (h 0 (Nat.succ_pos n))]
      exact h (i + 1) (Nat.succ_lt_succ hi)

/-- In front of so many tokens that both runs see. -/
theorem Meets.skip (h : Meets W s s') (hsound : W.Sound) {n : Nat} (hsees : ∀ i < n, W.sees (s.position + i))
    (hkinds : ∀ i < n, (s.peekAhead i).kind ≠ .eof) : Meets W (Rule.skip n s) (Rule.skip n s') := by
  induction n generalizing s s' with
  | zero => exact h
  | succ n ih =>
      have hfirst := hkinds 0 (Nat.succ_pos n)
      have hposition : (Rule.advance s).2.position = s.position + 1 := Cursor.position_next (atEnd_of_kind hfirst)
      apply ih (h.advance (hsees 0 (Nat.succ_pos n)) fun _ => hsound)
      · intro i hi
        rw [hposition, Nat.add_assoc, Nat.add_comm 1]
        exact hsees (i + 1) (Nat.succ_lt_succ hi)
      · intro i hi
        rw [peekAhead_advance hfirst]
        exact hkinds (i + 1) (Nat.succ_lt_succ hi)

theorem passSection_in_window (hsound : W.Sound) (hends : W.Ends) {depth n : Nat} (hstop : W.Passes depth)
    (hkinds : ∀ i < n, (s.peekAhead i).kind ≠ .eof) (hmeets : Meets W s s')
    (hlands : Lands W (passSection depth n s).2) :
    Meets W (passSection depth n s).2 (passSection (depth + W.deep) n s').2 ∧
      s.position + n ≤ (passSection depth n s).2.position := by
  have hrest : ∀ start heading heading', Local W (do
      skipToSection depth "unsupported section"
      note (((Event.success .sectionSkipped "Skipped section without tree representation").set "section"
        (joinTokens heading)).set "tokens" (toString (← passedSince start)))) (do
      skipToSection (depth + W.deep) "unsupported section"
      note (((Event.success .sectionSkipped "Skipped section without tree representation").set "section"
        (joinTokens heading')).set "tokens" (toString (← passedSince (start + W.shift))))) := by
    intro start heading heading'
    apply Local.bind (local_skipToSection hsound hends hstop _)
    intro _
    apply Local.passedSince
    intro count
    exact Local.note _ _
  have hrun := hrest s.position (advanceBy n s).1 (advanceBy n s').1
  have hposition : (advanceBy n s).2.position = s.position + n := by
    rw [advanceBy_snd, position_skip_of_kinds hkinds]
  have hforward : Forward (advanceBy n s).2 (passSection depth n s).2 := hrun.steady (advanceBy n s).2
  have hle : s.position + n ≤ (passSection depth n s).2.position := hposition ▸ hforward.position
  have hmeets' := hmeets.skip hsound (fun i hi => hlands.inside _ (by omega)) hkinds
  rw [← advanceBy_snd, ← advanceBy_snd] at hmeets'
  have hsame := (hrun.same hmeets' hlands).2
  rw [← hmeets.position] at hsame
  exact ⟨hsame, hle⟩

theorem sectionHead_in_window (hends : W.Ends) (hmeets : Meets W s s') {head : SectionHead}
    (hs : W.sees s.position) (hfar : head = .objectProperties → W.sees (s.position + 2))
    (h : sectionHead? s = some head) : sectionHead? s' = some head := by
  have hstart : head = .objectProperties → objectPropertiesStart s' = objectPropertiesStart s := by
    intro hhead
    have hnear := W.sees_of_le (Nat.le_succ (s.position + 1)) (hfar hhead)
    rw [objectPropertiesStart, objectPropertiesStart, hmeets.peekAhead_eq hnear, hmeets.peekAhead_eq (hfar hhead)]
  unfold sectionHead? at h ⊢
  rw [hmeets.peek_eq hs, hends.checkNext_eq hmeets hs]
  generalize s.peek.kind = κ at h
  split at h <;> simp_all

/-- What stands behind the stretch ends the section in front of it in both runs. -/
structure Window.Borders (W : Window) (depth : Nat) (head : SectionHead) : Prop where
  sound : W.Sound
  ends : W.Ends
  globals : head = .globals → ∀ s s', Meets W s s' → ¬ W.sees s.position → variableHead s' = .stop
  passes : head = .passed ∨ head = .objectProperties → W.Passes depth

theorem bracedSection_in_window {keyword : Keyword} {item : Rule α}
    (hagree : ∀ {R : Simulation} {k : Nat}, R.closes → RuleAgree R (Below k) Always item item)
    (hsound : W.Sound) (hmeets : Meets W s s') {entries : List α}
    (hrun : bracedSection keyword item s = (.ok entries, t)) (hlands : Lands W t) :
    ∃ t', bracedSection keyword item s' = (.ok entries, t') ∧ Meets W t t' := by
  apply blockOf_in_window _ hsound hmeets hrun hlands
  intro R k hR
  exact RuleAgree.lift (agree_bracedEntries (Simulation.contained_of_closes hR) (hagree hR))

theorem propertiesSection_in_window (hsound : W.Sound) (hmeets : Meets W s s') {entries : List Property}
    (hrun : propertiesSection s = (.ok entries, t)) (hlands : Lands W t) :
    ∃ t', propertiesSection s' = (.ok entries, t') ∧ Meets W t t' := by
  apply blockOf_in_window _ hsound hmeets hrun hlands
  intro R k hR
  exact RuleAgree.lift (agree_propertyList (Simulation.contained_of_closes hR))

theorem globals_in_window (h : W.Ends) (hstop : ∀ s s', Meets W s s' → ¬ W.sees s.position → variableHead s' = .stop)
    (hmeets : Meets W s s') (hs : W.sees s.position) (hkind : s.peek.kind = .keyword .var)
    (hlands : Lands W (variableBlock (advance s).2).2) :
    (variableBlock (advance s').2).1 = (variableBlock (advance s).2).1 ∧
      Meets W (variableBlock (advance s).2).2 (variableBlock (advance s').2).2 := by
  apply (local_variableBlock h hstop).same _ hlands
  apply hmeets.advance hs
  rw [hkind]
  nofun

theorem sectionRule_globals (depth : Nat) (s : Parser) : sectionRule depth .globals s =
    (.ok (.globals (variableBlock (advance s).2).1), (variableBlock (advance s).2).2) := rfl

theorem passes_sectionRule {depth : Nat} {head : SectionHead} (hhead : sectionHead? s = some head) {sec : ObjectSection}
    (hrun : sectionRule depth head s = (.ok sec, t)) : Forward s t ∧ s.position < t.position := by
  have hagree := agree_sectionRule (R := .same) (k := s.left + 1) trivial depth head
  have halike : Alike .same (okAnd Always) s s (sectionRule depth head s) (sectionRule depth head s) :=
    hagree.alike rfl ⟨Nat.lt_succ_self _, hhead⟩
  have hforward := forward_of_steady hagree.steady hrun
  rcases halike with hlost | ⟨hpass, -⟩
  · exact hlost.elim
  · rw [hrun] at hpass
    exact ⟨hforward, hforward.left_lt_iff.1 (hpass trivial)⟩

/-- A section that is read whole and without a diagnostic in one place is read so in the other. -/
theorem sectionRule_in_window {depth : Nat} {head : SectionHead} (h : W.Borders depth head) (hmeets : Meets W s s')
    (hhead : sectionHead? s = some head) {sec : ObjectSection} (hrun : sectionRule depth head s = (.ok sec, t))
    (hlands : Lands W t) : sectionHead? s' = some head ∧
      ∃ t', sectionRule (depth + W.deep) head s' = (.ok sec, t') ∧ Meets W t t' := by
  have hs : W.sees s.position := hlands.inside _ (passes_sectionRule hhead hrun).2
  obtain ⟨word, hword⟩ := kind_of_sectionHead hhead
  by_cases hfar : head = .objectProperties
  · subst hfar
    obtain ⟨hminus, hproperties⟩ := kinds_of_objectProperties hhead
    cases hrun
    have hkinds : ∀ i < 3, (s.peekAhead i).kind ≠ .eof := by
      intro i hi
      obtain rfl | rfl | rfl : i = 0 ∨ i = 1 ∨ i = 2 := by omega
      · have hfirst : (s.peekAhead 0).kind = .keyword word := hword
        simp [hfirst]
      · simp [hminus]
      · simp [hproperties]
    obtain ⟨hmeets', hle⟩ := passSection_in_window h.sound h.ends (h.passes (.inr rfl)) hkinds hmeets hlands
    have hsees : W.sees (s.position + 2) := hlands.inside _ hle
    exact ⟨sectionHead_in_window h.ends hmeets hs (fun _ => hsees) hhead, _, rfl, hmeets'⟩
  · refine ⟨sectionHead_in_window h.ends hmeets hs (fun heq => absurd heq hfar) hhead, ?_⟩
    cases head with
    | objectProperties => exact absurd rfl hfar
    | properties =>
        obtain ⟨entries, hblock, rfl⟩ := exists_of_map hrun
        obtain ⟨t', hblock', hmeets'⟩ := propertiesSection_in_window h.sound hmeets hblock hlands
        exact ⟨t', map_of_ok hblock', hmeets'⟩
    | fields =>
        obtain ⟨entries, hblock, rfl⟩ := exists_of_map hrun
        obtain ⟨t', hblock', hmeets'⟩ := bracedSection_in_window agree_field h.sound hmeets hblock hlands
        exact ⟨t', map_of_ok hblock', hmeets'⟩
    | keys =>
        obtain ⟨entries, hblock, rfl⟩ := exists_of_map hrun
        obtain ⟨t', hblock', hmeets'⟩ := bracedSection_in_window agree_key h.sound hmeets hblock hlands
        exact ⟨t', map_of_ok hblock', hmeets'⟩
    | fieldGroups =>
        obtain ⟨entries, hblock, rfl⟩ := exists_of_map hrun
        obtain ⟨t', hblock', hmeets'⟩ := bracedSection_in_window agree_fieldGroup h.sound hmeets hblock hlands
        exact ⟨t', map_of_ok hblock', hmeets'⟩
    | code =>
        obtain ⟨c, hblock, rfl⟩ := exists_of_map hrun
        obtain ⟨t', hblock', hmeets'⟩ := codeSection_in_window h.sound hmeets hblock hlands
        exact ⟨t', map_of_ok hblock', hmeets'⟩
    | globals =>
        rw [sectionRule_globals] at hrun ⊢
        cases hrun
        obtain ⟨hdeclared, hmeets'⟩ :=
          globals_in_window h.ends (h.globals rfl) hmeets hs (kind_of_globals hhead) hlands
        rw [hdeclared]
        exact ⟨_, rfl, hmeets'⟩
    | passed =>
        cases hrun
        have hkinds : ∀ i < 1, (s.peekAhead i).kind ≠ .eof := by
          intro i hi
          obtain rfl : i = 0 := by omega
          have hfirst : (s.peekAhead 0).kind = .keyword word := hword
          simp [hfirst]
        obtain ⟨hmeets', -⟩ := passSection_in_window h.sound h.ends (h.passes (.inl rfl)) hkinds hmeets hlands
        exact ⟨_, rfl, hmeets'⟩

end CalExport.Rule
