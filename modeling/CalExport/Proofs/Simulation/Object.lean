import CalExport.Proofs.Simulation.Declaration
import CalExport.Object.Rule

namespace CalExport.Rule

variable {α : Type} {R : Simulation} {P : Parser → Prop} {k : Nat}

theorem not_endsPropertyName {s : Parser} {n i : Nat} (h : i < nameLength s n) :
    endsPropertyName (s.peekAhead i).kind = false := by
  induction n with
  | zero => exact absurd h (Nat.not_lt_zero i)
  | succ n ih =>
      rw [nameLength] at h
      split at h
      · rename_i hlonger
        by_cases hi : i < nameLength s n
        · exact ih hi
        · obtain rfl : i = n := by omega
          simpa using hlonger.2
      · exact ih h

theorem may_of_not_endsPropertyName {κ : Kind} (h : endsPropertyName κ = false) : κ ≠ .eof ∧ κ ≠ .rightBrace := by
  refine ⟨?_, ?_⟩
  · rintro rfl
    cases h
  · rintro rfl
    cases h

theorem peekAhead_eq_of_nameLength (ha : R.ahead) {s s' : Parser} (hs : R.rel s s') {n i : Nat}
    (h : i ≤ nameLength s n) : s'.peekAhead i = s.peekAhead i := by
  apply R.peekAhead_eq ha hs
  intro j hj
  exact (may_of_not_endsPropertyName (not_endsPropertyName (Nat.lt_of_lt_of_le hj h))).2

theorem nameLength_eq (ha : R.ahead) {s s' : Parser} (hs : R.rel s s') (n : Nat) :
    nameLength s' n = nameLength s n := by
  induction n with
  | zero => rfl
  | succ n ih =>
      simp only [nameLength, ih]
      by_cases hn : nameLength s n = n
      · rw [peekAhead_eq_of_nameLength ha hs (n := n) (Nat.le_of_eq hn.symm)]
      · rw [if_neg (fun h => hn h.1), if_neg (fun h => hn h.1)]

theorem propertyNameLength_eq (ha : R.ahead) {s s' : Parser} (hs : R.rel s s') :
    propertyNameLength? s' = propertyNameLength? s := by
  unfold propertyNameLength?
  dsimp only
  rw [nameLength_eq ha hs, peekAhead_eq_of_nameLength ha hs (Nat.le_refl _)]

theorem propertyNameLength_spec {s : Parser} {n : Nat} (h : propertyNameLength? s = some n) :
    0 < n ∧ ∀ i < n, (s.peekAhead i).kind ≠ .eof ∧ (s.peekAhead i).kind ≠ .rightBrace := by
  unfold propertyNameLength? at h
  dsimp only at h
  split at h
  · cases h
  · rename_i hname
    obtain rfl := Option.some.inj h
    rw [not_or] at hname
    refine ⟨Nat.pos_of_ne_zero hname.1, ?_⟩
    intro i hi
    exact may_of_not_endsPropertyName (not_endsPropertyName hi)

theorem agree_propertyName (ha : R.ahead) : RuleAgree R (Below k) Always propertyName propertyName := by
  apply RuleAgree.look (fun s s' hs _ => propertyNameLength_eq ha hs)
  intro length?
  cases length? with
  | none =>
      apply RuleAgree.peek
      intro t
      exact RuleAgree.throw _
  | some n =>
      apply RuleAgree.andThen_of (k := k) (fun s hs => hs.1)
      · apply RuleAgree.lift
        apply Agree.of_passes
        · apply (agree_advanceBy n).mono _ fun _ h => h
          rintro s ⟨-, hlength⟩ i hi
          obtain ⟨heof, hbrace⟩ := (propertyNameLength_spec hlength).2 i hi
          exact ⟨heof, fun h => absurd h hbrace⟩
        · rintro s ⟨-, hlength⟩
          obtain ⟨hn, hkinds⟩ := propertyNameLength_spec hlength
          exact advanceBy_passes hn (hkinds 0 hn).1
      · intro tokens
        exact RuleAgree.pure id

theorem triggerStarts_eq (ha : R.ahead) {s s' : Parser} (hs : R.rel s s') : triggerStarts s' = triggerStarts s := by
  unfold triggerStarts
  rw [R.peek_eq hs]
  by_cases hbrace : s.peek.kind = .rightBrace
  · rw [hbrace]
  · rw [R.next_eq ha hs hbrace]

theorem agree_propertyValue (hR : R.Contained) : RuleAgree R (Below k) Never propertyValue propertyValue := by
  apply RuleAgree.test (fun s s' hs _ => triggerStarts_eq hR.ahead hs)
  intro starts
  split
  · apply RuleAgree.forget
    apply RuleAgree.bind (agree_triggerBody hR).never
    intro body
    exact RuleAgree.pure id
  · apply RuleAgree.forget
    apply RuleAgree.step (hR.raw k)
    intro tokens
    exact RuleAgree.pure id

theorem agree_property (hR : R.Contained) : RuleAgree R (Below k) Always property property := by
  apply RuleAgree.here
  intro start
  apply RuleAgree.andThen (agree_propertyName hR.ahead)
  intro name
  refine RuleAgree.expect_then ⟨nofun, nofun⟩ fun _ => ?_
  apply RuleAgree.bind (agree_propertyValue hR)
  intro value
  apply RuleAgree.spanFrom
  intro span
  refine RuleAgree.accept_bind ⟨nofun, nofun⟩ fun _ => ?_
  exact RuleAgree.pure id

theorem agree_propertyRound (hR : R.Contained) (found : Array Property) :
    Agree R (Below k) Yields (propertyRound found) (propertyRound found) := by
  apply Agree.peekKind
  intro κ
  split
  · exact Agree.pure id
  · rename_i hgo
    rw [not_or] at hgo
    split
    · rename_i hkind
      apply Agree.advance_kind (hkind.symm ▸ ⟨nofun, nofun⟩)
      intro _
      exact Agree.pure id
    · apply Agree.andThen_of (k := k) (fun s hs => hs.1)
      · apply (agree_withRecovery (k := k) hR _ (agree_property hR)).mono _ fun _ h => h
        rintro s ⟨hs, rfl⟩
        exact ⟨hs, hgo⟩
      · intro found?
        cases found? <;> exact Agree.pure id

theorem agree_propertyList (hR : R.Contained) : Agree R (Below k) Never propertyList propertyList := by
  apply Agree.bind (Agree.loop (agree_propertyRound hR) #[])
  intro found
  exact Agree.pure id

theorem agree_propertiesSection (hR : R.closes) :
    RuleAgree R (Below k) Always propertiesSection propertiesSection := by
  refine RuleAgree.expect_then ⟨nofun, nofun⟩ fun _ => ?_
  refine RuleAgree.expect_then ⟨nofun, nofun⟩ fun _ => ?_
  apply RuleAgree.step (agree_propertyList (Simulation.contained_of_closes hR))
  intro properties
  refine RuleAgree.expect_then ⟨nofun, fun _ => hR⟩ fun _ => ?_
  exact RuleAgree.pure id

theorem stray_passes {s : Parser} (h : s.peek.kind ≠ .eof) (hopen : s.peek.kind ≠ .leftBrace)
    (hclose : s.peek.kind ≠ .rightBrace) :
    (skipWhile (fun s => !s.check .leftBrace && !s.check .rightBrace) s).2.left < s.left := by
  have hgo : (!s.atEnd && (!s.check .leftBrace && !s.check .rightBrace)) = true := by
    rw [Ne, Cursor.kind_peek_eq_eof] at h
    simp only [Cursor.check, h, beq_eq_false_iff_ne.2 hopen, beq_eq_false_iff_ne.2 hclose]
    rfl
  apply loop_passes
  · intro a
    exact (agree_skipRound (R := .same) (k := 0) (fun s s' hs _ => by rw [show s' = s from hs]) (fun _ _ _ => trivial)
      a).steady
  · rw [skipRound, if_pos hgo]
    exact left_advance_lt h

theorem skipStray_apply (s : Parser) :
    skipStray s = recordSkipped s.position "stray tokens between entries"
      (skipWhile (fun s => !s.check .leftBrace && !s.check .rightBrace)
        (report (.expected "'\x7b'" s.peek) s).2).2 := by
  have hcursor := toCursor_record (.ofFault (.expected "'\x7b'" s.peek)) s
  simp only [skipStray, peek, here, bind_apply, look_apply]
  rw [show (report (.expected "'\x7b'" s.peek) s).2.position = s.position by
    rw [report, hcursor]]

theorem skipStray_passes {s : Parser} (h : s.peek.kind ≠ .eof) (hopen : s.peek.kind ≠ .leftBrace)
    (hclose : s.peek.kind ≠ .rightBrace) : (skipStray s).2.left < s.left := by
  have hcursor : (report (.expected "'\x7b'" s.peek) s).2.toCursor = s.toCursor := toCursor_record _ s
  have hpass := stray_passes (s := (report (.expected "'\x7b'" s.peek) s).2) (by rwa [hcursor]) (by rwa [hcursor])
    (by rwa [hcursor])
  rw [hcursor] at hpass
  rw [skipStray_apply]
  exact Nat.lt_of_le_of_lt (forward_recordSkipped _ _ _).left_le hpass

theorem agree_skipStray : Agree R (Below k) Never skipStray skipStray := by
  apply Agree.peek
  intro t
  apply Agree.forget
  apply Agree.bind (Agree.report _)
  intro _
  apply Agree.here
  intro start
  refine Agree.bind (agree_skipWhile ?_ ?_) fun _ => Agree.recordSkipped start _
  · intro s s' hs _
    rw [Cursor.check, Cursor.check, R.peek_eq hs, ← Cursor.check, ← Cursor.check]
  · intro s hgo hclose
    rw [Cursor.check_iff.2 hclose, Bool.not_true, Bool.and_false] at hgo
    cases hgo

theorem agree_entryRound (hR : R.Contained) {x y : Rule α} (hx : RuleAgree R (Below k) Always x y)
    (found : Array α) : Agree R (Below k) Yields (entryRound x found) (entryRound y found) := by
  apply Agree.peekKind
  intro κ
  split
  · exact Agree.pure id
  · rename_i hgo
    rw [not_or] at hgo
    split
    · apply Agree.andThen_of (k := k) (fun s hs => hs.1)
      · apply (agree_withRecovery (k := k) hR _ hx).mono _ fun _ h => h
        rintro s ⟨hs, rfl⟩
        exact ⟨hs, hgo⟩
      · intro found?
        cases found? <;> exact Agree.pure id
    · rename_i hopen
      apply Agree.andThen_of (k := k) (fun s hs => hs.1)
      · apply Agree.of_passes agree_skipStray.forget
        rintro s ⟨-, rfl⟩
        exact skipStray_passes hgo.1 hopen hgo.2
      · intro _
        exact Agree.pure id

theorem agree_bracedEntries (hR : R.Contained) {x y : Rule α} (hx : RuleAgree R (Below k) Always x y) :
    Agree R (Below k) Never (bracedEntries x) (bracedEntries y) := by
  apply Agree.bind (Agree.loop (agree_entryRound hR hx) #[])
  intro entries
  exact Agree.pure id

theorem agree_bracedSection (hR : R.closes) (keyword : Keyword) {x y : Rule α}
    (hx : RuleAgree R (Below k) Always x y) :
    RuleAgree R (Below k) Always (bracedSection keyword x) (bracedSection keyword y) := by
  refine RuleAgree.expect_then ⟨nofun, nofun⟩ fun _ => ?_
  refine RuleAgree.expect_then ⟨nofun, nofun⟩ fun _ => ?_
  apply RuleAgree.step ((agree_bracedEntries (Simulation.contained_of_closes hR) hx).le (by omega))
  intro entries
  refine RuleAgree.expect_then ⟨nofun, fun _ => hR⟩ fun _ => ?_
  exact RuleAgree.pure id

theorem agree_column (hR : R.Contained) : Agree R (Below k) Never column column := by
  apply Agree.bind (hR.raw k)
  intro tokens
  exact Agree.pure id

theorem quotedBefore_eq (ha : R.ahead) {s s' : Parser} (hs : R.rel s s') (κ : Kind) :
    quotedBefore κ s' = quotedBefore κ s := by
  unfold quotedBefore Cursor.check Cursor.checkNext
  rw [R.peek_eq hs]
  by_cases hbrace : s.peek.kind = .rightBrace
  · rw [hbrace]
    rfl
  · rw [R.next_eq ha hs hbrace]

theorem kind_of_quotedBefore {s : Parser} {κ : Kind} (h : quotedBefore κ s = true) :
    s.peek.kind = .quotedIdentifier := by
  rw [quotedBefore, Bool.and_eq_true] at h
  exact Cursor.check_iff.1 h.1

theorem agree_nameColumn (hR : R.Contained) : Agree R (Below k) Never nameColumn nameColumn := by
  apply Agree.test (fun s s' hs _ => quotedBefore_eq hR.ahead hs _)
  intro quoted
  split
  · apply Agree.advance (k := k)
    · rintro s ⟨hs, rfl⟩
      exact ⟨hs, R.may_of_eq (kind_of_quotedBefore (by assumption)) ⟨nofun, nofun⟩⟩
    · intro t
      exact Agree.pure id
  · exact (agree_column hR).forget

theorem agree_fieldName (hR : R.Contained) : Agree R (Below k) Never fieldName fieldName := by
  apply Agree.peek
  intro first
  apply Agree.forget
  apply Agree.bind (agree_nameColumn hR)
  intro name
  split
  · apply Agree.bind (Agree.report _)
    intro _
    exact Agree.pure id
  · exact Agree.pure id

theorem agree_braced (hR : R.closes) {x y : Rule (Text.Span → α)} (hx : RuleAgree R (Below k) Never x y) :
    RuleAgree R (Below k) Always (braced x) (braced y) := by
  apply RuleAgree.here
  intro start
  refine RuleAgree.expect_then ⟨nofun, nofun⟩ fun _ => ?_
  apply RuleAgree.bind (hx.le (Nat.sub_le k 1))
  intro value
  refine RuleAgree.expect_then ⟨nofun, fun _ => hR⟩ fun _ => ?_
  apply RuleAgree.spanFrom
  intro span
  exact RuleAgree.pure id

theorem agree_lastProperties (hR : R.Contained) : Agree R (Below k) Never lastProperties lastProperties := by
  refine Agree.accept_ite ⟨nofun, nofun⟩ ?_ ?_
  · exact agree_propertyList hR
  · exact Agree.pure id

theorem agree_fieldColumns (hR : R.Contained) : RuleAgree R (Below k) Never fieldColumns fieldColumns := by
  apply RuleAgree.bind agree_integer.never
  intro number
  refine RuleAgree.expect_then ⟨nofun, nofun⟩ fun _ => ?_
  apply RuleAgree.step (agree_column hR)
  intro fieldClass
  refine RuleAgree.expect_then ⟨nofun, nofun⟩ fun _ => ?_
  apply RuleAgree.step (agree_fieldName hR)
  intro name
  refine RuleAgree.expect_then ⟨nofun, nofun⟩ fun _ => ?_
  apply RuleAgree.bind agree_dataType.never
  intro dataType
  apply RuleAgree.step (agree_lastProperties hR)
  intro all
  exact RuleAgree.pure id

theorem agree_nameList (hR : R.Contained) : Agree R (Below k) Never nameList nameList := by
  apply Agree.bind (hR.raw k)
  intro tokens
  exact Agree.pure id

theorem agree_keyColumns (hR : R.Contained) : RuleAgree R (Below k) Never keyColumns keyColumns := by
  apply RuleAgree.step (agree_column hR)
  intro _
  refine RuleAgree.expect_then ⟨nofun, nofun⟩ fun _ => ?_
  apply RuleAgree.step (agree_nameList hR)
  intro fields
  apply RuleAgree.step (agree_lastProperties hR)
  intro properties
  exact RuleAgree.pure id

theorem agree_fieldGroupColumns (hR : R.Contained) :
    RuleAgree R (Below k) Never fieldGroupColumns fieldGroupColumns := by
  apply RuleAgree.bind agree_integer.never
  intro id?
  refine RuleAgree.expect_then ⟨nofun, nofun⟩ fun _ => ?_
  apply RuleAgree.step (agree_column hR)
  intro name
  refine RuleAgree.expect_then ⟨nofun, nofun⟩ fun _ => ?_
  apply RuleAgree.step (agree_nameList hR)
  intro fields
  refine RuleAgree.accept_bind ⟨nofun, nofun⟩ fun _ => ?_
  exact RuleAgree.pure id

section

variable (hR : R.closes)

include hR

theorem agree_field : RuleAgree R (Below k) Always field field := by
  apply RuleAgree.andThen (agree_braced hR (agree_fieldColumns (Simulation.contained_of_closes hR)))
  intro field
  apply RuleAgree.step (Agree.note _)
  intro _
  exact RuleAgree.pure id

theorem agree_key : RuleAgree R (Below k) Always key key :=
  agree_braced hR (agree_keyColumns (Simulation.contained_of_closes hR))

theorem agree_fieldGroup : RuleAgree R (Below k) Always fieldGroup fieldGroup :=
  agree_braced hR (agree_fieldGroupColumns (Simulation.contained_of_closes hR))

theorem agree_passSection (depth : Nat) {n : Nat} (hn : 0 < n) :
    Agree R (fun s => Below k s ∧ ∀ i < n, R.May (s.peekAhead i).kind) Always (passSection depth n)
      (passSection (depth + R.deep) n) := by
  apply Agree.here
  intro start
  apply Agree.andThen_of (k := k) (fun s hs => hs.1)
  · apply Agree.of_passes
    · exact (agree_advanceBy n).mono (fun s hs => hs.2) fun _ h => h
    · rintro s ⟨-, hmay⟩
      exact advanceBy_passes hn (hmay 0 hn).1
  · intro heading
    apply Agree.bind (agree_skipToSection hR depth _)
    intro _
    apply Agree.passedSince
    intro passed
    exact Agree.note _

end

/-- `OBJECT-PROPERTIES` is seen as far as it goes: none of its tokens is a brace. -/
theorem objectPropertiesStart_eq (ha : R.ahead) {s s' : Parser} (hs : R.rel s s') (h : s.peek.kind ≠ .rightBrace) :
    objectPropertiesStart s' = objectPropertiesStart s := by
  unfold objectPropertiesStart
  rw [R.next_eq ha hs h]
  by_cases hminus : (s.peekAhead 1).kind = .minus
  · rw [R.peekAhead_eq ha hs 2]
    intro i hi
    obtain rfl | rfl : i = 0 ∨ i = 1 := by omega
    · exact h
    · rw [hminus]
      nofun
  · simp only [beq_eq_false_iff_ne.2 hminus, Bool.false_and]

theorem sectionHead_eq (ha : R.ahead) {s s' : Parser} (hs : R.rel s s') : sectionHead? s' = sectionHead? s := by
  unfold sectionHead?
  rw [R.peek_eq hs]
  by_cases hbrace : s.peek.kind = .rightBrace
  · rw [hbrace]
  · rw [objectPropertiesStart_eq ha hs hbrace, Cursor.checkNext, Cursor.checkNext, R.next_eq ha hs hbrace]

theorem kind_of_sectionHead {s : Parser} {head : SectionHead} (h : sectionHead? s = some head) :
    ∃ word, s.peek.kind = .keyword word := by
  cases hkind : s.peek.kind with
  | keyword word => exact ⟨word, rfl⟩
  | _ =>
      rw [sectionHead?, hkind] at h
      cases h

theorem kinds_of_objectProperties {s : Parser} (h : sectionHead? s = some .objectProperties) :
    (s.peekAhead 1).kind = .minus ∧ (s.peekAhead 2).kind = .keyword .properties := by
  have hstart : objectPropertiesStart s = true := by
    unfold sectionHead? at h
    split at h
    case h_1 =>
      split at h
      · assumption
      · cases h
    case h_6 => split at h <;> cases h
    case h_8 => split at h <;> cases h
    all_goals cases h
  rw [objectPropertiesStart, Bool.and_eq_true, beq_iff_eq, beq_iff_eq] at hstart
  exact hstart

theorem kind_of_globals {s : Parser} (h : sectionHead? s = some .globals) : s.peek.kind = .keyword .var := by
  unfold sectionHead? at h
  split at h
  case h_7 hkind => exact hkind
  all_goals first | cases h | (split at h <;> cases h)

theorem agree_sectionRule (hR : R.closes) (depth : Nat) (head : SectionHead) :
    RuleAgree R (fun s => Below k s ∧ sectionHead? s = some head) Always (sectionRule depth head)
      (sectionRule (depth + R.deep) head) := by
  cases head with
  | objectProperties =>
      apply RuleAgree.andThen_of (k := k) (fun s hs => hs.1)
      · apply RuleAgree.lift
        apply (agree_passSection (k := k) hR depth (n := 3) (by decide)).mono _ fun _ h => h
        rintro s ⟨hs, hhead⟩
        refine ⟨hs, ?_⟩
        intro i hi
        obtain ⟨word, hword⟩ := kind_of_sectionHead hhead
        obtain ⟨hminus, hproperties⟩ := kinds_of_objectProperties hhead
        obtain rfl | rfl | rfl : i = 0 ∨ i = 1 ∨ i = 2 := by omega
        · exact R.may_of_eq hword ⟨nofun, nofun⟩
        · exact R.may_of_eq hminus ⟨nofun, nofun⟩
        · exact R.may_of_eq hproperties ⟨nofun, nofun⟩
      · intro _
        exact RuleAgree.pure id
  | properties => exact ((agree_propertiesSection hR).map fun _ _ => trivial).forget
  | fields => exact ((agree_bracedSection hR _ (agree_field hR)).map fun _ _ => trivial).forget
  | keys => exact ((agree_bracedSection hR _ (agree_key hR)).map fun _ _ => trivial).forget
  | fieldGroups => exact ((agree_bracedSection hR _ (agree_fieldGroup hR)).map fun _ _ => trivial).forget
  | code => exact ((agree_codeSection hR).map fun _ _ => trivial).forget
  | globals =>
      apply RuleAgree.advance (k := k)
      · rintro s ⟨hs, hhead⟩
        obtain ⟨word, hword⟩ := kind_of_sectionHead hhead
        exact ⟨hs, R.may_of_eq hword ⟨nofun, nofun⟩⟩
      · intro _
        apply RuleAgree.step (agree_variableBlock (Simulation.contained_of_closes hR))
        intro vars
        exact RuleAgree.pure id
  | passed =>
      apply RuleAgree.andThen_of (k := k) (fun s hs => hs.1)
      · apply RuleAgree.lift
        apply (agree_passSection (k := k) hR depth (n := 1) (by decide)).mono _ fun _ h => h
        rintro s ⟨hs, hhead⟩
        refine ⟨hs, ?_⟩
        intro i hi
        obtain ⟨word, hword⟩ := kind_of_sectionHead hhead
        obtain rfl : i = 0 := by omega
        exact R.may_of_eq hword ⟨nofun, nofun⟩
      · intro _
        exact RuleAgree.pure id

theorem agree_sectionRound (hR : R.closes) (depth : Nat) (found : Array ObjectSection) :
    Agree R (Below k) Yields (sectionRound depth found) (sectionRound (depth + R.deep) found) := by
  apply Agree.look (fun s s' hs _ => sectionHead_eq (R.ahead_of_closes hR) hs)
  intro head?
  cases head? with
  | none => exact Agree.pure id
  | some head =>
      apply Agree.start
      intro start
      have hrule := agree_sectionRule (k := k) hR depth head
      apply Agree.recover (k := k) (fun s hs => hs.1.1) hrule.forget
      · intro sec
        exact Agree.pure id
      · intro fault
        apply Agree.forget
        apply Agree.bind (Agree.report fault)
        intro _
        apply Agree.bind (agree_skipToSection hR depth _)
        intro _
        apply Agree.passedSince
        intro passed
        split <;> exact Agree.pure id
      · rintro fault s u ⟨-, rfl⟩ h hyields
        have hskip : Forward s (skipToSection depth "section recovery" (report fault u).2).2 :=
          (h.trans (forward_record _ u)).trans (steady_skipToSection depth _ _)
        dsimp only at hyields ⊢
        rw [bind_apply, bind_apply, passedSince, look_bind_apply] at hyields ⊢
        generalize (skipToSection depth "section recovery" (report fault u).2).2 = v at hskip hyields ⊢
        by_cases hstuck : v.position - s.position = 0
        · rw [if_pos hstuck] at hyields
          exact hyields.elim
        · rw [if_neg hstuck, pure_apply]
          exact hskip.left_lt_iff.2 (by omega)

theorem agree_sections (hR : R.closes) (depth : Nat) :
    Agree R (Below k) Never (sections depth) (sections (depth + R.deep)) := by
  apply Agree.bind (Agree.loop (agree_sectionRound hR depth) #[])
  intro found
  exact Agree.pure id

theorem agree_objectNameRound (hR : R.closes) (tokens : Array Token) :
    Agree R (Below k) Yields (objectNameRound tokens) (objectNameRound tokens) := by
  apply Agree.test
  · intro s s' hs _
    rw [R.atEnd_eq hs, Cursor.check, R.peek_eq hs, ← Cursor.check]
  · intro stops
    split
    · exact Agree.pure id
    · apply Agree.advance (k := k)
      · rintro s ⟨hs, rfl⟩
        rename_i hgo
        rw [Bool.or_eq_true, not_or] at hgo
        exact ⟨hs, mt Cursor.kind_peek_eq_eof.1 hgo.1, fun _ => hR⟩
      · intro t
        exact Agree.pure id

theorem agree_objectName (hR : R.closes) : Agree R (Below k) Never objectName objectName := by
  apply Agree.test (fun s s' hs _ => quotedBefore_eq (R.ahead_of_closes hR) hs _)
  intro quoted
  split
  · apply Agree.advance (k := k)
    · rintro s ⟨hs, rfl⟩
      exact ⟨hs, R.may_of_eq (kind_of_quotedBefore (by assumption)) ⟨nofun, nofun⟩⟩
    · intro t
      exact Agree.pure id
  · apply Agree.forget
    apply Agree.bind (Agree.loop (agree_objectNameRound hR) #[])
    intro tokens
    exact Agree.pure id

theorem agree_reportedName (hR : R.closes) : Agree R (Below k) Never reportedName reportedName := by
  apply Agree.bind (agree_objectName hR)
  intro name
  split
  · apply Agree.peek
    intro t
    apply Agree.forget
    apply Agree.bind (Agree.report _)
    intro _
    exact Agree.pure id
  · exact Agree.pure id

theorem agree_objectKind : RuleAgree R (Below k) Always objectKind objectKind := by
  apply RuleAgree.peek
  intro t
  cases hkind : t.kind.keyword? >>= ObjectKind.ofKeyword? with
  | none => exact RuleAgree.throw _
  | some kind =>
      apply RuleAgree.advance_token
      · exact may_of_operator (fun κ => κ.keyword? >>= ObjectKind.ofKeyword?) rfl rfl hkind
      · intro _
        exact RuleAgree.pure id

/-- `OBJECT kind id name {`. -/
def heading : Rule (ObjectKind × Int × String) := do
  let _ ← expect (.keyword .object)
  let kind ← objectKind
  let id ← integer
  let name ← reportedName
  let _ ← expect .leftBrace
  return (kind, id, name)

theorem objectBody_eq : objectBody = (do
    let (kind, id, name) ← heading
    let found ← sections (← depth)
    return ExportObject.ofSections kind id name found) := by
  simp [objectBody, heading]

theorem agree_heading (hR : R.closes) : RuleAgree R (Below k) Always heading heading := by
  refine RuleAgree.expect_then ⟨nofun, nofun⟩ fun _ => ?_
  apply RuleAgree.bind agree_objectKind.never
  intro kind
  apply RuleAgree.bind agree_integer.never
  intro id?
  apply RuleAgree.step (agree_reportedName hR)
  intro name
  refine RuleAgree.expect_then ⟨nofun, nofun⟩ fun _ => ?_
  exact RuleAgree.pure id

theorem agree_objectBody (hR : R.closes) : RuleAgree R (Below k) Always objectBody objectBody := by
  rw [objectBody_eq]
  apply RuleAgree.andThen (agree_heading hR)
  rintro ⟨kind, id?, name⟩
  apply RuleAgree.depth
  intro depth
  apply RuleAgree.forget
  apply RuleAgree.step (agree_sections hR depth)
  intro sections
  exact RuleAgree.pure id

theorem agree_closingBrace (hR : R.closes) : Agree R (Below k) Never closingBrace closingBrace := by
  refine Agree.accept_bind ⟨nofun, fun _ => hR⟩ fun found => ?_
  split
  · apply Agree.peek
    intro t
    exact Agree.report _
  · exact Agree.pure id

theorem agree_object (hR : R.closes) : RuleAgree R (Below k) Always object object := by
  apply RuleAgree.here
  intro start
  apply RuleAgree.andThen (agree_objectBody hR)
  intro value
  apply RuleAgree.step (agree_closingBrace hR)
  intro _
  apply RuleAgree.spanFrom
  intro span
  exact RuleAgree.pure id

end CalExport.Rule
