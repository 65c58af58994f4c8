import CalExport.Proofs.Layout.Declaration
import CalExport.Proofs.TrailingInput

namespace CalExport.Rule

open Text

variable {α : Type} {F : Fence} {m : Nat}

section

variable (ho : F.Open)

include ho

theorem lays_skipWhile (continues : Parser → Bool) : Lays F m (skipWhile continues) fun _ k => m ≤ k := by
  apply Lays.skipWhile
  intro s hs hend _
  apply F.lets_of_open ho
  rw [← hs.peek, Ne, Cursor.kind_peek_eq_eof, hend]
  nofun

theorem lays_advanceBy (n : Nat) : Lays F m (advanceBy n) fun _ _ => True := by
  induction n generalizing m with
  | zero => exact Lays.pure fun _ => trivial
  | succ n ih =>
      apply Lays.bind (Lays.pass ho)
      intro token k _ _
      exact ih.bind fun _ _ _ _ => Lays.pure fun _ => trivial

theorem lays_raw (stops : Kind → Bool) : Lays F m (raw stops) fun _ _ => True := by
  apply Lays.bind (R := fun _ _ => True)
  · apply Lays.loop (I := fun _ _ => True) fun _ => trivial
    rintro ⟨taken, depth⟩ k _ _
    apply Lays.peekKind
    split
    · exact Lays.pure fun _ => trivial
    · rename_i hgo
      apply Lays.advance (F.lets_of_open ho fun h => hgo (.inl h))
      exact fun _ => Lays.pure fun _ => trivial
  · exact fun _ _ _ _ => Lays.pure fun _ => trivial

theorem lays_column : Lays F m column fun _ _ => True :=
  (lays_raw ho endsColumn).bind fun _ _ _ _ => Lays.pure fun _ => trivial

theorem lays_nameList : Lays F m nameList fun _ _ => True :=
  (lays_raw ho endsColumn).bind fun _ _ _ _ => Lays.pure fun _ => trivial

theorem lays_fieldName : Lays F m fieldName fun _ _ => True := by
  have hcolumn : Lays F m nameColumn fun _ _ => True := by
    apply Lays.look
    intro quoted
    split
    · exact (Lays.pass ho).bind fun _ _ _ _ => Lays.pure fun _ => trivial
    · exact lays_column ho
  apply Lays.peek
  apply Lays.bind hcolumn
  intro name k _ _
  split
  · exact Lays.report (fun _ => .token F.toCursor m) (Lays.pure fun _ => trivial)
  · exact Lays.pure fun _ => trivial

theorem lays_skipToSection (depth : Nat) (reason : String) : Lays F m (skipToSection depth reason) fun _ _ => True := by
  apply Lays.here
  apply Lays.bind (lays_skipWhile ho _)
  intro _ k _ _
  apply Lays.look
  intro count
  split
  · exact Lays.note _ ((Lays.skipped m reason).mono fun _ _ _ _ _ => trivial)
  · exact Lays.pure fun _ => trivial

theorem lays_passSection (depth headingLength : Nat) :
    Lays F m (passSection depth headingLength) fun _ _ => True := by
  apply Lays.here
  apply Lays.bind (lays_advanceBy ho headingLength)
  intro heading k _ _
  apply Lays.bind (lays_skipToSection ho depth _)
  intro _ j _ _
  apply Lays.look
  intro count
  exact (Lays.noted _).mono fun _ _ _ _ _ => trivial

theorem lays_propertyName : RuleLays F m propertyName fun _ _ => True := by
  apply RuleLays.look
  intro length
  cases length with
  | none => exact RuleLays.peek (RuleLays.expected _)
  | some length =>
      exact RuleLays.step (lays_advanceBy ho length) fun _ _ _ _ => RuleLays.pure fun _ => trivial

theorem lays_propertyValue :
    RuleLays F m propertyValue fun value k => ∀ list ∈ value.outlineLists, Row F.toCursor m k list := by
  apply RuleLays.look
  intro starts
  split
  · apply RuleLays.bind lays_triggerBody
    rintro ⟨locals, body⟩ k _ hbody
    refine RuleLays.pure fun hc => ?_
    obtain ⟨-, hlocals, hstatements⟩ := hbody hc
    simpa [PropertyValue.outlineLists] using ⟨hlocals, hstatements⟩
  · exact RuleLays.step (lays_raw ho endsColumn) fun _ _ _ _ => RuleLays.pure fun _ => List.forall_mem_nil _

theorem builds_property : Builds F Property.outline property := by
  intro m
  apply RuleLays.here
  apply RuleLays.bind (lays_propertyName ho)
  intro name k₁ hk₁ _
  apply RuleLays.expect (F.passes rfl)
  intro _ _
  apply RuleLays.bind (lays_propertyValue ho)
  intro value k₂ hk₂ hvalue
  apply RuleLays.spanFrom
  intro hsize span hspan
  apply RuleLays.step (Lays.accepted (F.passes rfl))
  intro _ k₃ hk₃ _
  refine RuleLays.pure fun hc => ?_
  have hsolid : Solid F.toCursor m k₂ (Property.outline { name, value, span := span }) := by
    apply Solid.node (by omega) hsize (hspan hc)
    exact fun list hlist => (hvalue hc list hlist).mono (by omega) (Nat.le_refl k₂)
  exact hsolid.mono (Nat.le_refl m) hk₃

theorem lays_propertyRound {k : Nat} {found : Array Property} (hk : m ≤ k)
    (hfound : F.InOrder → Row F.toCursor m k (found.toList.map Property.outline)) :
    Lays F k (propertyRound found) fun r j => Row F.toCursor m j ((payload r).toList.map Property.outline) := by
  apply Lays.peekKind
  split
  · exact Lays.pure hfound
  · split
    · rename_i hkind
      apply Lays.advance (F.lets_of_kind (by rw [hkind]; rfl))
      exact fun _ => Lays.pure fun hc => (hfound hc).mono (Nat.le_refl m) (Nat.le_succ k)
    · apply Lays.bind (lays_withRecovery (builds_property ho k) (.inl ho) (Fence.recovers_of_open ho _))
      intro result j hj hresult
      cases result with
      | none => exact Lays.pure fun hc => (hfound hc).mono (Nat.le_refl m) hj
      | some p =>
          refine Lays.pure fun hc => ?_
          simpa [payload] using (hfound hc).append (hresult hc p rfl).row hk hj

theorem lays_propertyList :
    Lays F m propertyList fun found k => Row F.toCursor m k (found.map Property.outline) := by
  apply Lays.bind (R := fun found k => Row F.toCursor m k (found.toList.map Property.outline))
  · exact Lays.loop (fun _ => .nil) fun found k hk hfound => lays_propertyRound ho hk hfound
  · exact fun found k _ hfound => Lays.pure hfound

theorem builds_propertiesSection : BuildsRow F Property.outline propertiesSection := by
  intro m
  apply RuleLays.expect (F.passes rfl)
  intro _ _
  apply RuleLays.expect (F.passes rfl)
  intro _ _
  apply RuleLays.step (lays_propertyList ho)
  intro found k _ hfound
  apply RuleLays.expect (F.passes_brace ho)
  intro _ _
  exact RuleLays.pure fun hc => (hfound hc).mono (by omega) (Nat.le_succ k)

theorem lays_skipStray : Lays F m skipStray fun _ _ => True := by
  apply Lays.peek
  apply Lays.report fun _ => .expected F.toCursor _ m
  apply Lays.here
  apply Lays.bind (lays_skipWhile ho _)
  exact fun _ k _ _ => (Lays.skipped m _).mono fun _ _ _ _ _ => trivial

theorem lays_entryRound {item : Rule α} {outline : α → Outline} (hitem : Builds F outline item) {k : Nat}
    {found : Array α} (hk : m ≤ k) (hfound : F.InOrder → Row F.toCursor m k (found.toList.map outline)) :
    Lays F k (entryRound item found) fun r j => Row F.toCursor m j ((payload r).toList.map outline) := by
  apply Lays.peekKind
  split
  · exact Lays.pure hfound
  · split
    · apply Lays.bind (lays_withRecovery (hitem k) (.inl ho) (Fence.recovers_of_open ho _))
      intro result j hj hresult
      cases result with
      | none => exact Lays.pure fun hc => (hfound hc).mono (Nat.le_refl m) hj
      | some a =>
          refine Lays.pure fun hc => ?_
          simpa [payload] using (hfound hc).append (hresult hc a rfl).row hk hj
    · apply Lays.bind (lays_skipStray ho)
      exact fun _ j hj _ => Lays.pure fun hc => (hfound hc).mono (Nat.le_refl m) hj

theorem builds_bracedSection {item : Rule α} {outline : α → Outline} (keyword : Keyword)
    (hkeyword : fences (.keyword keyword) = false) (hitem : Builds F outline item) :
    BuildsRow F outline (bracedSection keyword item) := by
  intro m
  apply RuleLays.expect (F.passes hkeyword)
  intro _ _
  apply RuleLays.expect (F.passes rfl)
  intro _ _
  apply RuleLays.step (R := fun found k => Row F.toCursor (m + 2) k (found.map outline))
  · apply Lays.bind (R := fun found k => Row F.toCursor (m + 2) k (found.toList.map outline))
    · exact Lays.loop (fun _ => .nil) fun found k hk hfound => lays_entryRound ho hitem hk hfound
    · exact fun found k _ hfound => Lays.pure hfound
  · intro found k _ hfound
    apply RuleLays.expect (F.passes_brace ho)
    intro _ _
    exact RuleLays.pure fun hc => (hfound hc).mono (by omega) (Nat.le_succ k)

def Contents (F : Fence) (outline : α → Outline) (m : Nat) (value : Span → α) (k : Nat) : Prop :=
  ∃ lists, (∀ span, outline (value span) = .node span lists) ∧ ∀ list ∈ lists, Row F.toCursor m k list

theorem builds_braced {contents : Rule (Span → α)} {outline : α → Outline}
    (h : ∀ m, RuleLays F m contents (Contents F outline m)) : Builds F outline (braced contents) := by
  intro m
  apply RuleLays.here
  apply RuleLays.expect (F.passes rfl)
  intro _ _
  apply RuleLays.bind (h (m + 1))
  intro value k hk hvalue
  apply RuleLays.expect (F.passes_brace ho)
  intro _ _
  apply RuleLays.spanFrom
  intro hsize span hspan
  refine RuleLays.pure fun hc => ?_
  obtain ⟨lists, hnode, hlists⟩ := hvalue hc
  rw [hnode]
  apply Solid.node (by omega) hsize (hspan hc)
  exact fun list hlist => (hlists list hlist).mono (Nat.le_succ m) (Nat.le_succ k)

theorem lays_lastProperties :
    Lays F m lastProperties fun found k => Row F.toCursor m k (found.map Property.outline) := by
  apply Lays.accept (F.passes rfl)
  · exact fun _ _ => (lays_propertyList ho).mono fun _ k _ _ h => h.mono (Nat.le_succ m) (Nat.le_refl k)
  · exact Lays.pure fun _ => .nil

omit ho in
/-- Properties that are triggers keep their places when they are taken out. -/
theorem triggers_sublist (all : List Property) :
    ((all.filterMap Property.trigger?).map Trigger.outline).Sublist (all.map Property.outline) := by
  induction all with
  | nil => exact .slnil
  | cons p all ih =>
      obtain ⟨name, value, span⟩ := p
      cases value with
      | text s => exact ih.cons _
      | trigger locals body => exact ih.cons_cons _

theorem lays_fieldColumns (m : Nat) : RuleLays F m fieldColumns (Contents F Field.outline m) := by
  apply RuleLays.bind lays_integer
  intro number k₁ hk₁ _
  apply RuleLays.expect (F.passes rfl)
  intro _ _
  apply RuleLays.step (lays_column ho)
  intro fieldClass k₂ hk₂ _
  apply RuleLays.expect (F.passes rfl)
  intro _ _
  apply RuleLays.step (lays_fieldName ho)
  intro name k₃ hk₃ _
  apply RuleLays.expect (F.passes rfl)
  intro _ _
  apply RuleLays.bind (builds_dataType (k₃ + 1))
  intro type k₄ hk₄ htype
  apply RuleLays.step (lays_lastProperties ho)
  intro all k₅ hk₅ hall
  refine RuleLays.pure fun hc => ⟨[[type.outline], (all.filter fun p => !p.isTrigger).map Property.outline,
    (all.filterMap Property.trigger?).map Trigger.outline], fun _ => rfl, ?_⟩
  have htype' := (htype hc).row.mono (show m ≤ k₃ + 1 by omega) hk₅
  have hall' := (hall hc).mono (show m ≤ k₄ by omega) (Nat.le_refl k₅)
  have hproperties := hall'.sublist ((List.filter_sublist (p := fun p => !p.isTrigger) (l := all)).map Property.outline)
  have htriggers := hall'.sublist (triggers_sublist all)
  simp [htype', hproperties, htriggers]

theorem builds_field : Builds F Field.outline field := by
  intro m
  apply RuleLays.bind (builds_braced ho (lays_fieldColumns ho) m)
  intro f k _ hf
  apply RuleLays.step (Lays.noted _)
  intro _ j hj _
  exact RuleLays.pure fun hc => (hf hc).mono (Nat.le_refl m) hj

theorem lays_keyColumns (m : Nat) : RuleLays F m keyColumns (Contents F Key.outline m) := by
  apply RuleLays.step (lays_column ho)
  intro _ k₁ hk₁ _
  apply RuleLays.expect (F.passes rfl)
  intro _ _
  apply RuleLays.step (lays_nameList ho)
  intro fields k₂ hk₂ _
  apply RuleLays.step (lays_lastProperties ho)
  intro properties k₃ hk₃ hproperties
  refine RuleLays.pure fun hc => ⟨[properties.map Property.outline], fun _ => rfl, ?_⟩
  have hrow := (hproperties hc).mono (show m ≤ k₂ by omega) (Nat.le_refl k₃)
  simp [hrow]

theorem lays_fieldGroupColumns (m : Nat) : RuleLays F m fieldGroupColumns (Contents F FieldGroup.outline m) := by
  apply RuleLays.bind lays_integer
  intro id k₁ _ _
  apply RuleLays.expect (F.passes rfl)
  intro _ _
  apply RuleLays.step (lays_column ho)
  intro name k₂ _ _
  apply RuleLays.expect (F.passes rfl)
  intro _ _
  apply RuleLays.step (lays_nameList ho)
  intro fields k₃ _ _
  apply RuleLays.step (Lays.accepted (F.passes rfl))
  intro _ k₄ _ _
  exact RuleLays.pure fun _ => ⟨[], fun _ => rfl, List.forall_mem_nil _⟩

omit ho

/-- The sections of an object between two places: the entries of each sort in a row, and each CODE section by itself. -/
structure SectionRows (c : Cursor) (lo hi : Nat) (sections : List ObjectSection) : Prop where
  properties : Row c lo hi ((sections.flatMap ObjectSection.properties?).map Property.outline)
  fields : Row c lo hi ((sections.flatMap ObjectSection.fields?).map Field.outline)
  keys : Row c lo hi ((sections.flatMap ObjectSection.keys?).map Key.outline)
  fieldGroups : Row c lo hi ((sections.flatMap ObjectSection.fieldGroups?).map FieldGroup.outline)
  globals : Row c lo hi ((sections.flatMap ObjectSection.globals?).map Variable.outline)
  code : ∀ s ∈ sections.filterMap ObjectSection.code?, Solid c lo hi (s.outline 0)

namespace SectionRows

variable {c : Cursor} {lo mid hi lo' hi' : Nat} {found more : List ObjectSection}

theorem nil : SectionRows c lo hi [] := ⟨.nil, .nil, .nil, .nil, .nil, List.forall_mem_nil _⟩

theorem mono (h : SectionRows c lo hi found) (hlo : lo' ≤ lo) (hhi : hi ≤ hi') : SectionRows c lo' hi' found :=
  ⟨h.properties.mono hlo hhi, h.fields.mono hlo hhi, h.keys.mono hlo hhi, h.fieldGroups.mono hlo hhi,
    h.globals.mono hlo hhi, fun s hs => (h.code s hs).mono hlo hhi⟩

theorem append (h : SectionRows c lo mid found) (h' : SectionRows c mid hi more) (hlo : lo ≤ mid) (hhi : mid ≤ hi) :
    SectionRows c lo hi (found ++ more) where
  properties := by simpa using h.properties.append h'.properties hlo hhi
  fields := by simpa using h.fields.append h'.fields hlo hhi
  keys := by simpa using h.keys.append h'.keys hlo hhi
  fieldGroups := by simpa using h.fieldGroups.append h'.fieldGroups hlo hhi
  globals := by simpa using h.globals.append h'.globals hlo hhi
  code := by
    rw [List.filterMap_append]
    exact List.forall_mem_append.2 ⟨fun s hs => (h.code s hs).mono (Nat.le_refl lo) hhi,
      fun s hs => (h'.code s hs).mono hlo (Nat.le_refl hi)⟩

end SectionRows

include ho

theorem lays_sectionRule (depth : Nat) (head : SectionHead) (h : head = .globals → F.Lets m) :
    RuleLays F m (sectionRule depth head) fun found k => SectionRows F.toCursor m k [found] := by
  have hpassed : ∀ n, RuleLays F m (do
      passSection depth n
      return ObjectSection.passed) fun found k => SectionRows F.toCursor m k [found] := fun n =>
    RuleLays.step (lays_passSection ho depth n) fun _ _ _ _ => RuleLays.pure fun _ =>
      ⟨.nil, .nil, .nil, .nil, .nil, List.forall_mem_nil _⟩
  cases head with
  | objectProperties => exact hpassed 3
  | passed => exact hpassed 1
  | properties =>
      refine (builds_propertiesSection ho m).map fun entries k _ _ hrow => ?_
      exact ⟨by simpa [ObjectSection.properties?] using hrow, .nil, .nil, .nil, .nil, List.forall_mem_nil _⟩
  | fields =>
      refine (builds_bracedSection ho .fields rfl (builds_field ho) m).map fun entries k _ _ hrow => ?_
      exact ⟨.nil, by simpa [ObjectSection.fields?] using hrow, .nil, .nil, .nil, List.forall_mem_nil _⟩
  | keys =>
      refine (builds_bracedSection ho .keys rfl (builds_braced ho (lays_keyColumns ho)) m).map
        fun entries k _ _ hrow => ?_
      exact ⟨.nil, .nil, by simpa [ObjectSection.keys?] using hrow, .nil, .nil, List.forall_mem_nil _⟩
  | fieldGroups =>
      refine (builds_bracedSection ho .fieldGroups rfl (builds_braced ho (lays_fieldGroupColumns ho)) m).map
        fun entries k _ _ hrow => ?_
      exact ⟨.nil, .nil, .nil, by simpa [ObjectSection.fieldGroups?] using hrow, .nil, List.forall_mem_nil _⟩
  | code =>
      refine (builds_codeSection ho m).map fun section_ k _ _ hsolid => ?_
      exact ⟨.nil, .nil, .nil, .nil, .nil, List.forall_mem_singleton.2 hsolid⟩
  | globals =>
      apply RuleLays.advance (h rfl)
      intro _
      apply RuleLays.step lays_variableBlock
      intro declared k _ hrow
      refine RuleLays.pure fun hc => ?_
      have hrow' := (hrow hc).mono (Nat.le_succ m) (Nat.le_refl k)
      exact ⟨.nil, .nil, .nil, .nil, by simpa [ObjectSection.globals?] using hrow', List.forall_mem_nil _⟩

theorem lays_sectionRound (depth : Nat) {k : Nat} {found : Array ObjectSection} (hk : m ≤ k)
    (hfound : F.InOrder → SectionRows F.toCursor m k found.toList) :
    Lays F k (sectionRound depth found) fun r j => SectionRows F.toCursor m j (payload r).toList := by
  apply Lays.look_of (p := fun head => head = some .globals → F.Lets k)
  · rintro s hs rfl h
    exact F.lets_of_kind (by rw [← hs.peek, kind_of_globals h]; rfl)
  · intro head hhead
    cases head with
    | none => exact Lays.pure hfound
    | some head =>
        apply Lays.here
        apply Lays.attempt (lays_sectionRule ho depth head fun h => hhead (congrArg some h))
        · intro sec j hj hsec
          refine Lays.pure fun hc => ?_
          rw [payload, Array.toList_push]
          exact (hfound hc).append (hsec hc) hk hj
        · intro fault j hj hfault
          apply Lays.report hfault
          apply Lays.bind (lays_skipToSection ho depth _)
          intro _ i hi _
          apply Lays.look
          intro passed
          have hsame : F.InOrder → SectionRows F.toCursor m i found.toList :=
            fun hc => (hfound hc).mono (Nat.le_refl m) (by omega)
          split
          · exact Lays.pure hsame
          · exact Lays.pure hsame

theorem lays_sections (depth : Nat) : Lays F m (sections depth) fun found k => SectionRows F.toCursor m k found := by
  apply Lays.bind (R := fun found k => SectionRows F.toCursor m k found.toList)
  · exact Lays.loop (fun _ => .nil) fun found k hk hfound => lays_sectionRound ho depth hk hfound
  · exact fun found k _ hfound => Lays.pure hfound

end

end CalExport.Rule
