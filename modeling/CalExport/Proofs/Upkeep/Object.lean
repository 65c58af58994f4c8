import CalExport.Proofs.Upkeep.Declaration
import CalExport.Proofs.Termination

namespace CalExport.Rule

open Text

variable {α : Type} {U : Upkeep} {G : Growth U} {n : Nat}

open Growth

theorem serves_propertyName : RuleServes U n propertyName Always := by
  apply RuleServes.look
  intro length?
  split
  · apply RuleServes.look
    intro t
    exact RuleServes.throw _
  · apply RuleServes.andThen (.moves (.advanceBy _))
    intro tokens
    exact RuleServes.pure trivial

theorem serves_propertyValue (G : Growth U) (n : Nat) :
    RuleServes U n propertyValue fun v => G.Suits n v.nodes := by
  apply RuleServes.look
  intro starts
  split
  · apply (serves_triggerBody G n).bind
    intro t ht
    exact RuleServes.pure ht
  · apply RuleServes.andThen (.moves (moves_raw _))
    intro tokens
    exact RuleServes.pure (G.suits_nil n)

theorem serves_property (G : Growth U) (n : Nat) : RuleServes U n property fun p => G.Suits n p.nodes := by
  apply RuleServes.look
  intro start
  apply serves_propertyName.bind
  intro name _
  apply RuleServes.expect
  intro _
  apply (serves_propertyValue G n).bind
  intro value hvalue
  apply RuleServes.look
  intro span
  apply RuleServes.accept
  intro _
  exact RuleServes.pure hvalue

theorem suits_collected {nodes : α → List SyntaxNode} {found : Array α} (hfound : ∀ a ∈ found, G.Suits n (nodes a)) :
    G.Suits n (found.toList.flatMap nodes) :=
  suits_flatMap.2 fun a ha => hfound a (Array.mem_toList_iff.1 ha)

theorem serves_propertyList (G : Growth U) (n : Nat) :
    Serves U n propertyList fun ps => G.Suits n (ps.flatMap Property.nodes) := by
  apply Serves.bind (R := fun (found : Array Property) => ∀ p ∈ found, G.Suits n p.nodes)
  · apply Serves.loop (by simp)
    intro found hfound
    apply Serves.look
    intro κ
    split
    · exact Serves.pure hfound
    · split
      · exact Serves.advance.bind fun _ _ => Serves.pure hfound
      · apply (serves_withRecovery [.semicolon] (serves_property G n)).bind
        intro p? hp
        cases p? with
        | none => exact Serves.pure hfound
        | some p => exact Serves.pure (forall_mem_push hfound (hp p rfl))
  · exact fun found hfound => Serves.pure (suits_collected hfound)

theorem serves_propertiesSection (G : Growth U) (n : Nat) :
    RuleServes U n propertiesSection fun ps => G.Suits n (ps.flatMap Property.nodes) := by
  apply RuleServes.expect
  intro _
  apply RuleServes.expect
  intro _
  apply RuleServes.step (serves_propertyList G n)
  intro properties hproperties
  apply RuleServes.expect
  intro _
  exact RuleServes.pure hproperties

theorem serves_skipStray : Serves U n skipStray Always := by
  apply Serves.look
  intro t
  apply Serves.report_then
  apply Serves.skip "stray tokens between entries"
  intro s
  refine ⟨_, Moves.skipWhile (fun s => !s.check .leftBrace && !s.check .rightBrace) s, .inr ?_⟩
  simp only [here, look_apply, bind_apply]

theorem serves_bracedSection (keyword : Keyword) {item : Rule α} {nodes : α → List SyntaxNode}
    (hitem : RuleServes U n item fun a => G.Suits n (nodes a)) :
    RuleServes U n (bracedSection keyword item) fun as => G.Suits n (as.flatMap nodes) := by
  have hentries : Serves U n (bracedEntries item) fun as => G.Suits n (as.flatMap nodes) := by
    apply Serves.bind (R := fun (found : Array α) => ∀ a ∈ found, G.Suits n (nodes a))
    · apply Serves.loop (by simp)
      intro found hfound
      apply Serves.look
      intro κ
      split
      · exact Serves.pure hfound
      · split
        · apply (serves_withRecovery [.leftBrace] hitem).bind
          intro a? ha
          cases a? with
          | none => exact Serves.pure hfound
          | some a => exact Serves.pure (forall_mem_push hfound (ha a rfl))
        · exact serves_skipStray.bind fun _ _ => Serves.pure hfound
    · exact fun found hfound => Serves.pure (suits_collected hfound)
  apply RuleServes.expect
  intro _
  apply RuleServes.expect
  intro _
  apply RuleServes.step hentries
  intro entries hentries
  apply RuleServes.expect
  intro _
  exact RuleServes.pure hentries

theorem moves_column : Moves column := (moves_raw _).bind fun _ => Moves.pure _

theorem moves_nameList : Moves nameList := (moves_raw _).bind fun _ => Moves.pure _

theorem serves_fieldName : Serves U n fieldName Always := by
  have hcolumn : Moves nameColumn := by
    apply Moves.look
    intro quoted
    split
    · exact Moves.advance.bind fun _ => Moves.pure _
    · exact moves_column
  apply Serves.look
  intro first
  apply (Serves.moves hcolumn).bind
  intro name _
  split
  · exact (Serves.report _).bind fun _ _ => Serves.pure trivial
  · exact Serves.pure trivial

theorem serves_braced {contents : Rule (Span → α)} {Q : α → Prop}
    (h : RuleServes U n contents fun f => ∀ span, Q (f span)) : RuleServes U n (braced contents) Q := by
  apply RuleServes.look
  intro start
  apply RuleServes.expect
  intro _
  apply h.bind
  intro value hvalue
  apply RuleServes.expect
  intro _
  apply RuleServes.look
  intro span
  exact RuleServes.pure (hvalue span)

theorem serves_lastProperties (G : Growth U) (n : Nat) :
    Serves U n lastProperties fun ps => G.Suits n (ps.flatMap Property.nodes) := by
  apply (Serves.accept _).bind
  intro found _
  split
  · exact serves_propertyList G n
  · exact Serves.pure (G.suits_nil n)

theorem serves_field (G : Growth U) (n : Nat) : RuleServes U n field fun f => G.Suits n f.nodes := by
  have hcolumns : RuleServes U n fieldColumns fun f => ∀ span, G.Suits n (f span).nodes := by
    apply serves_integer.bind
    intro number _
    apply RuleServes.expect
    intro _
    apply RuleServes.andThen (.moves moves_column)
    intro fieldClass
    apply RuleServes.expect
    intro _
    apply RuleServes.andThen serves_fieldName
    intro name
    apply RuleServes.expect
    intro _
    apply (serves_dataType G n).bind
    intro t ht
    apply RuleServes.step (serves_lastProperties G n)
    intro all hall
    apply RuleServes.pure
    rw [suits_flatMap] at hall
    have hproperties : G.Suits n ((all.filter fun p => !p.isTrigger).flatMap Property.nodes) :=
      suits_flatMap.2 fun p hp => hall p (List.mem_filter.1 hp).1
    have htriggers : G.Suits n ((all.filterMap Property.trigger?).flatMap Trigger.nodes) := by
      apply suits_flatMap.2
      intro t ht
      obtain ⟨p, hp, htrigger⟩ := List.mem_filterMap.1 ht
      rw [Property.nodes_of_trigger htrigger]
      exact hall p hp
    intro span
    exact List.forall_mem_cons.2 ⟨ht, suits_append.2 ⟨hproperties, htriggers⟩⟩
  apply (serves_braced (Q := fun (f : Field) => G.Suits n f.nodes) hcolumns).bind
  intro f hf
  apply RuleServes.andThen (Serves.note _)
  intro _
  exact RuleServes.pure hf

theorem serves_key (G : Growth U) (n : Nat) : RuleServes U n key fun k => G.Suits n k.nodes := by
  apply serves_braced
  apply RuleServes.andThen (.moves moves_column)
  intro enabled
  apply RuleServes.expect
  intro _
  apply RuleServes.andThen (.moves moves_nameList)
  intro fields
  apply RuleServes.step (serves_lastProperties G n)
  intro properties hproperties
  exact RuleServes.pure fun span => hproperties

theorem serves_fieldGroup : RuleServes U n fieldGroup Always := by
  apply serves_braced
  apply serves_integer.bind
  intro id _
  apply RuleServes.expect
  intro _
  apply RuleServes.andThen (.moves moves_column)
  intro name
  apply RuleServes.expect
  intro _
  apply RuleServes.andThen (.moves moves_nameList)
  intro fields
  apply RuleServes.accept
  intro _
  exact RuleServes.pure fun span => trivial

theorem serves_passSection (depth headingLength : Nat) : Serves U n (passSection depth headingLength) Always := by
  apply Serves.look
  intro start
  apply (Serves.moves (.advanceBy headingLength)).bind
  intro heading _
  apply (serves_passToSection depth).bind
  intro _ _
  apply Serves.look
  intro passed
  exact Serves.note _

theorem serves_sectionRule (G : Growth U) (n depth : Nat) (head : SectionHead) :
    RuleServes U n (sectionRule depth head) fun sec => G.Suits n sec.nodes := by
  cases head with
  | objectProperties => exact RuleServes.andThen (serves_passSection depth 3) fun _ => RuleServes.pure (G.suits_nil n)
  | properties => exact (serves_propertiesSection G n).map fun _ h => h
  | fields => exact (serves_bracedSection _ (serves_field G n)).map fun _ h => h
  | keys => exact (serves_bracedSection _ (serves_key G n)).map fun _ h => h
  | fieldGroups =>
      have hgroup : RuleServes U n fieldGroup fun _ => G.Suits n [] := serves_fieldGroup.mono fun _ _ => G.suits_nil n
      exact (serves_bracedSection .fieldGroups hgroup).map fun _ _ => G.suits_nil n
  | code => exact (serves_codeSection G n).map fun _ h => h
  | globals =>
      apply RuleServes.advance
      intro _
      apply RuleServes.step (serves_variableBlock G n)
      intro declared hdeclared
      exact RuleServes.pure hdeclared
  | passed => exact RuleServes.andThen (serves_passSection depth 1) fun _ => RuleServes.pure (G.suits_nil n)

theorem serves_sections (G : Growth U) (n depth : Nat) :
    Serves U n (sections depth) fun ss => G.Suits n (ss.flatMap ObjectSection.nodes) := by
  apply Serves.bind (R := fun (found : Array ObjectSection) => ∀ s ∈ found, G.Suits n s.nodes)
  · apply Serves.loop (by simp)
    intro found hfound
    apply Serves.look
    intro head?
    split
    · exact Serves.pure hfound
    · rename_i head
      apply Serves.look
      intro start
      apply Serves.attempt (serves_sectionRule G n depth head)
      · intro sec hsec
        exact Serves.pure (forall_mem_push hfound hsec)
      · intro fault
        apply Serves.report_then
        apply (serves_skipToSection depth "section recovery").bind
        intro _ _
        apply Serves.look
        intro passed
        split
        · exact Serves.pure hfound
        · exact Serves.pure hfound
  · exact fun found hfound => Serves.pure (suits_collected hfound)

theorem moves_objectName : Moves objectName := by
  apply Moves.look
  intro quoted
  split
  · exact Moves.advance.bind fun _ => Moves.pure _
  · apply Moves.bind
    · apply Moves.loop
      intro tokens
      apply Moves.look
      intro stops
      split
      · exact Moves.pure _
      · exact Moves.advance.bind fun _ => Moves.pure _
    · exact fun tokens => Moves.pure _

theorem serves_reportedName : Serves U n reportedName Always := by
  apply (Serves.moves moves_objectName).bind
  intro name _
  split
  · apply Serves.look
    intro t
    exact (Serves.report _).bind fun _ _ => Serves.pure trivial
  · exact Serves.pure trivial

theorem serves_objectKind : RuleServes U n objectKind Always := by
  apply RuleServes.look
  intro t
  split
  · exact RuleServes.throw _
  · apply RuleServes.advance
    intro _
    exact RuleServes.pure trivial

theorem serves_closingBrace : Serves U n closingBrace Always := by
  apply (Serves.accept _).bind
  intro found _
  split
  · apply Serves.look
    intro t
    exact Serves.report _
  · exact Serves.pure trivial

theorem serves_object (G : Growth U) (n : Nat) : RuleServes U n object fun o => G.Suits n o.nodes := by
  have hbody : RuleServes U n objectBody fun f => ∀ span, G.Suits n (f span).nodes := by
    apply RuleServes.expect
    intro _
    apply serves_objectKind.bind
    intro kind _
    apply serves_integer.bind
    intro id _
    apply RuleServes.andThen serves_reportedName
    intro name
    apply RuleServes.expect
    intro _
    apply RuleServes.look
    intro depth
    apply RuleServes.step (serves_sections G n depth)
    intro sections hsections
    exact RuleServes.pure fun span m hm => hsections m (ExportObject.mem_nodes_ofSections hm)
  apply RuleServes.look
  intro start
  apply hbody.bind
  intro value hvalue
  apply RuleServes.andThen serves_closingBrace
  intro _
  apply RuleServes.look
  intro span
  exact RuleServes.pure (hvalue span)

theorem serves_skipTrailing : Serves U n skipTrailing Always := by
  apply Serves.look
  intro atEnd
  split
  · apply Serves.look
    intro t
    apply Serves.report_then
    apply Serves.skip "trailing input"
    intro s
    refine ⟨_, Moves.skipWhile (fun _ => true) s, .inr ?_⟩
    simp only [here, look_apply, bind_apply]
  · exact Serves.pure trivial

theorem serves_document (G : Growth U) (n : Nat) : Serves U n document fun d => G.Suits n d.nodes := by
  apply Serves.look
  intro start
  apply Serves.look
  intro atEnd
  split
  · apply Serves.look
    intro span
    exact Serves.pure (G.suits_nil n)
  · apply Serves.bind (R := fun (o? : Option ExportObject) => ∀ o ∈ o?, G.Suits n o.nodes)
    · apply Serves.attempt (serves_object G n)
      · intro o ho
        exact Serves.pure (by simpa using ho)
      · intro fault
        exact (Serves.report _).bind fun _ _ => Serves.pure (by simp)
    · intro o? ho
      apply serves_skipTrailing.bind
      intro _ _
      apply Serves.look
      intro span
      exact Serves.pure (suits_flatMap.2 fun o h => ho o (Option.mem_toList.1 h))

/-- A whole document is read with all levels free. -/
theorem upkeep_wholeDocument (G : Growth U) {s : Parser} (hs : U.holds s) (hnesting : s.nesting = 0) :
    U.holds (wholeDocument s).2 ∧ G.Suits maxNesting (wholeDocument s).1.nodes := by
  obtain ⟨first, last, hrun⟩ := wholeDocument_apply s
  have hlevels : (note first s).2.freeLevels = maxNesting := by
    show maxNesting - s.nesting = maxNesting
    rw [hnesting, Nat.sub_zero]
  obtain ⟨hholds, -, hnodes⟩ := serves_document G maxNesting (note first s).2 (U.note first hs) hlevels
  rw [hrun]
  exact ⟨U.note last hholds, hnodes⟩

end CalExport.Rule
