import CalExport.Proofs.Kinship.Declaration
import CalExport.Proofs.Simulation.Object
import CalExport.Analysis

namespace CalExport.Rule

open Text

variable {α β : Type} {K : Kinship}

theorem nameLength_near {s s' : Parser} (hs : K.Near s s') (n : Nat) : nameLength s' n = nameLength s n := by
  induction n with
  | zero => rfl
  | succ n ih => simp only [nameLength, ih, hs.cursor.kind_peekAhead]

theorem propertyNameLength_near {s s' : Parser} (hs : K.Near s s') :
    propertyNameLength? s' = propertyNameLength? s := by
  unfold propertyNameLength?
  simp only [nameLength_near hs, hs.cursor.kind_peekAhead]

theorem nameText_akin {ts ts' : List Token} (h : List.Forall₂ K.akin ts ts') :
    Under K.text (nameText ts) (nameText ts') := by
  cases h with
  | nil => rfl
  | cons ht hrest =>
      cases hrest with
      | nil => exact K.value_text ht
      | cons hu hmore => exact Kinship.join_text (.cons ht (.cons hu hmore))

theorem keeps_propertyName : RuleKeeps K (Under K.text) propertyName propertyName := by
  refine (Keeps.look fun s s' hs => (propertyNameLength_near hs).symm).step_eq fun length => ?_
  cases length with
  | none =>
      refine keeps_peek.step fun t t' ht => ?_
      exact RuleKeeps.throw (.expected _ ht)
  | some length =>
      refine (keeps_advanceBy length).step fun ts ts' hts => ?_
      exact RuleKeeps.pure (nameText_akin hts)

theorem triggerStarts_near {s s' : Parser} (hs : K.Near s s') : triggerStarts s' = triggerStarts s := by
  unfold triggerStarts
  simp only [hs.cursor.kind_peek, hs.cursor.kind_peekAhead, K.span_eq hs.cursor.peek,
    K.span_eq (hs.cursor.peekAhead 1)]

theorem keeps_propertyValue : RuleKeeps K (Under (PropertyValue.mapText K.text)) propertyValue propertyValue := by
  refine (keeps_test fun _ _ hs => triggerStarts_near hs).step_eq fun starts => ?_
  split
  · refine keeps_triggerBody.bind ?_
    rintro ⟨locals, body⟩ ⟨locals', body'⟩ ⟨hlocals, hbody⟩
    apply RuleKeeps.pure
    simp only [Under, PropertyValue.mapText, hlocals, hbody]
  · refine (keeps_raw endsColumn).step fun ts ts' hts => ?_
    exact RuleKeeps.pure (congrArg PropertyValue.text (Kinship.join_text hts))

theorem keeps_property : RuleKeeps K (Under (Property.mapText K.text)) property property := by
  refine keeps_here.step_eq fun start => ?_
  refine keeps_propertyName.bind fun name name' hname => ?_
  refine keeps_expect_then fun _ _ _ _ => ?_
  refine keeps_propertyValue.bind fun value value' hvalue => ?_
  refine (keeps_spanFrom start).step_eq fun span => ?_
  refine (keeps_accept .semicolon).step_eq fun _ => ?_
  apply RuleKeeps.pure
  simp only [Under, Property.mapText, hname, hvalue]

theorem keeps_propertyList : Keeps K (Under (List.map (Property.mapText K.text))) propertyList propertyList := by
  refine Keeps.bind (r := Under (Array.map (Property.mapText K.text)))
    (keeps_loop (fun found found' hfound => ?_) rfl) fun found found' hfound => ?_
  · refine keeps_peekKind.bind_eq fun κ => ?_
    split
    · exact Keeps.pure hfound
    · split
      · refine keeps_advance.bind fun _ _ _ => ?_
        exact Keeps.pure hfound
      · apply (keeps_withRecovery [.semicolon] keeps_property).recovered
        · intro p p' hp
          exact Keeps.pure (under_push hfound hp)
        · exact Keeps.pure hfound
  · exact Keeps.pure (under_toList hfound)

theorem keeps_propertiesSection :
    RuleKeeps K (Under (List.map (Property.mapText K.text))) propertiesSection propertiesSection := by
  refine keeps_expect_then fun _ _ _ _ => ?_
  refine keeps_expect_then fun _ _ _ _ => ?_
  refine keeps_propertyList.step fun properties properties' hproperties => ?_
  refine keeps_expect_then fun _ _ _ _ => ?_
  exact RuleKeeps.pure hproperties

theorem keeps_skipStray : Keeps K Eq skipStray skipStray := by
  refine keeps_peek.bind fun t t' ht => ?_
  refine (keeps_report (.expected _ ht)).bind_eq fun _ => ?_
  refine keeps_here.bind_eq fun start => ?_
  refine (keeps_skipWhile fun s s' hs => ?_).bind_eq fun _ => ?_
  · rw [hs.cursor.check, hs.cursor.check]
  · exact keeps_recordSkipped start _

theorem keeps_bracedSection (word : Keyword) {f : α → β} {item : Rule α} (h : RuleKeeps K (Under f) item item) :
    RuleKeeps K (Under (List.map f)) (bracedSection word item) (bracedSection word item) := by
  refine keeps_expect_then fun _ _ _ _ => ?_
  refine keeps_expect_then fun _ _ _ _ => ?_
  refine Keeps.step (r := Under (List.map f)) ?_ fun entries entries' hentries => ?_
  · refine Keeps.bind (r := Under (Array.map f)) (keeps_loop (fun found found' hfound => ?_) rfl)
      fun found found' hfound => ?_
    · refine keeps_peekKind.bind_eq fun κ => ?_
      split
      · exact Keeps.pure hfound
      · split
        · apply (keeps_withRecovery [.leftBrace] h).recovered
          · intro entry entry' hentry
            exact Keeps.pure (under_push hfound hentry)
          · exact Keeps.pure hfound
        · refine keeps_skipStray.bind_eq fun _ => ?_
          exact Keeps.pure hfound
    · exact Keeps.pure (under_toList hfound)
  · refine keeps_expect_then fun _ _ _ _ => ?_
    exact RuleKeeps.pure hentries

def SameColumn (K : Kinship) (a b : String) : Prop := Under K.text a b ∧ b.isEmpty = a.isEmpty

theorem sameColumn_of_akin {ts ts' : List Token} (h : List.Forall₂ K.akin ts ts') :
    SameColumn K (trimmed (joinTokens ts)) (trimmed (joinTokens ts')) :=
  ⟨K.text_trimmed (Kinship.join_text h), K.blank h⟩

theorem keeps_column : Keeps K (SameColumn K) column column := by
  refine (keeps_raw endsColumn).bind fun ts ts' hts => ?_
  exact Keeps.pure (sameColumn_of_akin hts)

/-- A quoted name is a word. -/
theorem keeps_quoted (κ : Kind) {x : Parse String} (hx : Keeps K (SameColumn K) x x) :
    Keeps K (SameColumn K)
      (test (quotedBefore κ) >>= fun quoted => if quoted = true then advance >>= fun t => pure t.value else x)
      (test (quotedBefore κ) >>= fun quoted => if quoted = true then advance >>= fun t => pure t.value else x) := by
  intro s s' hs
  have hquoted : quotedBefore κ s' = quotedBefore κ s := by
    unfold quotedBefore
    rw [hs.cursor.check, hs.cursor.checkNext]
  rw [test, look_bind_apply, look_bind_apply, hquoted]
  split
  · rename_i h
    have hkind : s.peek.kind = .quotedIdentifier := by
      unfold quotedBefore at h
      rw [Bool.and_eq_true, Cursor.check_iff] at h
      exact h.1
    have hword := K.value_word hs.cursor.peek (by rw [hkind]; rintro ⟨⟩)
    exact ⟨⟨K.text_of_word hword, K.word_isEmpty hword⟩, (keeps_advance s s' hs).2⟩
  · exact hx s s' hs

theorem keeps_fieldName : Keeps K (Under K.text) fieldName fieldName := by
  refine keeps_peek.bind fun t t' ht => ?_
  refine (keeps_quoted .semicolon keeps_column).bind fun name name' hname => ?_
  rw [hname.2, K.span_eq ht]
  split
  · refine (keeps_report (.refl _)).bind_eq fun _ => ?_
    exact Keeps.pure rfl
  · exact Keeps.pure hname.1

theorem keeps_lastProperties : Keeps K (Under (List.map (Property.mapText K.text))) lastProperties lastProperties := by
  refine (keeps_accept .semicolon).bind_eq fun found => ?_
  split
  · exact keeps_propertyList
  · exact Keeps.pure rfl

/-- The entries made of columns that are akin, wherever they stand. -/
theorem keeps_braced {f : α → β} {contents : Rule (Span → α)}
    (h : RuleKeeps K (fun a b => ∀ span, Under f (a span) (b span)) contents contents) :
    RuleKeeps K (Under f) (braced contents) (braced contents) := by
  refine keeps_here.step_eq fun start => ?_
  refine keeps_expect_then fun _ _ _ _ => ?_
  refine h.bind fun value value' hvalue => ?_
  refine keeps_expect_then fun _ _ _ _ => ?_
  refine (keeps_spanFrom start).step_eq fun span => ?_
  exact RuleKeeps.pure (hvalue span)

theorem filter_mapText (f : String → String) (all : List Property) :
    (all.filter fun p => !p.isTrigger).map (Property.mapText f) =
      (all.map (Property.mapText f)).filter fun p => !p.isTrigger := by
  rw [List.filter_map]
  simp only [Function.comp_def, Property.isTrigger_mapText]

theorem filterMap_mapText (f : String → String) (all : List Property) :
    (all.filterMap Property.trigger?).map (Trigger.mapText f) =
      (all.map (Property.mapText f)).filterMap Property.trigger? := by
  rw [List.filterMap_map, List.map_filterMap]
  simp only [Function.comp_def, Property.trigger_mapText]

theorem keeps_fieldColumns :
    RuleKeeps K (fun a b => ∀ span, Under (Field.mapText K.text) (a span) (b span)) fieldColumns fieldColumns := by
  refine keeps_integer.bind_eq fun number => ?_
  refine keeps_expect_then fun _ _ _ _ => ?_
  refine keeps_column.step fun fieldClass fieldClass' hclass => ?_
  refine keeps_expect_then fun _ _ _ _ => ?_
  refine keeps_fieldName.step fun name name' hname => ?_
  refine keeps_expect_then fun _ _ _ _ => ?_
  refine keeps_dataType.bind fun type type' htype => ?_
  refine keeps_lastProperties.step fun all all' hall => ?_
  apply RuleKeeps.pure
  intro span
  simp only [Under, Field.mapText, hclass.1, hname, htype, filter_mapText, filterMap_mapText, hall]

theorem keeps_field : RuleKeeps K (Under (Field.mapText K.text)) field field := by
  refine (keeps_braced keeps_fieldColumns).bind fun field field' hfield => ?_
  have hnumber : (field.mapText K.text).number = (field'.mapText K.text).number := by rw [hfield]
  have htriggers : (field.mapText K.text).triggers.length = (field'.mapText K.text).triggers.length := by rw [hfield]
  simp only [Field.mapText, List.length_map] at hnumber htriggers
  rw [hnumber, htriggers]
  refine (keeps_note rfl).step_eq fun _ => ?_
  exact RuleKeeps.pure hfield

theorem splitCommas_akin {part part' ts ts' : List Token} (hpart : List.Forall₂ K.akin part part') (depth : Nat)
    (h : List.Forall₂ K.akin ts ts') :
    List.Forall₂ (List.Forall₂ K.akin) (splitCommas part depth ts) (splitCommas part' depth ts') := by
  induction h generalizing part part' depth with
  | nil => exact .cons (List.rel_reverse hpart) .nil
  | cons ht _ ih =>
      unfold splitCommas
      rw [K.kind_eq ht]
      split
      case h_5 =>
        split
        · exact .cons (List.rel_reverse hpart) (ih .nil 0)
        · exact ih (.cons ht hpart) depth
      all_goals exact ih (.cons ht hpart) _

theorem splitNames_akin {ts ts' : List Token} (h : List.Forall₂ K.akin ts ts') :
    Under (List.map K.text) (splitNames ts) (splitNames ts') := by
  unfold splitNames
  have hparts := splitCommas_akin .nil 0 h
  generalize splitCommas [] 0 ts = parts at hparts
  generalize splitCommas [] 0 ts' = parts' at hparts
  induction hparts with
  | nil => rfl
  | cons hpart _ ih =>
      have hcolumn := sameColumn_of_akin hpart
      simp only [List.map_cons, List.filter_cons, hcolumn.2]
      split
      · rw [Under, List.map_cons, List.map_cons, hcolumn.1, ih]
      · exact ih

theorem keeps_nameList : Keeps K (Under (List.map K.text)) nameList nameList := by
  refine (keeps_raw endsColumn).bind fun ts ts' hts => ?_
  exact Keeps.pure (splitNames_akin hts)

theorem keeps_key : RuleKeeps K (Under (Key.mapText K.text)) key key := by
  apply keeps_braced
  refine keeps_column.step fun _ _ _ => ?_
  refine keeps_expect_then fun _ _ _ _ => ?_
  refine keeps_nameList.step fun fields fields' hfields => ?_
  refine keeps_lastProperties.step fun properties properties' hproperties => ?_
  apply RuleKeeps.pure
  intro span
  simp only [Under, Key.mapText, hfields, hproperties]

theorem keeps_fieldGroup : RuleKeeps K (Under (FieldGroup.mapText K.text)) fieldGroup fieldGroup := by
  apply keeps_braced
  refine keeps_integer.bind_eq fun id => ?_
  refine keeps_expect_then fun _ _ _ _ => ?_
  refine keeps_column.step fun name name' hname => ?_
  refine keeps_expect_then fun _ _ _ _ => ?_
  refine keeps_nameList.step fun fields fields' hfields => ?_
  refine (keeps_accept .semicolon).step_eq fun _ => ?_
  apply RuleKeeps.pure
  intro span
  simp only [Under, FieldGroup.mapText, hname.1, hfields]

/-- The heading of a section holds no strings, so it is told in full. -/
theorem meet_heading (n : Nat) {s s' : Parser} (hs : K.Near s s') (h : ∀ i < n, (s.peekAhead i).kind ≠ .string) :
    Meet K (List.Forall₂ fun t t' => K.akin t t' ∧ t.kind ≠ .string) (liftM (advanceBy n)) (liftM (advanceBy n))
      s s' := by
  induction n generalizing s s' with
  | zero => exact ⟨.nil, hs⟩
  | succ n ih =>
      have hnear := (keeps_advance s s' hs).2
      have hrest : ∀ i < n, ((advance s).2.peekAhead i).kind ≠ .string := by
        intro i hi
        cases hend : s.atEnd with
        | true =>
            have hsame : s.toCursor.next = s.toCursor := by simp only [Cursor.next, hend, dite_true]
            show (s.toCursor.next.peekAhead i).kind ≠ _
            rw [hsame]
            exact h i (Nat.lt_succ_of_lt hi)
        | false =>
            have hnext : s.toCursor.next.peekAhead i = s.peekAhead (i + 1) := by
              simp only [Cursor.peekAhead, Cursor.tokenAt, Cursor.tokens_next, Cursor.eof_next,
                Cursor.position_next hend, Nat.add_assoc, Nat.add_comm 1]
            show (s.toCursor.next.peekAhead i).kind ≠ _
            rw [hnext]
            exact h (i + 1) (Nat.succ_lt_succ hi)
      obtain ⟨htokens, hlast⟩ := ih hnear hrest
      exact ⟨.cons ⟨hs.cursor.peek, h 0 (Nat.succ_pos n)⟩ htokens, hlast⟩

theorem meet_passSection (depth n : Nat) {s s' : Parser} (hs : K.Near s s')
    (h : ∀ i < n, (s.peekAhead i).kind ≠ .string) :
    Meet K Eq (liftM (passSection depth n)) (liftM (passSection depth n)) s s' := by
  refine Meet.lift_bind (Meet.here hs fun start => ?_)
  refine Meet.lift_bind (Meet.step (meet_heading n hs h) fun heading heading' hheading => ?_)
  have hjoin : Under K.word (joinTokens heading) (joinTokens heading') :=
    joinTokens_under K.word_append (hheading.imp fun t t' ht => ⟨K.span_eq ht.1, K.text_word ht.1 ht.2⟩)
  apply RuleKeeps.lift
  refine (keeps_skipToSection depth _).bind_eq fun _ => ?_
  refine (keeps_passedSince start).bind_eq fun passed => ?_
  apply keeps_note
  simp only [Under, Event.mapText_set, hjoin]

theorem sectionHead_near {s s' : Parser} (hs : K.Near s s') : sectionHead? s' = sectionHead? s := by
  unfold sectionHead? objectPropertiesStart
  simp only [hs.cursor.kind_peek, hs.cursor.kind_peekAhead, hs.cursor.checkNext]

theorem meet_sectionRule (depth : Nat) {head : SectionHead} {s s' : Parser} (hs : K.Near s s')
    (hhead : sectionHead? s = some head) :
    Meet K (Under (ObjectSection.mapText K.text)) (sectionRule depth head) (sectionRule depth head) s s' := by
  obtain ⟨word, hword⟩ := kind_of_sectionHead hhead
  have hfirst : (s.peekAhead 0).kind ≠ .string := by
    show s.peek.kind ≠ _
    rw [hword]
    rintro ⟨⟩
  cases head with
  | objectProperties =>
      obtain ⟨hminus, hproperties⟩ := kinds_of_objectProperties hhead
      refine Meet.step (meet_passSection depth 3 hs ?_) fun _ _ _ => RuleKeeps.pure rfl
      intro i hi
      obtain rfl | rfl | rfl : i = 0 ∨ i = 1 ∨ i = 2 := by omega
      · exact hfirst
      · rw [hminus]
        rintro ⟨⟩
      · rw [hproperties]
        rintro ⟨⟩
  | properties =>
      exact Meet.of_keeps (keeps_propertiesSection.map fun _ _ h => congrArg ObjectSection.properties h) hs
  | fields =>
      exact Meet.of_keeps ((keeps_bracedSection _ keeps_field).map fun _ _ h => congrArg ObjectSection.fields h) hs
  | keys => exact Meet.of_keeps ((keeps_bracedSection _ keeps_key).map fun _ _ h => congrArg ObjectSection.keys h) hs
  | fieldGroups =>
      exact Meet.of_keeps ((keeps_bracedSection _ keeps_fieldGroup).map
        fun _ _ h => congrArg ObjectSection.fieldGroups h) hs
  | code => exact Meet.of_keeps (keeps_codeSection.map fun _ _ h => congrArg ObjectSection.code h) hs
  | globals =>
      refine Meet.advance hs fun _ _ _ _ => ?_
      refine keeps_variableBlock.step fun declared declared' hdeclared => ?_
      exact RuleKeeps.pure (congrArg ObjectSection.globals hdeclared)
  | passed =>
      refine Meet.step (meet_passSection depth 1 hs ?_) fun _ _ _ => RuleKeeps.pure rfl
      intro i hi
      obtain rfl : i = 0 := by omega
      exact hfirst

theorem keeps_sectionRound (depth : Nat) {found found' : Array ObjectSection}
    (hfound : Under (Array.map (ObjectSection.mapText K.text)) found found') :
    Keeps K (Kinship.Round (Under (Array.map (ObjectSection.mapText K.text)))) (sectionRound depth found)
      (sectionRound depth found') := by
  apply Keeps.of_meet
  intro s s' hs
  refine Meet.lift_bind (Meet.look (sectionHead_near hs) ?_)
  cases hhead : sectionHead? s with
  | none => exact ⟨hfound, hs⟩
  | some head =>
      refine Meet.lift_bind (Meet.here hs fun start => ?_)
      apply Meet.recover (meet_sectionRule depth hs hhead)
      · intro sec sec' hsec
        exact Keeps.pure (under_push hfound hsec)
      · intro e e' he
        refine (keeps_report he).bind_eq fun _ => ?_
        refine (keeps_skipToSection depth _).bind_eq fun _ => ?_
        refine (keeps_passedSince start).bind_eq fun passed => ?_
        split
        · exact Keeps.pure hfound
        · exact Keeps.pure hfound

theorem keeps_sections (depth : Nat) :
    Keeps K (Under (List.map (ObjectSection.mapText K.text))) (sections depth) (sections depth) := by
  refine Keeps.bind (keeps_loop (fun _ _ h => keeps_sectionRound depth h) rfl) fun found found' hfound => ?_
  exact Keeps.pure (under_toList hfound)

theorem keeps_objectName : Keeps K (SameColumn K) objectName objectName := by
  apply keeps_quoted .leftBrace
  refine Keeps.bind (r := fun ts ts' : Array Token => List.Forall₂ K.akin ts.toList ts'.toList)
    (keeps_loop (fun ts ts' hts => ?_) .nil) fun ts ts' hts => ?_
  · refine (keeps_test fun s s' hs => ?_).bind_eq fun ended => ?_
    · rw [hs.cursor.atEnd, hs.cursor.check]
    · split
      · exact Keeps.pure hts
      · refine keeps_advance.bind fun t t' ht => ?_
        exact Keeps.pure (akin_push hts ht)
  · exact Keeps.pure (sameColumn_of_akin hts)

theorem keeps_reportedName : Keeps K (Under K.text) reportedName reportedName := by
  refine keeps_objectName.bind fun name name' hname => ?_
  rw [hname.2]
  split
  · refine keeps_peek.bind fun t t' ht => ?_
    rw [K.span_eq ht]
    refine (keeps_report (.refl _)).bind_eq fun _ => ?_
    exact Keeps.pure hname.1
  · exact Keeps.pure hname.1

theorem keeps_objectKind : RuleKeeps K Eq objectKind objectKind := by
  refine keeps_peek.step fun t t' ht => ?_
  rw [K.kind_eq ht]
  split
  · exact RuleKeeps.throw (.expected _ ht)
  · refine keeps_advance.step fun _ _ _ => ?_
    exact RuleKeeps.pure rfl

theorem keeps_objectBody :
    RuleKeeps K (fun a b => ∀ span, Under (ExportObject.mapText K.text) (a span) (b span)) objectBody objectBody := by
  refine keeps_expect_then fun _ _ _ _ => ?_
  refine keeps_objectKind.bind_eq fun kind => ?_
  refine keeps_integer.bind_eq fun id => ?_
  refine keeps_reportedName.step fun name name' hname => ?_
  refine keeps_expect_then fun _ _ _ _ => ?_
  refine keeps_depth.step_eq fun depth => ?_
  refine (keeps_sections depth).step fun secs secs' hsecs => ?_
  apply RuleKeeps.pure
  intro span
  rw [Under, ExportObject.mapText_ofSections, ExportObject.mapText_ofSections, hname, hsecs]

theorem keeps_closingBrace : Keeps K Eq closingBrace closingBrace := by
  refine (keeps_accept .rightBrace).bind_eq fun found => ?_
  split
  · refine keeps_peek.bind fun t t' ht => ?_
    exact keeps_report (.expected _ ht)
  · exact Keeps.pure rfl

theorem keeps_object : RuleKeeps K (Under (ExportObject.mapText K.text)) object object := by
  refine keeps_here.step_eq fun start => ?_
  refine keeps_objectBody.bind fun value value' hvalue => ?_
  refine keeps_closingBrace.step_eq fun _ => ?_
  refine (keeps_spanFrom start).step_eq fun span => ?_
  exact RuleKeeps.pure (hvalue span)

theorem keeps_skipTrailing : Keeps K Eq skipTrailing skipTrailing := by
  refine keeps_atEnd.bind_eq fun ended => ?_
  split
  · refine keeps_peek.bind fun t t' ht => ?_
    refine (keeps_report (.expected _ ht)).bind_eq fun _ => ?_
    refine keeps_here.bind_eq fun start => ?_
    refine (keeps_skipWhile fun _ _ _ => rfl).bind_eq fun _ => ?_
    exact keeps_recordSkipped start _
  · exact Keeps.pure rfl

theorem keeps_reportedObject :
    Keeps K (Under (Option.map (ExportObject.mapText K.text))) reportedObject reportedObject := by
  apply keeps_object.recover
  · intro o o' ho
    exact Keeps.pure (congrArg some ho)
  · intro e e' he
    refine (keeps_report he).bind_eq fun _ => ?_
    exact Keeps.pure rfl

theorem keeps_document : Keeps K (Under (Document.mapText K.text)) document document := by
  refine keeps_here.bind_eq fun start => ?_
  refine keeps_atEnd.bind_eq fun ended => ?_
  split
  · refine (keeps_spanFrom start).bind_eq fun span => ?_
    exact Keeps.pure rfl
  · refine keeps_reportedObject.bind fun o o' ho => ?_
    refine keeps_skipTrailing.bind_eq fun _ => ?_
    refine (keeps_spanFrom start).bind_eq fun span => ?_
    apply Keeps.pure
    simp only [Under, Document.mapText, ho]

theorem keeps_get : Keeps K K.Near get get := fun _ _ hs => ⟨hs, hs⟩

/-- Runs over akin tokens make the same of them, but for texts. -/
theorem keeps_wholeDocument : Keeps K (Under (Document.mapText K.text)) wholeDocument wholeDocument := by
  refine keeps_get.bind fun s s' hs => ?_
  rw [hs.cursor.size]
  refine (keeps_note rfl).bind_eq fun _ => ?_
  refine keeps_document.bind fun d d' hd => ?_
  refine keeps_get.bind fun t t' ht => ?_
  have hobject : (d.mapText K.text).object.isSome = (d'.mapText K.text).object.isSome := by rw [hd]
  simp only [Document.mapText, Option.isSome_map] at hobject
  rw [hobject, size_eq ht.diagnostics, size_eq ht.skipped]
  refine (keeps_note rfl).bind_eq fun _ => ?_
  exact Keeps.pure hd

end CalExport.Rule
