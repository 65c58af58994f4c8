import CalExport.Proofs.Declaration.Balance
import CalExport.Proofs.CleanRun
import CalExport.Proofs.RawText

namespace CalExport

open Text

theorem Property.span_of_trigger {p : Property} {t : Trigger} (h : p.trigger? = some t) :
    t.span = p.span ∧ p.isTrigger = true := by
  unfold trigger? at h
  unfold isTrigger
  split at h
  · cases h
    exact ⟨rfl, rfl⟩
  · cases h

def CodeItem.declaration? : CodeItem → Option Span
  | .globals _ => none
  | .procedure p => some p.span
  | .trigger t => some t.span
  | .event e => some e.span

def CodeSection.declarations (s : CodeSection) : List Span :=
  s.procedures.map Procedure.span ++ s.triggers.map Trigger.span ++ s.events.map EventHandler.span

theorem CodeSection.mem_declarations {items : List CodeItem} {span place : Span}
    (h : place ∈ (CodeSection.ofItems items span).declarations) : ∃ item ∈ items, item.declaration? = some place := by
  have hplace : (∃ p ∈ items.filterMap CodeItem.procedure?, p.span = place) ∨
      (∃ t ∈ items.filterMap CodeItem.trigger?, t.span = place) ∨
      ∃ e ∈ items.filterMap CodeItem.event?, e.span = place := by
    simpa [declarations, ofItems, or_assoc] using h
  rcases hplace with ⟨p, hp, rfl⟩ | ⟨t, ht, rfl⟩ | ⟨e, he, rfl⟩
  · obtain ⟨item, hitem, hp⟩ := List.mem_filterMap.1 hp
    cases item with
    | procedure q =>
        cases hp
        exact ⟨_, hitem, rfl⟩
    | _ => cases hp
  · obtain ⟨item, hitem, ht⟩ := List.mem_filterMap.1 ht
    cases item with
    | trigger q =>
        cases ht
        exact ⟨_, hitem, rfl⟩
    | _ => cases ht
  · obtain ⟨item, hitem, he⟩ := List.mem_filterMap.1 he
    cases item with
    | event q =>
        cases he
        exact ⟨_, hitem, rfl⟩
    | _ => cases he

/-- The declarations of an object's code are those of one of its CODE sections. -/
theorem ObjectSection.declarations_joinCode {sections : List ObjectSection} {s : CodeSection} {place : Span}
    (hs : s ∈ ObjectSection.joinCode sections) (h : place ∈ s.declarations) :
    ∃ last, ObjectSection.code last ∈ sections ∧ place ∈ last.declarations := by
  have hlast : ∀ last ∈ (sections.filterMap ObjectSection.code?).getLast?, ObjectSection.code last ∈ sections := by
    intro last hlast
    obtain ⟨sec, hsec, hcode⟩ := List.mem_filterMap.1 (List.mem_of_getLast? hlast)
    cases sec <;> cases hcode
    exact hsec
  unfold joinCode at hs
  cases hglobals : sections.flatMap ObjectSection.globals? with
  | nil =>
      rw [hglobals] at hs
      exact ⟨s, hlast s hs, h⟩
  | cons v rest =>
      rw [hglobals] at hs
      cases hs
      cases hgetLast : (sections.filterMap ObjectSection.code?).getLast? with
      | none =>
          rw [hgetLast] at h
          cases h
      | some last =>
          rw [hgetLast] at h
          exact ⟨last, hlast last hgetLast, h⟩

def ExportObject.triggerPlaces (o : ExportObject) : List Span :=
  ((o.properties ++ o.keys.flatMap Key.properties).filter Property.isTrigger).map Property.span ++
    (o.fields.flatMap Field.triggers).map Trigger.span

def Document.declarations (d : Document) : List Span :=
  d.object.toList.flatMap fun o => o.code.toList.flatMap CodeSection.declarations

def Document.triggerPlaces (d : Document) : List Span := d.object.toList.flatMap ExportObject.triggerPlaces

namespace Rule

variable {α : Type} {c : Cursor}

def ClosesBetween (c : Cursor) (lo hi : Nat) : Prop :=
  CalExport.Closes 0 ((c.tokens.toList.drop lo).take (hi - lo))

/-- A rule that closes what it opens has passed tokens that do. -/
theorem closesBetween_of_settles {x : Rule α} (hx : Settles 0 x) (hmembers : clearMembers c.tokens.toList = true)
    {s t : Parser} {a : α} (hs : Fresh c s) (hrun : x s = (.ok a, t)) (hclean : t.diagnostics.size = 0) :
    ClosesBetween c s.position t.position ∧ t.position ≤ c.tokens.size := by
  have hforward : Forward s (x s).2 := hx.steady s
  rw [hrun] at hforward
  have hstart : s.diagnostics.size = 0 := Nat.le_zero.1 (Nat.le_trans hforward.diagnostics (Nat.le_of_eq hclean))
  have hahead : ahead s = c.tokens.toList.drop s.position := by rw [ahead, hs.tokens]
  have hclear : clearMembers (ahead s) = true := by
    rw [← List.take_append_drop s.position c.tokens.toList] at hmembers
    rw [hahead]
    exact clearMembers_right hmembers
  have hcovers := hx.clean hclear (hs.capped_eq hstart)
  rw [hrun] at hcovers
  obtain ⟨run, rest, hpassed, hcloses⟩ := hcovers (hclean.trans hstart.symm)
  have hposition : t.position = s.position + run.length := by
    obtain rfl : t = skip run.length s := hpassed.skip_eq
    exact position_skip hpassed.ahead_eq
  refine ⟨?_, ?_⟩
  · rw [ClosesBetween, ← hahead, hposition, Nat.add_sub_cancel_left, hpassed.ahead_eq, List.take_left]
    exact hcloses a rfl
  · rw [← hs.tokens, ← hforward.tokens]
    exact t.position_le

def Declared (c : Cursor) (span : Span) : Prop :=
  ∃ lo hi i j, ClosesBetween c lo hi ∧ hi ≤ c.tokens.size ∧ lo ≤ i ∧ i ≤ j ∧ j < hi ∧ span = c.over i j

def Triggered (c : Cursor) (span : Span) : Prop :=
  ∃ k hi i j, ClosesBetween c (k + 1) hi ∧ hi ≤ c.tokens.size ∧ i ≤ j ∧ j < hi ∧ span = c.over i j ∧
    ∀ m, i ≤ m → m < k → (c.tokenAt m).kind ≠ .equal

/-- A value that is a trigger, with the semicolon behind it. -/
theorem closed_of_propertyRest {start : Nat} {name : String} {p : Property} {s t : Parser}
    (h : triggerStarts s = true) (hrun : propertyRest start name s = (.ok p, t)) : ∃ body,
      (triggerBody >>= fun body => liftM (accept .semicolon) >>= fun _ => pure body :
        Rule (List Variable × List Statement)) s = (.ok body, t) := by
  rcases hbody : triggerBody s with ⟨fault | body, u⟩
  · have hvalue : propertyValue s = (.error fault, u) := by
      rw [propertyValue_of_trigger h]
      exact attempt_bind_of_error hbody _
    have hrest : propertyRest start name s = (.error fault, u) := attempt_bind_of_error hvalue _
    rw [hrest] at hrun
    cases hrun
  · have hvalue : propertyValue s = (.ok (.trigger body.1 body.2), u) := by
      rw [propertyValue_of_trigger h]
      exact attempt_bind_of_ok hbody _
    have hrest : propertyRest start name s =
        (.ok ⟨name, .trigger body.1 body.2, u.spanFrom start⟩, (accept .semicolon u).2) := attempt_bind_of_ok hvalue _
    rw [hrest] at hrun
    obtain ⟨-, rfl⟩ := Prod.mk.inj hrun
    exact ⟨body, attempt_bind_of_ok hbody _⟩

def Placed (c : Cursor) : ObjectSection → Prop
  | .properties entries => ∀ p ∈ entries, p.isTrigger = true → Triggered c p.span
  | .fields entries => ∀ f ∈ entries, ∀ t ∈ f.triggers, Triggered c t.span
  | .keys entries => ∀ k ∈ entries, ∀ p ∈ k.properties, p.isTrigger = true → Triggered c p.span
  | .code s => ∀ place ∈ s.declarations, Declared c place
  | _ => True

structure ObjectPlaced (c : Cursor) (o : ExportObject) : Prop where
  declared : ∀ s ∈ o.code, ∀ place ∈ s.declarations, Declared c place
  triggered : ∀ place ∈ o.triggerPlaces, Triggered c place

theorem objectPlaced_ofSections {sections : List ObjectSection} (h : ∀ sec ∈ sections, Placed c sec)
    (kind : ObjectKind) (id : Int) (name : String) (span : Span) :
    ObjectPlaced c (.ofSections kind id name sections span) := by
  constructor
  case declared =>
    intro s hs place hplace
    obtain ⟨last, hlast, hplace⟩ := ObjectSection.declarations_joinCode hs hplace
    exact h _ hlast place hplace
  case triggered =>
    intro place hplace
    rcases List.mem_append.1 hplace with hplace | hplace
    · obtain ⟨p, hp, rfl⟩ := List.mem_map.1 hplace
      obtain ⟨hp, htrigger⟩ := List.mem_filter.1 hp
      rcases List.mem_append.1 hp with hp | hp
      · obtain ⟨sec, hsec, hp⟩ := List.mem_flatMap.1 hp
        cases sec with
        | properties entries => exact h _ hsec p hp htrigger
        | _ => cases hp
      · obtain ⟨k, hk, hp⟩ := List.mem_flatMap.1 hp
        obtain ⟨sec, hsec, hk⟩ := List.mem_flatMap.1 hk
        cases sec with
        | keys entries => exact h _ hsec k hk p hp htrigger
        | _ => cases hk
    · obtain ⟨t, ht, rfl⟩ := List.mem_map.1 hplace
      obtain ⟨f, hf, ht⟩ := List.mem_flatMap.1 ht
      obtain ⟨sec, hsec, hf⟩ := List.mem_flatMap.1 hf
      cases sec with
      | fields entries => exact h _ hsec f hf t ht
      | _ => cases hf

section

variable (hc : c.InOrder) (hmembers : clearMembers c.tokens.toList = true)

include hc hmembers

theorem cleanly_declared {x : Rule α} {outline : α → Outline} (hx : Settles 0 x)
    (hserves : ∀ U n, RuleServes U n x Always)
    (hlays : ∀ (F : Fence) m, F.Open → RuleLays F m x fun a k => Solid F.toCursor m k (outline a)) :
    RuleCleanly c x fun a => Declared c (outline a).span := by
  intro s hs
  refine ⟨((RuleCleanly.of_serves hserves) s hs).1, fun hclean => ?_⟩
  rcases hrun : x s with ⟨fault | a, t⟩
  · have hresult : attempt x s = (.error fault, t) := hrun
    rw [hresult]
    trivial
  · have hresult : attempt x s = (.ok a, t) := hrun
    rw [hresult] at hclean ⊢
    obtain ⟨hbalanced, hsize⟩ := closesBetween_of_settles hx hmembers hs hrun hclean
    obtain ⟨-, -, hsolid⟩ := hlays { Fence.whole c with earlier := s.diagnostics } s.position
      (Fence.open_whole c) s hs.within rfl
    rw [hresult] at hsolid
    obtain ⟨i, j, hi, hij, hj, -, hspan, -⟩ := hsolid hc
    exact ⟨s.position, t.position, i, j, hbalanced, hsize, hi, hij, hj, hspan⟩

theorem cleanly_property :
    RuleCleanly c property fun p => p.isTrigger = true → Triggered c p.span := by
  intro s hs
  have hserves : ∀ U n, RuleServes U n property Always := fun U n =>
    (serves_property (.bends U) n).mono fun _ _ => trivial
  refine ⟨((RuleCleanly.of_serves hserves) s hs).1, fun hclean => ?_⟩
  rcases hrun : property s with ⟨fault | p, t⟩
  · have hresult : attempt property s = (.error fault, t) := hrun
    rw [hresult]
    trivial
  have hresult : attempt property s = (.ok p, t) := hrun
  rw [hresult] at hclean ⊢
  intro htrigger
  obtain ⟨-, -, hsolid⟩ := builds_property (F := { Fence.whole c with earlier := s.diagnostics }) (Fence.open_whole c)
    s.position s hs.within rfl
  rw [hresult] at hsolid
  obtain ⟨i, j, hi, hij, hj, hsize, hspan, -⟩ := hsolid hc
  rcases property_cases s with ⟨fault, hfault⟩ | ⟨name, equal, rest, hsplit, hequal, hname, hrest⟩
  · rw [hfault] at hrun
    cases hrun
  rw [hrest] at hrun
  have hequalAt : ∀ m, s.position ≤ m → m < s.position + name.length → (c.tokenAt m).kind ≠ .equal := by
    intro m hm hlt heq
    obtain ⟨n, rfl⟩ := Nat.exists_eq_add_of_le hm
    have hat := tokenAt_of_ahead hsplit (Nat.lt_of_add_lt_add_left hlt)
    have hsame : s.tokenAt (n + s.position) = c.tokenAt (s.position + n) := by
      rw [Nat.add_comm]
      exact hs.within.tokenAt _
    have hends := hname _ (List.getElem_mem (Nat.lt_of_add_lt_add_left hlt))
    rw [← hat, hsame, heq] at hends
    cases hends
  cases hstarts : triggerStarts (skip (name.length + 1) s) with
  | false =>
      rw [propertyRest_of_text _ _ hstarts] at hrun
      cases hrun
      cases htrigger
  | true =>
      obtain ⟨body, hbody⟩ := closed_of_propertyRest hstarts hrun
      have hsettles : Settles 0 (triggerBody >>= fun body => liftM (accept .semicolon) >>= fun _ => pure body) :=
        settles_triggerBody.bind fun body => Settles.accept (by rintro ⟨⟩) rfl fun _ => Settles.pure body
      obtain ⟨hbalanced, hend⟩ := closesBetween_of_settles hsettles hmembers (hs.skip _) hbody hclean
      have hstart : (skip (name.length + 1) s).position = s.position + name.length + 1 := by
        have hfront : ahead s = (name ++ [equal]) ++ rest := by simpa using hsplit
        simpa [Nat.add_assoc] using position_skip hfront
      rw [hstart] at hbalanced
      exact ⟨s.position + name.length, t.position, i, j, hbalanced, hend, hij, hj, hspan,
        fun m him => hequalAt m (Nat.le_trans hi him)⟩

theorem cleanly_propertyList :
    Cleanly c propertyList fun ps => ∀ p ∈ ps, p.isTrigger = true → Triggered c p.span := by
  apply Cleanly.bind (p := fun (found : Array Property) => ∀ p ∈ found, p.isTrigger = true → Triggered c p.span)
  · apply Cleanly.loop (by simp)
    intro found
    apply Cleanly.look
    intro κ
    split
    · exact Cleanly.pure id
    · split
      · exact Cleanly.andThen (fun _ _ => Serves.advance) fun _ => Cleanly.pure id
      · apply Cleanly.bind (Cleanly.withRecovery [.semicolon] (cleanly_property hc hmembers))
        intro p?
        cases p? with
        | none => exact Cleanly.pure fun _ => id
        | some p => exact Cleanly.pure fun hp hfound => forall_mem_push hfound (hp p rfl)
  · exact fun found => Cleanly.pure fun hfound p hp => hfound p (Array.mem_toList_iff.1 hp)

theorem cleanly_propertiesSection :
    RuleCleanly c propertiesSection fun ps => ∀ p ∈ ps, p.isTrigger = true → Triggered c p.span := by
  apply RuleCleanly.expect
  intro _
  apply RuleCleanly.expect
  intro _
  apply RuleCleanly.step (cleanly_propertyList hc hmembers)
  intro ps
  apply RuleCleanly.expect
  intro _
  exact RuleCleanly.pure id

omit hc hmembers in
theorem cleanly_bracedSection (keyword : Keyword) {item : Rule α} {p : α → Prop} (hitem : RuleCleanly c item p) :
    RuleCleanly c (bracedSection keyword item) fun as => ∀ a ∈ as, p a := by
  have hentries : Cleanly c (bracedEntries item) fun as => ∀ a ∈ as, p a := by
    apply Cleanly.bind (p := fun (found : Array α) => ∀ a ∈ found, p a)
    · apply Cleanly.loop (by simp)
      intro found
      apply Cleanly.look
      intro κ
      split
      · exact Cleanly.pure id
      · split
        · apply Cleanly.bind (Cleanly.withRecovery [.leftBrace] hitem)
          intro a?
          cases a? with
          | none => exact Cleanly.pure fun _ => id
          | some a => exact Cleanly.pure fun ha hfound => forall_mem_push hfound (ha a rfl)
        · exact Cleanly.andThen (fun _ _ => serves_skipStray) fun _ => Cleanly.pure id
    · exact fun found => Cleanly.pure fun hfound a ha => hfound a (Array.mem_toList_iff.1 ha)
  apply RuleCleanly.expect
  intro _
  apply RuleCleanly.expect
  intro _
  apply RuleCleanly.step hentries
  intro entries
  apply RuleCleanly.expect
  intro _
  exact RuleCleanly.pure id

omit hc hmembers in
theorem cleanly_braced {contents : Rule (Span → α)} {p : α → Prop}
    (h : RuleCleanly c contents fun value => ∀ span, p (value span)) : RuleCleanly c (braced contents) p := by
  apply RuleCleanly.look
  intro start
  apply RuleCleanly.expect
  intro _
  apply RuleCleanly.bind h
  intro value
  apply RuleCleanly.expect
  intro _
  apply RuleCleanly.look
  intro span
  exact RuleCleanly.pure fun hvalue => hvalue span

theorem cleanly_lastProperties :
    Cleanly c lastProperties fun ps => ∀ p ∈ ps, p.isTrigger = true → Triggered c p.span := by
  apply Cleanly.andThen fun _ _ => Serves.accept _
  intro found
  split
  · exact cleanly_propertyList hc hmembers
  · exact Cleanly.pure (List.forall_mem_nil _)

theorem cleanly_field : RuleCleanly c field fun f => ∀ t ∈ f.triggers, Triggered c t.span := by
  have hcolumns : RuleCleanly c fieldColumns fun f => ∀ span, ∀ t ∈ (f span).triggers, Triggered c t.span := by
    apply RuleCleanly.passing fun _ _ => serves_integer
    intro number
    apply RuleCleanly.expect
    intro _
    apply RuleCleanly.andThen fun _ _ => .moves moves_column
    intro fieldClass
    apply RuleCleanly.expect
    intro _
    apply RuleCleanly.andThen fun _ _ => serves_fieldName
    intro name
    apply RuleCleanly.expect
    intro _
    apply RuleCleanly.passing fun U n => (serves_dataType (.bends U) n).mono fun _ _ => trivial
    intro type
    apply RuleCleanly.step (cleanly_lastProperties hc hmembers)
    intro all
    refine RuleCleanly.pure fun hall span t ht => ?_
    obtain ⟨p, hp, htrigger⟩ := List.mem_filterMap.1 ht
    obtain ⟨hspan, htrigger⟩ := Property.span_of_trigger htrigger
    rw [hspan]
    exact hall p hp htrigger
  apply RuleCleanly.bind (cleanly_braced (p := fun (f : Field) => ∀ t ∈ f.triggers, Triggered c t.span) hcolumns)
  intro f
  apply RuleCleanly.andThen fun _ _ => Serves.note _
  intro _
  exact RuleCleanly.pure id

theorem cleanly_key :
    RuleCleanly c key fun k => ∀ p ∈ k.properties, p.isTrigger = true → Triggered c p.span := by
  apply cleanly_braced
  apply RuleCleanly.andThen fun _ _ => .moves moves_column
  intro enabled
  apply RuleCleanly.expect
  intro _
  apply RuleCleanly.andThen fun _ _ => .moves moves_nameList
  intro fields
  apply RuleCleanly.step (cleanly_lastProperties hc hmembers)
  intro properties
  exact RuleCleanly.pure fun hproperties span => hproperties

theorem cleanly_declaration :
    RuleCleanly c declaration fun item => ∀ place ∈ item.declaration?, Declared c place := by
  have hprocedure : RuleCleanly c (CodeItem.procedure <$> procedure)
      fun item => ∀ place ∈ item.declaration?, Declared c place := by
    apply RuleCleanly.bind (cleanly_declared hc hmembers settles_procedure
      (fun U n => (serves_procedure (.bends U) n).mono fun _ _ => trivial)
      fun F m ho => lays_procedure (Fence.letsKeyword_of_open ho))
    exact fun p => RuleCleanly.pure fun hp place hplace => Option.some.inj hplace ▸ hp
  have htrigger : RuleCleanly c (CodeItem.trigger <$> trigger)
      fun item => ∀ place ∈ item.declaration?, Declared c place := by
    apply RuleCleanly.bind (cleanly_declared hc hmembers settles_trigger
      (fun U n => (serves_trigger (.bends U) n).mono fun _ _ => trivial) fun F m _ => builds_trigger m)
    exact fun t => RuleCleanly.pure fun ht place hplace => Option.some.inj hplace ▸ ht
  have hevent : RuleCleanly c (CodeItem.event <$> event)
      fun item => ∀ place ∈ item.declaration?, Declared c place := by
    apply RuleCleanly.bind (cleanly_declared hc hmembers settles_event
      (fun U n => (serves_event (.bends U) n).mono fun _ _ => trivial) fun F m _ => builds_event m)
    exact fun e => RuleCleanly.pure fun he place hplace => Option.some.inj hplace ▸ he
  apply RuleCleanly.look
  intro token
  split
  · exact htrigger
  · exact hevent
  · split
    · exact hprocedure
    · exact RuleCleanly.throw _
  · apply RuleCleanly.look
    intro follows
    split
    · exact hprocedure
    · exact RuleCleanly.throw _

theorem cleanly_codeItems (depth : Nat) :
    Cleanly c (codeItems depth) fun items => ∀ item ∈ items, ∀ place ∈ item.declaration?, Declared c place := by
  apply Cleanly.bind (p := fun (found : Array CodeItem) =>
    ∀ item ∈ found, ∀ place ∈ item.declaration?, Declared c place)
  · apply Cleanly.loop (by simp)
    intro found
    apply Cleanly.look
    intro head
    cases head with
    | stop => exact Cleanly.pure id
    | globals =>
        apply Cleanly.andThen fun _ _ => Serves.advance
        intro _
        apply Cleanly.andThen fun U n => (serves_variableBlock (.bends U) n).mono fun _ _ => trivial
        intro declared
        exact Cleanly.pure fun hfound => forall_mem_push hfound (by rintro place ⟨⟩)
    | attributes => exact Cleanly.andThen (fun _ _ => .moves moves_skipAttributes) fun _ => Cleanly.pure id
    | documentation => exact Cleanly.andThen (fun _ _ => .moves (.advanceBy 3)) fun _ => Cleanly.pure id
    | declaration =>
        apply Cleanly.look
        intro start
        apply Cleanly.attempt (cleanly_declaration hc hmembers)
        · exact fun item => Cleanly.pure fun hitem hfound => forall_mem_push hfound hitem
        · intro fault
          apply Cleanly.report fault
            (f := fun _ => resumeDeclaration start depth >>= fun _ => pure (ForInStep.yield found))
          exact fun U n => (serves_resumeDeclaration start depth).bind fun _ _ => Serves.pure trivial
  · exact fun found => Cleanly.pure fun hfound item hitem => hfound item (Array.mem_toList_iff.1 hitem)

theorem cleanly_codeSection : RuleCleanly c codeSection fun s => ∀ place ∈ s.declarations, Declared c place := by
  apply RuleCleanly.look
  intro start
  apply RuleCleanly.expect
  intro _
  apply RuleCleanly.expect
  intro _
  apply RuleCleanly.look
  intro depth
  apply RuleCleanly.step (cleanly_codeItems hc hmembers depth)
  intro items
  apply RuleCleanly.expect
  intro _
  apply RuleCleanly.look
  intro span
  refine RuleCleanly.pure fun hitems place hplace => ?_
  obtain ⟨item, hitem, hdeclared⟩ := CodeSection.mem_declarations hplace
  exact hitems item hitem place hdeclared

theorem cleanly_sectionRule (depth : Nat) (head : SectionHead) : RuleCleanly c (sectionRule depth head) (Placed c) := by
  cases head with
  | objectProperties =>
      exact RuleCleanly.andThen (fun _ _ => serves_passSection depth 3) fun _ => RuleCleanly.pure trivial
  | passed => exact RuleCleanly.andThen (fun _ _ => serves_passSection depth 1) fun _ => RuleCleanly.pure trivial
  | properties =>
      exact RuleCleanly.bind (cleanly_propertiesSection hc hmembers) fun _ => RuleCleanly.pure id
  | fields =>
      exact RuleCleanly.bind (cleanly_bracedSection .fields (cleanly_field hc hmembers)) fun _ => RuleCleanly.pure id
  | keys =>
      exact RuleCleanly.bind (cleanly_bracedSection .keys (cleanly_key hc hmembers)) fun _ => RuleCleanly.pure id
  | fieldGroups =>
      exact RuleCleanly.bind (cleanly_bracedSection .fieldGroups (.of_serves fun _ _ => serves_fieldGroup))
        fun _ => RuleCleanly.pure fun _ => trivial
  | code => exact RuleCleanly.bind (cleanly_codeSection hc hmembers) fun _ => RuleCleanly.pure id
  | globals =>
      apply RuleCleanly.andThen fun _ _ => Serves.advance
      intro _
      apply RuleCleanly.andThen fun U n => (serves_variableBlock (.bends U) n).mono fun _ _ => trivial
      intro declared
      exact RuleCleanly.pure trivial

theorem cleanly_sections (depth : Nat) : Cleanly c (sections depth) fun found => ∀ sec ∈ found, Placed c sec := by
  apply Cleanly.bind (p := fun (found : Array ObjectSection) => ∀ sec ∈ found, Placed c sec)
  · apply Cleanly.loop (by simp)
    intro found
    apply Cleanly.look
    intro head?
    cases head? with
    | none => exact Cleanly.pure id
    | some head =>
        apply Cleanly.look
        intro start
        apply Cleanly.attempt (cleanly_sectionRule hc hmembers depth head)
        · exact fun sec => Cleanly.pure fun hsec hfound => forall_mem_push hfound hsec
        · intro fault
          apply Cleanly.report
          intro U n
          apply (serves_skipToSection depth "section recovery").bind
          intro _ _
          apply Serves.look
          intro passed
          split
          · exact Serves.pure trivial
          · exact Serves.pure trivial
  · exact fun found => Cleanly.pure fun hfound sec hsec => hfound sec (Array.mem_toList_iff.1 hsec)

theorem cleanly_object : RuleCleanly c object (ObjectPlaced c) := by
  have hbody : RuleCleanly c objectBody fun value => ∀ span, ObjectPlaced c (value span) := by
    apply RuleCleanly.expect
    intro _
    apply RuleCleanly.passing fun _ _ => serves_objectKind
    intro kind
    apply RuleCleanly.passing fun _ _ => serves_integer
    intro id
    apply RuleCleanly.andThen fun _ _ => serves_reportedName
    intro name
    apply RuleCleanly.expect
    intro _
    apply RuleCleanly.look
    intro depth
    apply RuleCleanly.step (cleanly_sections hc hmembers depth)
    intro sections
    exact RuleCleanly.pure fun h span => objectPlaced_ofSections h kind id name span
  apply RuleCleanly.look
  intro start
  apply RuleCleanly.bind hbody
  intro value
  apply RuleCleanly.andThen fun _ _ => serves_closingBrace
  intro _
  apply RuleCleanly.look
  intro span
  exact RuleCleanly.pure fun h => h span

theorem cleanly_document : Cleanly c document fun d => ∀ o ∈ d.object, ObjectPlaced c o := by
  apply Cleanly.look
  intro start
  apply Cleanly.look
  intro atEnd
  split
  · apply Cleanly.look
    intro span
    exact Cleanly.pure (by rintro o ⟨⟩)
  · apply Cleanly.bind (p := fun (o? : Option ExportObject) => ∀ o ∈ o?, ObjectPlaced c o)
    · apply Cleanly.attempt (cleanly_object hc hmembers)
      · exact fun o => Cleanly.pure fun ho o' ho' => Option.some.inj ho' ▸ ho
      · exact fun fault => Cleanly.report fault (f := fun _ => pure none) fun _ _ => Serves.pure trivial
    · intro o?
      apply Cleanly.andThen fun _ _ => serves_skipTrailing
      intro _
      apply Cleanly.look
      intro span
      exact Cleanly.pure id

end

end Rule

end CalExport
