import CalExport.Proofs.Braces
import CalExport.Proofs.Sections
import CalExport.Proofs.Window.Common

namespace CalExport

open Rule

def keptRegion (preferences : ParserPreferences) (reason : String) (span : Text.Span) (tokens : List Token) :
    Array SkippedRegion :=
  if preferences.recordSkipped = true then #[⟨span, reason, tokens.length, joinTokens tokens⟩] else #[]

/-- The tokens of a section that is passed over: its keyword, and a block between braces. -/
structure PassedText where
  keyword : Token
  opening : Token
  body : List Token
  closing : Token
  kind_keyword : ∃ k, keyword.kind = .keyword k ∧ k.isPassedSection = true
  kind_opening : opening.kind = .leftBrace
  kind_closing : closing.kind = .rightBrace
  balanced : Balanced body

namespace PassedText

def block (x : PassedText) : List Token := x.opening :: (x.body ++ [x.closing])

def tokens (x : PassedText) : List Token := x.keyword :: x.block

def span (x : PassedText) : Text.Span := x.opening.span.merge x.closing.span

theorem balanced_block (x : PassedText) : Balanced x.block := by
  have hlast : closesBraces 1 [x.closing] = true := by simp [closesBraces, x.kind_closing]
  have hrest := closesBraces_append x.balanced hlast
  rw [Rule.Balanced, block, closesBraces, x.kind_opening]
  exact hrest

def kept (x : PassedText) : PassedText := { x with body := withoutEnd x.body, balanced := balanced_withoutEnd x.balanced }

theorem block_kept (x : PassedText) : x.kept.block = withoutEnd x.block := by
  simp [block, kept, x.kind_opening, x.kind_closing]

theorem tokens_kept (x : PassedText) : x.kept.tokens = withoutEnd x.tokens := by
  obtain ⟨k, hkeyword, -⟩ := x.kind_keyword
  rw [tokens, tokens, block_kept, withoutEnd_cons (by rw [hkeyword]; nofun)]
  rfl

end PassedText

namespace Rule

variable {s s' t u v w : Parser} {l m m' more : List Token} {x : PassedText} {preferences : ParserPreferences}
  {value : Text.Span → ExportObject}

theorem skipWhile_of_ahead {c : Parser → Bool} (h : ahead s = l ++ more) (hgo : ∀ i < l.length, c (skip i s) = true)
    (hstop : c (skip l.length s) = false) : skipWhile c s = ((), skip l.length s) := by
  have hunrolls := (grammarLoop_progresses (.skip c)).unrolls
  induction l generalizing s with
  | nil =>
      have hlast : c s = false := hstop
      rw [skipWhile, hunrolls, skipRound_stops (by simp [hlast])]
      rfl
  | cons y l ih =>
      have hend := atEnd_of_ahead h
      have hfirst : c s = true := hgo 0 (Nat.succ_pos _)
      rw [skipWhile, hunrolls, skipRound_yields (by rw [hend, hfirst]; rfl)]
      exact ih (ahead_advance h) (fun i hi => hgo (i + 1) (Nat.succ_lt_succ hi)) hstop

theorem tokensBetween_skip (h : ahead s = l ++ more) :
    (skip l.length s).tokensBetween s.position (skip l.length s).position = l := by
  rw [Cursor.tokensBetween, tokens_skip, position_skip h, Array.toList_extract, List.extract_eq_take_drop,
    Nat.add_sub_cancel_left, ← ahead, h, List.take_left]

theorem spanFrom_skip (h : ahead s = x.block ++ more) : (skip x.block.length s).spanFrom s.position = x.span := by
  have htoken : ∀ i, (skip x.block.length s).tokenAt i = s.tokenAt i := by
    intro i
    rw [Cursor.tokenAt, Cursor.tokenAt, tokens_skip, eof_skip]
  have hlength : x.block.length = x.body.length + 2 := by simp [PassedText.block]
  have hfirst : s.tokenAt s.position = x.opening := peek_of_ahead h
  have hlast : s.tokenAt (s.position + x.block.length - 1) = x.closing := by
    have hget := tokenAt_of_ahead h (i := x.body.length + 1) (by omega)
    rw [hlength, show s.position + (x.body.length + 2) - 1 = x.body.length + 1 + s.position by omega, hget]
    simp [PassedText.block]
  rw [Cursor.spanFrom, Cursor.previous, position_skip h, if_neg (by omega), if_neg (by omega), htoken, htoken, hfirst,
    hlast, PassedText.span]

theorem skippedSince_skip (h : ahead s = x.block ++ more) (reason : String) :
    skippedSince s.position reason (skip x.block.length s) =
      s.skipped ++ keptRegion s.preferences reason x.span x.block := by
  have hpass : s.position < s.position + x.block.length := Nat.lt_add_of_pos_right (Nat.succ_pos _)
  rw [skippedSince, spanFrom_skip h, tokensBetween_skip h, preferences_skip, skipped_skip, position_skip h,
    Nat.add_sub_cancel_left, keptRegion]
  by_cases hkeep : s.preferences.recordSkipped = true
  · rw [if_pos ⟨hpass, hkeep⟩, if_pos hkeep, Array.push_eq_append]
  · rw [if_neg fun hk => hkeep hk.2, if_neg hkeep, Array.append_empty]

/-- Inside of the block the depth never comes down to that of the object. -/
theorem skipWhile_block (h : ahead s = x.block ++ more)
    (hnext : ((skip x.block.length s).check .rightBrace || sectionStarts (skip x.block.length s)) = true) :
    skipWhile (fun c => !sectionBoundary s.braceDepth c) s = ((), skip x.block.length s) := by
  have hinside : ahead (advance s).2 = x.body ++ x.closing :: more := by
    simpa [PassedText.block] using ahead_advance h
  have hopened : (advance s).2.braceDepth = s.braceDepth + 1 := by
    rw [braceDepth_advance h, peek_of_ahead h, x.kind_opening]
    rfl
  have hinner := (braceDepth_skip x.balanced hinside hopened).1
  have houter : (skip x.block.length s).braceDepth = s.braceDepth := (braceDepth_skip x.balanced_block h rfl).2
  apply skipWhile_of_ahead h
  · intro i hi
    cases i with
    | zero => simp [sectionBoundary, skip, Cursor.check, sectionStarts, peek_of_ahead h, x.kind_opening]
    | succ i =>
        simp only [PassedText.block, List.length_cons, List.length_append, List.length_nil] at hi
        have hdeep : s.braceDepth < (skip (i + 1) s).braceDepth := hinner i (by omega)
        simp [sectionBoundary, Nat.not_le.2 hdeep]
  · rw [sectionBoundary, houter, hnext, decide_eq_true (Nat.le_refl _)]
    rfl

theorem skipToSection_of_skip {depth : Nat} {c : Parser}
    (hskip : skipWhile (fun c => !sectionBoundary depth c) s = ((), c)) (hpass : s.position < c.position)
    (reason : String) : ∃ e, skipToSection depth reason s = recordSkipped s.position reason (note e c).2 := by
  have hwhile : skipWhile (fun c => !(decide (c.braceDepth ≤ depth) && (c.check .rightBrace || sectionStarts c))) s =
      ((), c) := hskip
  rw [skipToSection, here, look_bind_apply, bind_apply, hwhile, passedSince, look_bind_apply,
    if_pos (Nat.sub_pos_of_lt hpass), bind_apply]
  exact ⟨_, rfl⟩

theorem sectionRule_passed (depth : Nat) (s : Parser) : ∃ e, sectionRule depth .passed s =
    (.ok .passed, (note e (skipToSection depth "unsupported section" (advance s).2).2).2) := ⟨_, rfl⟩

theorem sectionHead_of_passed (hahead : ahead s = x.tokens ++ more) : sectionHead? s = some .passed := by
  obtain ⟨k, hkeyword, hk⟩ := x.kind_keyword
  rw [sectionHead?, peek_of_ahead hahead, hkeyword]
  cases k <;> first | rfl | cases hk

/-- The section is passed over with all that stands in it. -/
theorem sectionRule_of_passed (hahead : ahead s = x.tokens ++ more)
    (hnext : ((skip x.tokens.length s).check .rightBrace || sectionStarts (skip x.tokens.length s)) = true) :
    ∃ events, sectionRule s.braceDepth .passed s = (.ok .passed, { skip x.tokens.length s with
      skipped := s.skipped ++ keptRegion s.preferences "unsupported section" x.span x.block, events }) := by
  obtain ⟨k, hkeyword, -⟩ := x.kind_keyword
  have hblock : ahead (advance s).2 = x.block ++ more := ahead_advance hahead
  have hdepth : (advance s).2.braceDepth = s.braceDepth := by
    rw [braceDepth_advance hahead, peek_of_ahead hahead, hkeyword]
    rfl
  have hskip := skipWhile_block hblock hnext
  rw [hdepth] at hskip
  have hpass : (advance s).2.position < (skip x.block.length (advance s).2).position := by
    rw [position_skip hblock]
    exact Nat.lt_add_of_pos_right (Nat.succ_pos _)
  obtain ⟨e, hrun⟩ := sectionRule_passed s.braceDepth s
  obtain ⟨e', hsection⟩ := skipToSection_of_skip hskip hpass "unsupported section"
  obtain ⟨events, hrecord⟩ := recordSkipped_snd (advance s).2.position "unsupported section"
    (note e' (skip x.block.length (advance s).2)).2
  have hkept : skippedSince (advance s).2.position "unsupported section"
      (note e' (skip x.block.length (advance s).2)).2 =
      s.skipped ++ keptRegion s.preferences "unsupported section" x.span x.block := skippedSince_skip hblock _
  rw [hrun, hsection, hrecord, hkept]
  exact ⟨_, rfl⟩

/-- Behind the section the run is where it would be without it. -/
theorem sectionRound_of_passed (hahead : ahead s' = x.tokens ++ ahead s) (heof : s'.eof = s.eof)
    (hdepth : s'.braceDepth = s.braceDepth) (hnesting : s'.nesting = s.nesting) (hlogged : Logged #[] s s')
    (hnext : (s.check .rightBrace || sectionStarts s) = true) (found : Array ObjectSection) :
    ∃ u, sectionRound s.braceDepth found s' = (.yield (found.push .passed), u) ∧ SameRest s u ∧
      u.skipped = s.skipped ++ keptRegion s.preferences "unsupported section" x.span x.block := by
  obtain ⟨k, hkeyword, -⟩ := x.kind_keyword
  have hbalanced : Balanced x.tokens := by
    rw [Rule.Balanced, PassedText.tokens, closesBraces, hkeyword]
    exact x.balanced_block
  have hrest : SameRest s (skip x.tokens.length s') := by
    refine ⟨ahead_skip hahead, ?_, ?_, ?_, ?_, ?_, ?_⟩
    · rw [eof_skip, heof]
    · exact (braceDepth_skip hbalanced hahead rfl).2.trans hdepth
    · rw [nesting_skip, hnesting]
    · rw [diagnostics_skip, hlogged.diagnostics]
    · rw [capped_skip, hlogged.capped]
    · rw [preferences_skip, hlogged.preferences]
  have hpeek : (skip x.tokens.length s').peek = s.peek := hrest.peekAhead_eq 0
  have hstops : ((skip x.tokens.length s').check .rightBrace || sectionStarts (skip x.tokens.length s')) = true := by
    rw [Cursor.check, hpeek, sectionStarts_congr hpeek (hrest.peekAhead_eq 1)]
    exact hnext
  obtain ⟨events, hrun⟩ := sectionRule_of_passed hahead hstops
  rw [hdepth, hlogged.skipped, hlogged.preferences, Array.empty_append] at hrun
  exact ⟨_, sectionRound_of_ok (sectionHead_of_passed hahead) hrun found, { hrest with }, rfl⟩

/-- Reading the object at `s`, a round of its sections begins in `v`: no brace but that of the object is open, and what
follows is a section told by its keyword or the brace that closes the object. -/
structure AtSection (s v : Parser) : Prop where
  reached : ∃ kind id name t found, heading s = (.ok (kind, id, name), t) ∧
    Visits (sectionRound t.braceDepth) #[] t found v ∧ v.braceDepth = t.braceDepth
  next : sectionStarts v = true ∨ v.peek.kind = .rightBrace

namespace AtSection

theorem forward (h : AtSection s v) : Forward s v ∧ s.position < v.position := by
  obtain ⟨_, _, _, t, _, hheading, hvisits, -⟩ := h.reached
  have hrest := hvisits.forward (steady_sectionRound _)
  exact ⟨(forward_of_steady consumes_heading.steady hheading).trans hrest,
    Nat.lt_of_lt_of_le (consumes_heading.passes hheading) hrest.position⟩

theorem endsHere (h : AtSection s v) (head : SectionHead) : EndsHere head v :=
  h.next.elim endsHere_of_sectionStarts endsHere_of_rightBrace

theorem kind_ne_eof (h : AtSection s v) : v.peek.kind ≠ .eof := by
  rcases h.next with hstarts | hbrace
  · obtain ⟨word, hword, -⟩ := kind_of_sectionStarts hstarts
    rw [hword]
    nofun
  · rw [hbrace]
    nofun

end AtSection

/-- A section that is passed over ends the one in front of it, as what stood in its place did. -/
theorem Window.borders_common {k : Keyword} (hm : goesOn (nextKind (withoutEnd m)) = false)
    (heof : nextKind (withoutEnd m) ≠ .eof) (hm' : nextKind (withoutEnd m') = .keyword k)
    (hk : k.isPassedSection = true) (depth : Nat) (head : SectionHead) : (Window.common preferences l m m').Borders depth head := by
  have hends : ∀ a b, Meets (Window.common preferences l m m') a b →
      ¬ (Window.common preferences l m m').sees a.position → sectionStarts b = true := by
    intro a b hmeets hedge
    have hkind : b.peek.kind = .keyword k := by
      rw [hmeets.peek_second, Window.kind_second_common (hmeets.edge hedge), hm']
    rw [sectionStarts, hkind]
    cases k <;> first | rfl | cases hk
  refine ⟨.inl rfl, ⟨?_, ?_⟩, ?_, ?_⟩
  · intro i hi
    rw [Window.kind_first_common hi, hm]
  · intro i hi
    rw [Window.kind_second_common hi, hm']
    cases k <;> first | rfl | cases hk
  · intro hglobals a b hmeets hedge
    exact (endsHere_of_sectionStarts (hends a b hmeets hedge)).globals hglobals
  · intro hpassed a b hmeets hedge hstop
    have hopen : a.atEnd ≠ true := by
      rw [Ne, ← Cursor.kind_peek_eq_eof, Cursor.peek, hmeets.first, Window.kind_first_common (hmeets.edge hedge)]
      exact heof
    have hstop := hstop.resolve_left hopen
    rw [sectionBoundary, Bool.and_eq_true] at hstop ⊢
    rw [hmeets.braceDepth]
    refine ⟨?_, (endsHere_of_sectionStarts (hends a b hmeets hedge)).passes hpassed⟩
    simpa using hstop.1

variable {pre post : List Token} {a : ObjectKind × Int × String} {found found' : Array ObjectSection} {e : Event}

/-- Both runs come alike to the place where the tokens are put in. -/
theorem visits_common (e : Event) (hheading : heading (.ofTokens (pre ++ post).toArray preferences) = (.ok a, t))
    (hvisits : Visits (sectionRound t.braceDepth) #[] t found v)
    (hborders : ∀ head, (Window.common preferences pre post m').Borders t.braceDepth head)
    (hlands : Lands (Window.common preferences pre post m') v) :
    ∃ t' v', heading (note e (.ofTokens (pre ++ m').toArray preferences)).2 = (.ok a, t') ∧
      Visits (sectionRound t'.braceDepth) #[] t' found v' ∧ t'.braceDepth = t.braceDepth ∧
      Meets (Window.common preferences pre post m') v v' ∧ Forward (.ofTokens (pre ++ m').toArray preferences) v' := by
  have hlands' := hlands.of_forward (hvisits.forward (steady_sectionRound _))
  obtain ⟨t', hheading', hmeets⟩ := (local_heading (.inl rfl)).same (Window.meets_common e) hheading hlands'
  obtain ⟨v', hvisits', hmeets'⟩ := visits_in_window hborders hvisits hmeets hlands
  rw [← hmeets.braceDepth] at hvisits'
  refine ⟨t', v', hheading', hvisits', hmeets.braceDepth, hmeets', (forward_note e _).trans ?_⟩
  exact (forward_of_steady consumes_heading.steady hheading').trans (hvisits'.forward (steady_sectionRound _))

theorem Closed.position_lt (h : Closed s v value) : s.position ≤ v.position ∧ v.atEnd = false := by
  refine ⟨h.forward.position, atEnd_of_kind ?_⟩
  rw [h.brace]
  nofun

def closedSpan (s v : Parser) : Text.Span := (s.tokenAt s.position).span.merge v.peek.span

theorem Closed.spanFrom_eq (h : Closed s v value) : (advance v).2.spanFrom s.position = closedSpan s v := by
  obtain ⟨hle, hend⟩ := h.position_lt
  have hposition : (advance v).2.position = v.position + 1 := Cursor.position_next hend
  rw [Cursor.spanFrom, Cursor.previous, hposition, if_neg (by omega), if_neg (by omega), tokenAt_advance,
    tokenAt_advance, Nat.add_sub_cancel, closedSpan, Cursor.peek]
  simp only [Cursor.tokenAt, h.forward.tokens, h.forward.eof]

theorem Closed.document_eq (h : Closed s v value) : document s =
    ({ object := some (value (closedSpan s v)), span := closedSpan s v }, (advance v).2) := by
  have hstart : s.atEnd = false := by
    obtain ⟨hle, hend⟩ := h.position_lt
    simp only [Cursor.atEnd, decide_eq_false_iff_not] at hend ⊢
    rw [← h.forward.tokens]
    omega
  rw [document_apply hstart, object_of_closed h.body h.brace, skipTrailing_of_atEnd h.last, h.spanFrom_eq]

/-- An object ends alike in front of the same tokens. -/
theorem Closed.of_sameRest (h : Closed s v value) (hbody : objectBody s' = (.ok value, w)) (hrest : SameRest v w) :
    Closed s' w value := by
  have hpeek : w.peek = v.peek := hrest.peekAhead_eq 0
  have hbrace : w.peek.kind = .rightBrace := hpeek ▸ h.brace
  refine ⟨hbody, hbrace, ?_, hrest.diagnostics.trans h.diagnostics⟩
  cases hahead : ahead v with
  | nil =>
      rw [ahead_eq_nil_iff, h.position_lt.2] at hahead
      cases hahead
  | cons y rest =>
      rw [← ahead_eq_nil_iff, ahead_advance (hrest.ahead.trans hahead), ← ahead_advance hahead, ahead_eq_nil_iff]
      exact h.last

/-- The same sections behind two places come to the same object, when those in front hold the same. -/
theorem closed_of_sameRest {kind : ObjectKind} {id : Int} {name : String} {t' : Parser}
    (hclosed : Closed s w value) (hheading : heading s = (.ok (kind, id, name), t))
    (hvisits : Visits (sectionRound t.braceDepth) #[] t found v) (hheading' : heading s' = (.ok (kind, id, name), t'))
    (hvisits' : Visits (sectionRound t'.braceDepth) #[] t' found' u) (hdepth : t'.braceDepth = t.braceDepth)
    (hrest : SameRest v u) (hfound : ∀ more : Array ObjectSection,
      ExportObject.ofSections kind id name (found' ++ more).toList =
        ExportObject.ofSections kind id name (found ++ more).toList) :
    ∃ w', Closed s' w' value ∧ w'.peek = w.peek ∧ ∃ regions, w.skipped = v.skipped ++ regions ∧
      w'.skipped = u.skipped ++ regions := by
  obtain ⟨hvalue, hw⟩ := Prod.mk.inj (hclosed.body.symm.trans (objectBody_of_visits hheading hvisits))
  obtain ⟨hmore, hrest', regions, hskipped, hskipped'⟩ := sameRest_sections t.braceDepth hrest
  have hbody := objectBody_of_visits hheading' hvisits'
  rw [hdepth, hmore, hfound, ← hvalue] at hbody
  rw [← hw] at hrest' hskipped
  exact ⟨_, hclosed.of_sameRest hbody hrest', hrest'.peekAhead_eq 0, regions, hskipped, hskipped'⟩

theorem ofSections_passed (kind : ObjectKind) (id : Int) (name : String) (front back : List ObjectSection) :
    ExportObject.ofSections kind id name (front ++ .passed :: back) =
      ExportObject.ofSections kind id name (front ++ back) := by
  funext span
  simp [ExportObject.ofSections, ObjectSection.joinCode, ObjectSection.properties?, ObjectSection.fields?,
    ObjectSection.keys?, ObjectSection.fieldGroups?, ObjectSection.globals?, ObjectSection.code?]

/-- The object that is read with the section put in where one may begin. -/
theorem closed_of_inserted (x : PassedText) (hclosed : Closed (.ofTokens (pre ++ post).toArray preferences) w value)
    (hpoint : AtSection (.ofTokens (pre ++ post).toArray preferences) v)
    (hplace : v.position = (withoutEnd pre).length) (e : Event) :
    ∃ w', Closed (note e (.ofTokens (pre ++ (x.tokens ++ post)).toArray preferences)).2 w' value ∧ w'.peek = w.peek ∧
      ∃ front back, w.skipped = front ++ back ∧ w'.skipped =
        front ++ keptRegion preferences "unsupported section" x.span (withoutEnd x.block) ++ back := by
  obtain ⟨kind, id, name, t, found, hheading, hvisits, hdepth⟩ := hpoint.reached
  have hends := hpoint.endsHere .passed
  have hfull := hpoint.kind_ne_eof
  have hforward := hpoint.forward.1
  have hahead : ahead v = withoutEnd post := ahead_of_front hforward hplace
  have hkind : v.peek.kind = nextKind (withoutEnd post) := hahead ▸ kind_peek v
  have hinserted : withoutEnd (x.tokens ++ post) = x.kept.tokens ++ withoutEnd post := by
    rw [withoutEnd_append, x.tokens_kept]
  have hlands : Lands (Window.common preferences pre post (x.tokens ++ post)) v := by
    refine ⟨?_, fun i hi => Nat.lt_of_lt_of_eq hi hplace⟩
    have hw := (Prod.mk.inj (hclosed.body.symm.trans (objectBody_of_visits hheading hvisits))).2
    have hrest : Forward v w := hw ▸ steady_rounds (steady_sectionRound _) _ #[] v
    exact clean_of_forward hrest hclosed.diagnostics
  obtain ⟨k, hkeyword, hk⟩ := x.kind_keyword
  obtain ⟨t', v', hheading', hvisits', hdepth', hmeets, hforward'⟩ := visits_common e hheading hvisits
    (Window.borders_common (hkind ▸ hends.fresh) (hkind ▸ hfull) (by rw [hinserted]; exact hkeyword) hk _) hlands
  have hahead' : ahead v' = x.kept.tokens ++ ahead v := by
    rw [hahead, ← hinserted]
    exact ahead_of_front hforward' (hmeets.position.trans hplace)
  have heof : v'.eof = v.eof := by
    have hpost : withoutEnd post ≠ [] := by
      intro hnil
      rw [hkind, hnil] at hfull
      exact hfull rfl
    rw [hforward'.eof, hforward.eof, eof_inserted hpost]
  obtain ⟨u, hround, hrest, hskipped⟩ := sectionRound_of_passed hahead' heof hmeets.braceDepth hmeets.nesting
    (hmeets.logged trivial) (hends.passes (.inl rfl)) found
  rw [hdepth, ← hdepth'] at hround
  obtain ⟨w', hclosed', hpeek, back, hback, hback'⟩ := closed_of_sameRest hclosed hheading hvisits hheading'
    (hvisits'.trans (.next hround (.refl _ u))) hdepth' hrest fun more => by simp [ofSections_passed]
  refine ⟨w', hclosed', hpeek, v.skipped, back, hback, ?_⟩
  rw [hback', hskipped, hforward.preferences, x.block_kept]
  rfl

/-- What was noted before does not matter. -/
theorem Closed.of_note (h : Closed (note e s).2 v value) :
    ∃ w, Closed s w value ∧ w.peek = v.peek ∧ w.skipped = v.skipped := by
  have hrest : SameRest (note e s).2 s := ⟨rfl, rfl, rfl, rfl, rfl, rfl, rfl⟩
  obtain ⟨hresult, hrest', regions, hskipped, hskipped'⟩ := hrest.step (x := attempt objectBody)
    fun hR _ => Agree.never (agree_objectBody hR)
  have hattempt : attempt objectBody (note e s).2 = (.ok value, v) := h.body
  rw [hattempt] at hresult hrest' hskipped
  have hbody : objectBody s = (.ok value, (attempt objectBody s).2) := Prod.ext hresult rfl
  exact ⟨_, h.of_sameRest hbody hrest', hrest'.peekAhead_eq 0, hskipped'.trans hskipped.symm⟩

/-- Tokens that are read to an object without a diagnostic, with a section that is passed over put in where a section may
begin. The document is the same, there is no diagnostic, and one stretch more was passed over: the block. -/
theorem passed_section_unseen (preferences : ParserPreferences) (pre post : List Token) (x : PassedText)
    (hclean : ReadsClean preferences (pre ++ post).toArray)
    (hpoint : AtSection (.ofTokens (pre ++ post).toArray preferences) v)
    (hplace : v.position = (withoutEnd pre).length) :
    let run := wholeDocument (.ofTokens (pre ++ post).toArray preferences)
    let longer := wholeDocument (.ofTokens (pre ++ (x.tokens ++ post)).toArray preferences)
    longer.1 = run.1 ∧ longer.2.diagnostics = #[] ∧ ∃ front back, run.2.skipped = front ++ back ∧
      longer.2.skipped =
        front ++ keptRegion preferences "unsupported section" x.span (withoutEnd x.block) ++ back := by
  obtain ⟨hobject, hdiagnostics⟩ := hclean
  obtain ⟨first, last, hrun⟩ := wholeDocument_apply (.ofTokens (pre ++ post).toArray preferences)
  obtain ⟨first', last', hrun'⟩ := wholeDocument_apply (.ofTokens (pre ++ (x.tokens ++ post)).toArray preferences)
  rw [hrun] at hobject hdiagnostics
  obtain ⟨w₀, value, hclosed₀⟩ := exists_closed hobject hdiagnostics
  obtain ⟨w, hclosed, hpeek, hskipped⟩ := hclosed₀.of_note
  obtain ⟨w', hclosed', hpeek', front, back, hfront, hfront'⟩ := closed_of_inserted x hclosed hpoint hplace first'
  have hfirst : (Parser.ofTokens (pre ++ (x.tokens ++ post)).toArray preferences).tokenAt 0 =
      (Parser.ofTokens (pre ++ post).toArray preferences).tokenAt 0 := by
    have hpos : 0 < (withoutEnd pre).length := hplace ▸ hpoint.forward.2
    exact (tokenAt_ofTokens hpos).trans (tokenAt_ofTokens hpos).symm
  have hspan : closedSpan (note first' (.ofTokens (pre ++ (x.tokens ++ post)).toArray preferences)).2 w' =
      closedSpan (note first (.ofTokens (pre ++ post).toArray preferences)).2 w₀ := by
    rw [closedSpan, closedSpan, hpeek', hpeek]
    exact congrArg (fun y : Token => y.span.merge w₀.peek.span) hfirst
  dsimp only
  rw [hrun, hrun', hclosed₀.document_eq, hclosed'.document_eq, hspan]
  exact ⟨rfl, hclosed'.diagnostics, front, back, hskipped.symm.trans hfront, hfront'⟩

theorem kind_mk (κ : Kind) (text : String) (span : Text.Span) : (Token.mk κ text span).kind = κ := rfl

/-- `CONTROLS{CODE{}KEYS}`. -/
def controlsBlock : PassedText where
  keyword := ⟨.keyword .controls, "CONTROLS", .origin⟩
  opening := ⟨.leftBrace, "\x7b", .origin⟩
  body := [⟨.keyword .code, "CODE", .origin⟩, ⟨.leftBrace, "\x7b", .origin⟩, ⟨.rightBrace, "\x7d", .origin⟩,
    ⟨.keyword .keys, "KEYS", .origin⟩]
  closing := ⟨.rightBrace, "\x7d", .origin⟩
  kind_keyword := ⟨.controls, rfl, rfl⟩
  kind_opening := kind_mk .leftBrace "\x7b" .origin
  kind_closing := kind_mk .rightBrace "\x7d" .origin
  balanced := rfl

def keysAndEnd : List Token :=
  [⟨.keyword .keys, "KEYS", .origin⟩, ⟨.leftBrace, "\x7b", .origin⟩, ⟨.rightBrace, "\x7d", .origin⟩,
    ⟨.rightBrace, "\x7d", .origin⟩, .endAfter .origin]

theorem passed_section_unseen_controls :
    ReadsClean {} (openTable.toList ++ keysAndEnd).toArray ∧
      (wholeDocument (.ofTokens (openTable.toList ++ (controlsBlock.tokens ++ keysAndEnd)).toArray {})).1 =
        (wholeDocument (.ofTokens (openTable.toList ++ keysAndEnd).toArray {})).1 ∧
      (wholeDocument (.ofTokens (openTable.toList ++ (controlsBlock.tokens ++ keysAndEnd)).toArray {})).2.skipped =
        #[⟨.origin, "unsupported section", 6, "\x7bCODE\x7b\x7dKEYS\x7d"⟩] := by
  have hobject : (wholeDocument (.ofTokens (openTable.toList ++ keysAndEnd).toArray {})).1.object.isSome = true := by
    decide +kernel
  have hclean : ReadsClean {} (openTable.toList ++ keysAndEnd).toArray :=
    ⟨Option.isSome_iff_ne_none.1 hobject, by decide +kernel⟩
  have hpoint : AtSection (.ofTokens (openTable.toList ++ keysAndEnd).toArray {})
      (heading (.ofTokens (openTable.toList ++ keysAndEnd).toArray {})).2 :=
    ⟨⟨.table, 1, "A", _, #[], rfl, .refl _ _, rfl⟩, .inl rfl⟩
  obtain ⟨hdocument, -, front, back, hrun, hlonger⟩ :=
    passed_section_unseen {} openTable.toList keysAndEnd controlsBlock hclean hpoint rfl
  have hnone : (wholeDocument (.ofTokens (openTable.toList ++ keysAndEnd).toArray {})).2.skipped = #[] := by
    decide +kernel
  obtain ⟨rfl, rfl⟩ := Array.append_eq_empty_iff.1 (hrun.symm.trans hnone)
  exact ⟨hclean, hdocument, hlonger.trans (by decide +kernel)⟩

end Rule

end CalExport
