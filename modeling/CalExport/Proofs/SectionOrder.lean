import CalExport.Proofs.Braces
import CalExport.Proofs.Sections
import Mathlib.Data.List.Chain
import Mathlib.Data.List.Forall2

namespace CalExport

open Rule

/-- Tokens whose braces close each other, with the section that they are meant to begin. -/
structure SectionText where
  head : SectionHead
  tokens : List Token
  balanced : Balanced tokens

/-- Read alone it is a section, up to its last token and without a diagnostic. -/
def SectionText.ReadsTo (preferences : ParserPreferences) (x : SectionText) (sec : ObjectSection) : Prop :=
  sectionHead? (aloneOn preferences x.tokens) = some x.head ∧
    ∃ e, sectionRule 0 x.head (aloneOn preferences x.tokens) = (.ok sec, e) ∧ e.atEnd = true ∧ e.diagnostics = #[]

/-- Whether a section ends where another one begins. One that is passed over ends in front of the keyword of a section,
and neither VAR nor OBJECT is one; in a block of variables OBJECT is a name. -/
def endsBefore : SectionHead → SectionHead → Bool
  | .passed, .globals | .passed, .objectProperties => false
  | .objectProperties, .globals | .objectProperties, .objectProperties => false
  | .globals, .objectProperties => false
  | _, _ => true

namespace Rule

variable {s t c : Parser} {l more : List Token} {preferences : ParserPreferences} {head : SectionHead}

/-- Every section but two begins with a keyword that ends the one in front of it. -/
theorem sectionHead_cases (h : sectionHead? s = some head) :
    sectionStarts s = true ∨ head = .globals ∧ s.peek.kind = .keyword .var ∨
      head = .objectProperties ∧ s.peek.kind = .keyword .object := by
  unfold sectionHead? at h
  unfold sectionStarts
  generalize s.peek.kind = κ at h
  split at h
  case h_8 =>
    split at h
    · left
      split <;> simp_all [Keyword.isSection]
    · cases h
  all_goals simp_all [Keyword.isSection, Keyword.isReadSection]

/-- A block of variables that is read to its end without a diagnostic does not begin with a colon. -/
theorem not_declarationFollows_of_globals {e : Parser} (hkind : s.peek.kind = .keyword .var)
    (hrun : (variableBlock (advance s).2).2 = e) (hend : e.atEnd = true) (hclean : e.diagnostics = #[]) :
    declarationFollows s = false := by
  have hnext := peekAhead_advance (s := s) (by rw [hkind]; nofun) 0
  have hunrolls := (grammarLoop_progresses .variableBlock).unrolls
  rw [← Bool.not_eq_true]
  intro hfollows
  have hcolon : (advance s).2.peek.kind = .colon ∨ (advance s).2.peek.kind = .atSign := by
    rw [declarationFollows, ← hnext] at hfollows
    change endsDeclaredName (advance s).2.peek.kind = true at hfollows
    unfold endsDeclaredName at hfollows
    split at hfollows
    · exact .inl ‹_›
    · exact .inr ‹_›
    · cases hfollows
  have hrun' : (loop #[] variableRound (advance s).2).2 = e := hrun
  rw [hunrolls] at hrun'
  have hhead : variableHead (advance s).2 = if declarationFollows (advance s).2 then .misnamed else .stop := by
    rcases hcolon with h | h <;> simp [variableHead, variablesEnd, h, Kind.canName]
  by_cases hmisnamed : declarationFollows (advance s).2 = true
  · rw [if_pos hmisnamed] at hhead
    rw [variableRound_of_misnamed hhead] at hrun'
    have hloop : Forward (skipMisnamed (advance s).2).2 e := by
      rw [← hrun']
      exact steady_rounds steady_variableRound _ _ _
    exact ne_empty_of_forward ((forward_skipMisnamed _).trans hloop) (diagnostics_record_ne _ _) hclean
  · rw [if_neg hmisnamed] at hhead
    rw [variableRound_of_stop hhead] at hrun'
    obtain rfl : (advance s).2 = e := hrun'
    rw [← Cursor.kind_peek_eq_eof] at hend
    rcases hcolon with h | h <;> rw [h] at hend <;> cases hend

theorem tokens_of_section {y : SectionText} {sec : ObjectSection} (hreads : y.ReadsTo preferences sec)
    (hahead : ahead c = y.tokens ++ more) :
    ∃ x l, y.tokens = x :: l ∧ c.peek = (aloneOn preferences y.tokens).peek := by
  have halone : ahead (aloneOn preferences y.tokens) = y.tokens := ahead_aloneOn hahead
  obtain ⟨word, hword⟩ := kind_of_sectionHead hreads.1
  obtain ⟨x, l, htokens⟩ : ∃ x l, y.tokens = x :: l := by
    apply List.exists_cons_of_ne_nil
    intro hnil
    rw [kind_peek, halone, hnil] at hword
    cases hword
  refine ⟨x, l, htokens, ?_⟩
  rw [htokens, List.cons_append] at hahead
  rw [peek_of_ahead hahead, peek_of_ahead (halone.trans htokens)]

theorem goesOn_of_section {y : SectionText} {sec : ObjectSection} (hreads : y.ReadsTo preferences sec)
    (hahead : ahead c = y.tokens ++ more) : goesOn c.peek.kind = false := by
  obtain ⟨x, l, -, hpeek⟩ := tokens_of_section hreads hahead
  rw [hpeek]
  rcases sectionHead_cases hreads.1 with hstarts | ⟨-, hkind⟩ | ⟨-, hkind⟩
  · exact goesOn_of_sectionStarts hstarts
  · rw [hkind]
    rfl
  · rw [hkind]
    rfl

/-- What begins with a section ends the one in front of it, unless neither is told by its keyword. -/
theorem endsHere_of_section {y : SectionText} {sec : ObjectSection} (hreads : y.ReadsTo preferences sec)
    (hahead : ahead c = y.tokens ++ more) (hmore : goesOn (nextKind more) = false)
    (h : endsBefore head y.head = true) : EndsHere head c := by
  have hfresh := goesOn_of_section hreads hahead
  have halone : ahead (aloneOn preferences y.tokens) = y.tokens := ahead_aloneOn hahead
  obtain ⟨x, l, htokens, hpeek⟩ := tokens_of_section hreads hahead
  obtain ⟨hhead, e, hrun, hend, hclean⟩ := hreads
  rw [htokens, List.cons_append] at hahead
  have hnext : (c.peekAhead 1).kind = nextKind (l ++ more) := kind_peekAhead_one hahead
  have hnext' : ((aloneOn preferences y.tokens).peekAhead 1).kind = nextKind l :=
    kind_peekAhead_one (halone.trans htokens)
  rcases sectionHead_cases hhead with hstarts | ⟨hglobals, hkind⟩ | ⟨hobject, -⟩
  · apply endsHere_of_sectionStarts
    unfold sectionStarts at hstarts ⊢
    rw [hpeek]
    split at hstarts
    · rw [Cursor.checkNext, hnext', beq_iff_eq] at hstarts
      rw [Cursor.checkNext, hnext, beq_iff_eq]
      cases l with
      | nil => cases hstarts
      | cons z l => exact hstarts
    · exact hstarts
    · cases hstarts
  · have hnone : declarationFollows c = false := by
      cases l with
      | nil =>
          rw [List.nil_append] at hnext
          rw [declarationFollows, hnext]
          generalize nextKind more = κ at hmore
          cases κ <;> first | rfl | cases hmore
      | cons z l =>
          rw [hglobals, sectionRule_globals] at hrun
          have hfirst := not_declarationFollows_of_globals hkind (Prod.mk.inj hrun).2 hend hclean
          rw [declarationFollows, hnext'] at hfirst
          rw [declarationFollows, hnext]
          exact hfirst
    rw [← hpeek] at hkind
    refine ⟨hfresh, fun _ => ?_, ?_⟩
    · simp [variableHead, variablesEnd, sectionStarts, hkind, hnone, Kind.canName, Keyword.canName, Keyword.isTypeName,
        Keyword.isPlainName]
    · rw [hglobals] at h
      rintro (rfl | rfl) <;> cases h
  · rw [hobject] at h
    refine ⟨hfresh, ?_, ?_⟩
    · rintro rfl
      cases h
    · rintro (rfl | rfl) <;> cases h

/-- At the edge both runs stand in front of what is left behind the section. -/
theorem peekAhead_of_edge {a b : Parser} (hahead : ahead s = l ++ more)
    (hmeets : Meets (Window.ofAhead preferences hahead) a b)
    (hedge : ¬ (Window.ofAhead preferences hahead).sees a.position) (n : Nat) :
    b.peekAhead n = (skip l.length s).peekAhead n := by
  rw [hmeets.peekAhead_second, Window.edge_ofAhead hahead (hmeets.edge hedge), Cursor.peekAhead, position_skip hahead]
  show s.tokenAt (l.length + n + s.position) = _
  rw [Cursor.tokenAt, Cursor.tokenAt, tokens_skip, eof_skip, Nat.add_right_comm, Nat.add_comm l.length]

theorem borders_ofAhead (hahead : ahead s = l ++ more) (hbalanced : Balanced l) (hdepth : s.braceDepth ≠ 0)
    (h : EndsHere head (skip l.length s)) : (Window.ofAhead preferences hahead).Borders 0 head where
  sound := sound_ofAhead hahead hbalanced
  ends := by
    apply Window.ends_ofAhead
    rw [← ahead_skip hahead, ← kind_peek]
    exact h.fresh
  globals hglobals a b hmeets hedge := by
    rw [← h.globals hglobals]
    have hpeek : b.peek = (skip l.length s).peek := peekAhead_of_edge hahead hmeets hedge 0
    exact variableHead_congr hpeek (peekAhead_of_edge hahead hmeets hedge 1)
  passes hpassed a b hmeets hedge _ := by
    have hpeek : b.peek = (skip l.length s).peek := peekAhead_of_edge hahead hmeets hedge 0
    have hbraces : a.braceDepth = 0 := by
      have htracked := hmeets.tracked.resolve_left hdepth
      rw [htracked, Window.edge_ofAhead hahead (hmeets.edge hedge)]
      exact depthAt_length hahead hbalanced
    rw [sectionBoundary, Bool.and_eq_true, decide_eq_true_eq, hmeets.braceDepth, hbraces, Cursor.check, hpeek,
      sectionStarts_congr hpeek (peekAhead_of_edge hahead hmeets hedge 1)]
    exact ⟨Nat.le_refl _, h.passes hpassed⟩

/-- A section that is well-formed alone is the same in its place. -/
theorem section_in_place {x : SectionText} {sec : ObjectSection} (hreads : x.ReadsTo preferences sec)
    (hahead : ahead s = x.tokens ++ more) (hnesting : s.nesting = 0) (hdepth : s.braceDepth ≠ 0)
    (hends : EndsHere x.head (skip x.tokens.length s)) :
    ∃ t, sectionHead? s = some x.head ∧ sectionRule s.braceDepth x.head s = (.ok sec, t) ∧ ahead t = more ∧
      t.braceDepth = s.braceDepth ∧ Forward s t := by
  obtain ⟨hhead, e, halone, hend, hclean⟩ := hreads
  obtain ⟨hforward, -⟩ := passes_sectionRule hhead halone
  obtain ⟨hhead', t, hrun, hmeets⟩ := sectionRule_in_window (borders_ofAhead hahead x.balanced hdepth hends)
    (Window.meets_ofAhead hahead hnesting) hhead halone (Window.lands_ofAhead hahead hclean hforward)
  have hdeep : 0 + (Window.ofAhead preferences hahead).deep = s.braceDepth := Nat.zero_add _
  rw [hdeep] at hrun
  obtain ⟨hforward', -⟩ := passes_sectionRule hhead' hrun
  have hzero : e.braceDepth = 0 := by
    have htracked := hmeets.tracked.resolve_left hdepth
    have hposition : e.position = x.tokens.length := by
      rw [Cursor.atEnd_iff.1 hend, hforward.tokens, tokens_aloneOn hahead, List.size_toArray]
    rw [htracked, hposition]
    exact depthAt_length hahead x.balanced
  refine ⟨t, hhead', hrun, Window.ahead_of_meets hahead hmeets hforward hend hforward'.tokens, ?_, hforward'⟩
  rw [hmeets.braceDepth, hzero]
  exact Nat.zero_add _

variable {xs : List SectionText} {found : List ObjectSection} {closing : Token} {post : List Token}

theorem goesOn_next (hreads : List.Forall₂ (SectionText.ReadsTo preferences) xs found)
    (hclosing : closing.kind = .rightBrace)
    (hahead : ahead c = xs.flatMap SectionText.tokens ++ closing :: post) : goesOn c.peek.kind = false := by
  cases hreads with
  | nil =>
      rw [peek_of_ahead hahead, hclosing]
      rfl
  | cons hx _ =>
      rw [List.flatMap_cons, List.append_assoc] at hahead
      exact goesOn_of_section hx hahead

/-- In front of the next section, or of the brace that closes the object. -/
theorem endsHere_next (hreads : List.Forall₂ (SectionText.ReadsTo preferences) xs found)
    (hclosing : closing.kind = .rightBrace) (hnext : ∀ y ∈ xs.head?, endsBefore head y.head = true)
    (hahead : ahead c = xs.flatMap SectionText.tokens ++ closing :: post) : EndsHere head c := by
  cases hreads with
  | nil =>
      apply endsHere_of_rightBrace
      rw [peek_of_ahead hahead, hclosing]
  | @cons y sec ys found hy hys =>
      rw [List.flatMap_cons, List.append_assoc] at hahead
      apply endsHere_of_section hy hahead _ (hnext y rfl)
      rw [← ahead_skip hahead, ← kind_peek]
      exact goesOn_next hys hclosing (ahead_skip hahead)

/-- Sections one after the other. -/
theorem visits_sections {depth : Nat} (hreads : List.Forall₂ (SectionText.ReadsTo preferences) xs found)
    (hapart : xs.IsChain fun x y => endsBefore x.head y.head = true) (hclosing : closing.kind = .rightBrace)
    (before : Array ObjectSection) (hahead : ahead s = xs.flatMap SectionText.tokens ++ closing :: post)
    (hnesting : s.nesting = 0) (hdepth : s.braceDepth = depth) (hopen : depth ≠ 0) :
    ∃ t, Visits (sectionRound depth) before s (before ++ found.toArray) t ∧ ahead t = closing :: post := by
  induction hreads generalizing s before with
  | nil => exact ⟨s, by simpa using Visits.refl before s, hahead⟩
  | @cons x sec xs found hx hxs ih =>
      rw [List.flatMap_cons, List.append_assoc] at hahead
      have hends := endsHere_next hxs hclosing (List.isChain_cons.1 hapart).1 (ahead_skip hahead)
      obtain ⟨u, hhead, hrun, hbehind, hbraces, hforward⟩ := section_in_place hx hahead hnesting (hdepth ▸ hopen) hends
      rw [hdepth] at hrun
      obtain ⟨t, hvisits, hend⟩ := ih (List.isChain_cons.1 hapart).2 (before.push sec) hbehind
        (hforward.nesting.trans hnesting) (hbraces.trans hdepth)
      refine ⟨t, .next (sectionRound_of_ok hhead hrun before) ?_, hend⟩
      rw [List.toArray_cons, ← Array.append_assoc, ← Array.push_eq_append]
      exact hvisits

def codeList {α : Type} (code : Option CodeSection) (list : CodeSection → List α) : List α := (code.map list).getD []

/-- The variables from outside, then those of the CODE section, when there is at most one. -/
theorem globals_joinCode (h : (found.filterMap ObjectSection.code?).length ≤ 1) :
    codeList (ObjectSection.joinCode found) CodeSection.globals =
      found.flatMap ObjectSection.globals? ++ (found.filterMap ObjectSection.code?).flatMap CodeSection.globals := by
  unfold ObjectSection.joinCode codeList
  generalize found.filterMap ObjectSection.code? = codes at h
  match codes, h with
  | [], _ => split <;> simp_all [CodeSection.absent]
  | [c], _ => split <;> simp_all

/-- What else a CODE section holds. -/
theorem codeList_joinCode {α : Type} {list : CodeSection → List α}
    (hlist : ∀ c globals, list { c with globals } = list c) (habsent : list .absent = [])
    (h : (found.filterMap ObjectSection.code?).length ≤ 1) :
    codeList (ObjectSection.joinCode found) list = (found.filterMap ObjectSection.code?).flatMap list := by
  unfold ObjectSection.joinCode codeList
  generalize found.filterMap ObjectSection.code? = codes at h
  match codes, h with
  | [], _ => split <;> simp [hlist, habsent]
  | [c], _ => split <;> simp [hlist]

/-- An object in any state, whose sections are well-formed alone and leave no brace open. A section that is passed over is
not followed by VAR or OBJECT-PROPERTIES nor a block of variables by OBJECT-PROPERTIES. Then no section is lost, nor is
any code when there is at most one CODE section. -/
theorem sections_in_order {kind : ObjectKind} {id : Int} {name : String} (hnesting : s.nesting = 0)
    (hheading : heading s = (.ok (kind, id, name), t))
    (hahead : ahead t = xs.flatMap SectionText.tokens ++ closing :: post) (hclosing : closing.kind = .rightBrace)
    (hreads : List.Forall₂ (SectionText.ReadsTo preferences) xs found)
    (hapart : xs.IsChain fun x y => endsBefore x.head y.head = true) :
    ∃ o u, object s = (.ok o, u) ∧ o.properties = found.flatMap ObjectSection.properties? ∧
      o.fields = found.flatMap ObjectSection.fields? ∧ o.keys = found.flatMap ObjectSection.keys? ∧
      o.fieldGroups = found.flatMap ObjectSection.fieldGroups? ∧
      ((found.filterMap ObjectSection.code?).length ≤ 1 →
        codeList o.code CodeSection.globals = found.flatMap ObjectSection.globals? ++
          (found.filterMap ObjectSection.code?).flatMap CodeSection.globals ∧
        codeList o.code CodeSection.procedures =
          (found.filterMap ObjectSection.code?).flatMap CodeSection.procedures ∧
        codeList o.code CodeSection.triggers = (found.filterMap ObjectSection.code?).flatMap CodeSection.triggers ∧
        codeList o.code CodeSection.events = (found.filterMap ObjectSection.code?).flatMap CodeSection.events) := by
  have hopen : t.braceDepth ≠ 0 := braceDepth_of_heading hheading
  have hnesting' : t.nesting = 0 := (forward_of_steady consumes_heading.steady hheading).nesting.trans hnesting
  obtain ⟨u, hvisits, hend⟩ := visits_sections hreads hapart hclosing #[] hahead hnesting' rfl hopen
  rw [Array.empty_append] at hvisits
  refine ⟨_, _, object_of_visits hheading hvisits (by rw [peek_of_ahead hend, hclosing]), rfl, rfl, rfl, rfl, ?_⟩
  intro hcode
  exact ⟨globals_joinCode hcode, codeList_joinCode (fun _ _ => rfl) rfl hcode,
    codeList_joinCode (fun _ _ => rfl) rfl hcode, codeList_joinCode (fun _ _ => rfl) rfl hcode⟩

/-- `VAR name : Integer;`. -/
def variableText (name : String) : SectionText where
  head := .globals
  tokens := [⟨.keyword .var, "VAR", .origin⟩, ⟨.identifier, name, .origin⟩, ⟨.colon, ":", .origin⟩,
    ⟨.identifier, "Integer", .origin⟩, ⟨.semicolon, ";", .origin⟩]
  balanced := rfl

/-- `CONTROLS{KEYS{}}`. -/
def controlsText : SectionText where
  head := .passed
  tokens := [⟨.keyword .controls, "CONTROLS", .origin⟩, ⟨.leftBrace, "\x7b", .origin⟩, ⟨.keyword .keys, "KEYS", .origin⟩,
    ⟨.leftBrace, "\x7b", .origin⟩, ⟨.rightBrace, "\x7d", .origin⟩, ⟨.rightBrace, "\x7d", .origin⟩]
  balanced := rfl

/-- `CODE{VAR name : Integer;}`. -/
def codeText (name : String) : SectionText where
  head := .code
  tokens := [⟨.keyword .code, "CODE", .origin⟩, ⟨.leftBrace, "\x7b", .origin⟩, ⟨.keyword .var, "VAR", .origin⟩,
    ⟨.identifier, name, .origin⟩, ⟨.colon, ":", .origin⟩, ⟨.identifier, "Integer", .origin⟩,
    ⟨.semicolon, ";", .origin⟩, ⟨.rightBrace, "\x7d", .origin⟩]
  balanced := rfl

def objectOf (xs : List SectionText) : Parser :=
  aloneOn {} ([⟨.keyword .object, "OBJECT", .origin⟩, ⟨.keyword .table, "Table", .origin⟩, ⟨.integer, "1", .origin⟩,
    ⟨.identifier, "T", .origin⟩, ⟨.leftBrace, "\x7b", .origin⟩] ++ xs.flatMap SectionText.tokens ++
    [⟨.rightBrace, "\x7d", .origin⟩])

def declaredNames (sec : ObjectSection) : List String × Option (List String) :=
  (sec.globals?.map Variable.name, sec.code?.map fun c => c.globals.map Variable.name)

theorem readsTo_of_run (x : SectionText) (names : List String × Option (List String))
    (h : sectionHead? (aloneOn {} x.tokens) = some x.head ∧
      (sectionRule 0 x.head (aloneOn {} x.tokens)).1.toOption.map declaredNames = some names ∧
      (sectionRule 0 x.head (aloneOn {} x.tokens)).2.atEnd = true ∧
      (sectionRule 0 x.head (aloneOn {} x.tokens)).2.diagnostics = #[]) :
    ∃ sec, x.ReadsTo {} sec ∧ declaredNames sec = names := by
  obtain ⟨hhead, hnames, hend⟩ := h
  rcases hrun : sectionRule 0 x.head (aloneOn {} x.tokens) with ⟨fault | sec, e⟩
  · rw [hrun] at hnames
    cases hnames
  · rw [hrun] at hnames hend
    exact ⟨sec, ⟨hhead, e, hrun, hend⟩, Option.some.inj hnames⟩

theorem sections_in_order_mixed : ∃ found o u,
    List.Forall₂ (SectionText.ReadsTo {}) [variableText "x", controlsText, codeText "y"] found ∧
      object (objectOf [variableText "x", controlsText, codeText "y"]) = (.ok o, u) ∧
      (codeList o.code CodeSection.globals).map Variable.name = ["x", "y"] := by
  obtain ⟨a, ha, hnames⟩ := readsTo_of_run (variableText "x") (["x"], none) (by decide +kernel)
  obtain ⟨b, hb, hnames'⟩ := readsTo_of_run controlsText ([], none) (by decide +kernel)
  obtain ⟨c, hc, hnames''⟩ := readsTo_of_run (codeText "y") ([], some ["y"]) (by decide +kernel)
  have hreads : List.Forall₂ (SectionText.ReadsTo {}) [variableText "x", controlsText, codeText "y"] [a, b, c] :=
    .cons ha (.cons hb (.cons hc .nil))
  simp only [declaredNames, Prod.mk.injEq, Option.map_eq_none_iff, Option.map_eq_some_iff] at hnames hnames' hnames''
  obtain ⟨d, hd, hdeclared⟩ := hnames''.2
  have hcode : ([a, b, c].filterMap ObjectSection.code?).length ≤ 1 := by simp [hnames.2, hnames'.2, hd]
  have hheading : heading (objectOf [variableText "x", controlsText, codeText "y"]) = (.ok (.table, 1, "T"), _) := rfl
  have hahead : ahead (heading (objectOf [variableText "x", controlsText, codeText "y"])).2 =
      [variableText "x", controlsText, codeText "y"].flatMap SectionText.tokens ++
        ⟨.rightBrace, "\x7d", .origin⟩ :: [] := rfl
  obtain ⟨o, u, hobject, -, -, -, -, hlists⟩ := sections_in_order rfl hheading hahead rfl hreads (by decide)
  obtain ⟨hglobals, -⟩ := hlists hcode
  refine ⟨[a, b, c], o, u, hreads, hobject, ?_⟩
  rw [hglobals]
  simp [hnames, hnames', hnames'', hd, hdeclared]

theorem names_of_run (xs : List SectionText) (names : List String)
    (h : (object (objectOf xs)).1.toOption.map (fun o => (codeList o.code CodeSection.globals).map Variable.name) =
      some names) :
    ∃ o u, object (objectOf xs) = (.ok o, u) ∧ (codeList o.code CodeSection.globals).map Variable.name = names := by
  rcases hrun : object (objectOf xs) with ⟨fault | o, u⟩
  · rw [hrun] at h
    cases h
  · rw [hrun] at h
    exact ⟨o, u, rfl, Option.some.inj h⟩

/-- Variables behind a section that is passed over are passed over with it, and of two CODE sections the first is
dropped. -/
theorem variables_lost :
    (∃ found o u, List.Forall₂ (SectionText.ReadsTo {}) [controlsText, variableText "x"] found ∧
      object (objectOf [controlsText, variableText "x"]) = (.ok o, u) ∧
      (found.flatMap ObjectSection.globals?).map Variable.name = ["x"] ∧
      (codeList o.code CodeSection.globals).map Variable.name = []) ∧
    ∃ found o u, List.Forall₂ (SectionText.ReadsTo {}) [codeText "x", codeText "y"] found ∧
      object (objectOf [codeText "x", codeText "y"]) = (.ok o, u) ∧
      ((found.filterMap ObjectSection.code?).flatMap CodeSection.globals).map Variable.name = ["x", "y"] ∧
      (codeList o.code CodeSection.globals).map Variable.name = ["y"] := by
  refine ⟨?_, ?_⟩
  · obtain ⟨a, ha, hnames⟩ := readsTo_of_run controlsText ([], none) (by decide +kernel)
    obtain ⟨b, hb, hnames'⟩ := readsTo_of_run (variableText "x") (["x"], none) (by decide +kernel)
    obtain ⟨o, u, hobject, hkept⟩ := names_of_run [controlsText, variableText "x"] [] (by decide +kernel)
    simp only [declaredNames, Prod.mk.injEq] at hnames hnames'
    exact ⟨[a, b], o, u, .cons ha (.cons hb .nil), hobject, by simp [hnames, hnames'], hkept⟩
  · obtain ⟨a, ha, hnames⟩ := readsTo_of_run (codeText "x") ([], some ["x"]) (by decide +kernel)
    obtain ⟨b, hb, hnames'⟩ := readsTo_of_run (codeText "y") ([], some ["y"]) (by decide +kernel)
    obtain ⟨o, u, hobject, hkept⟩ := names_of_run [codeText "x", codeText "y"] ["y"] (by decide +kernel)
    simp only [declaredNames, Prod.mk.injEq, Option.map_eq_some_iff] at hnames hnames'
    obtain ⟨-, c, hc, hdeclared⟩ := hnames
    obtain ⟨-, d, hd, hdeclared'⟩ := hnames'
    exact ⟨[a, b], o, u, .cons ha (.cons hb .nil), hobject, by simp [hc, hd, hdeclared, hdeclared'], hkept⟩

end Rule

end CalExport
