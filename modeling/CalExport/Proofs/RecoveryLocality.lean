import CalExport.Proofs.Layout.Declaration
import CalExport.Proofs.Rounds
import CalExport.Proofs.Window.Alone
import Mathlib.Data.List.Forall2
import Mathlib.Data.List.Infix

namespace CalExport

def staysInside : Kind → Bool
  | .leftBrace | .rightBrace => false
  | .keyword k => !k.isDeclarationStart
  | _ => true

/-- The words that a procedure begins with, and any tokens behind them: no brace and no word that begins a
declaration. -/
structure ProcedureText where
  words : List Token
  rest : List Token
  kind_words : words.map Token.kind ∈
    [[.keyword .procedure], [.keyword .function], [.keyword .local_, .keyword .procedure]]
  kind_rest : ∀ t ∈ rest, staysInside t.kind = true

namespace ProcedureText

def tokens (d : ProcedureText) : List Token := d.words ++ d.rest

/-- Read alone it is a procedure, up to its last token and without a diagnostic. -/
def ReadsTo (preferences : ParserPreferences) (d : ProcedureText) (p : Procedure) : Prop :=
  ∃ e, Rule.procedure (Rule.aloneOn preferences d.tokens) = (.ok p, e) ∧ e.atEnd = true ∧ e.diagnostics = #[]

theorem words_cases (d : ProcedureText) : ∃ first more, d.words = first :: more ∧
    ((first.kind = .keyword .procedure ∧ more = []) ∨ (first.kind = .keyword .function ∧ more = []) ∨
      first.kind = .keyword .local_ ∧ ∃ second, more = [second] ∧ second.kind = .keyword .procedure) := by
  have hkinds := d.kind_words
  simp only [List.mem_cons, List.not_mem_nil, or_false] at hkinds
  rcases hkinds with h | h | h
  · obtain ⟨first, more, hwords, hfirst, hmore⟩ := List.map_eq_cons_iff.1 h
    exact ⟨first, more, hwords, .inl ⟨hfirst, List.map_eq_nil_iff.1 hmore⟩⟩
  · obtain ⟨first, more, hwords, hfirst, hmore⟩ := List.map_eq_cons_iff.1 h
    exact ⟨first, more, hwords, .inr (.inl ⟨hfirst, List.map_eq_nil_iff.1 hmore⟩)⟩
  · obtain ⟨first, more, hwords, hfirst, hmore⟩ := List.map_eq_cons_iff.1 h
    obtain ⟨second, none, rfl, hsecond, hnone⟩ := List.map_eq_cons_iff.1 hmore
    obtain rfl := List.map_eq_nil_iff.1 hnone
    exact ⟨first, _, hwords, .inr (.inr ⟨hfirst, second, rfl, hsecond⟩)⟩

def begins : Kind → Bool
  | .keyword .procedure | .keyword .function | .keyword .local_ => true
  | _ => false

theorem begins_next (d : ProcedureText) (more : List Token) : begins (Rule.nextKind (d.tokens ++ more)) = true := by
  obtain ⟨first, rest, hwords, hcases⟩ := d.words_cases
  rw [tokens, hwords]
  show begins first.kind = true
  rcases hcases with ⟨hkind, -⟩ | ⟨hkind, -⟩ | ⟨hkind, -⟩ <;> rw [hkind] <;> rfl

theorem not_brace (d : ProcedureText) {t : Token} (ht : t ∈ d.tokens) : t.kind ≠ .leftBrace ∧ t.kind ≠ .rightBrace := by
  rcases List.mem_append.1 ht with ht | ht
  · obtain ⟨first, rest, hwords, hcases⟩ := d.words_cases
    rw [hwords] at ht
    rcases hcases with ⟨hkind, rfl⟩ | ⟨hkind, rfl⟩ | ⟨hkind, second, rfl, hsecond⟩ <;>
      simp only [List.mem_cons, List.not_mem_nil, or_false] at ht <;> grind
  · have hinside := d.kind_rest t ht
    refine ⟨?_, ?_⟩ <;> intro hkind <;> rw [hkind] at hinside <;> cases hinside

end ProcedureText

namespace Rule

open ProcedureText

variable {s t v : Parser} {more : List Token} {preferences : ParserPreferences} {depth : Nat}

theorem fences_of_begins {κ : Kind} (h : begins κ = true) : fences κ = true := by
  unfold begins at h
  split at h <;> first | rfl | cases h

/-- A procedure may end in front of these kinds. -/
theorem closes_ofAhead (preferences : ParserPreferences) {l : List Token} (h : ahead s = l ++ more) (hmore : fences (nextKind more) = true) :
    (Window.ofAhead preferences h).Closes where
  toEnds := Window.ends_ofAhead h (forall_fences (p := fun κ => goesOn κ = false) rfl rfl rfl rfl rfl _ hmore)
  noVariables i hi := by
    rw [Window.second_of_edge h hi]
    exact forall_fences (p := fun κ => κ ≠ .keyword .var) nofun nofun nofun nofun nofun _ hmore
  stops a b hmeets ha := by
    have hkind : b.peek.kind = nextKind more := by
      rw [hmeets.peek_second]
      exact Window.second_of_edge h (hmeets.edge ha)
    have hends : ∀ κ, fences κ = true → b.peek.kind = κ → variablesEnd b = true := by
      apply forall_fences <;> intro hb <;> simp [variablesEnd, hb, Keyword.isDeclarationStart]
    rw [variableHead, if_pos (hends _ hmore hkind)]

/-- There are no braces to be counted. -/
theorem braceDepth_of_flat {W : Window} {e : Parser} (h : Meets W e t) (hdeep : W.deep ≠ 0)
    (hflat : ∀ i < e.position, (W.first i).kind ≠ .leftBrace ∧ (W.first i).kind ≠ .rightBrace) : e.braceDepth = 0 := by
  have hdepth : ∀ n, n ≤ e.position → depthAt W.first n = 0 := by
    intro n
    induction n with
    | zero => exact fun _ => rfl
    | succ n ih =>
        intro hn
        obtain ⟨hopen, hclose⟩ := hflat n hn
        rw [depthAt, depthAfter_of_ne hopen hclose, ih (Nat.le_of_succ_le hn)]
  rcases h.tracked with hzero | htracked
  · exact absurd hzero hdeep
  · rw [htracked, hdepth _ (Nat.le_refl _)]

theorem declaration_of_begins (h : begins s.peek.kind = true) : attempt declaration s = attempt (.procedure <$> procedure) s := by
  unfold begins at h
  rw [declaration, attempt_liftM_bind, peek, look_bind_apply]
  split at h
  case h_4 => cases h
  all_goals
    rename_i hkind
    rw [hkind]
    rfl

theorem codeHead_of_begins (h : begins s.peek.kind = true) : codeHead s = .declaration := by
  unfold begins at h
  unfold codeHead documentationStarts
  split at h
  case h_4 => cases h
  all_goals
    rename_i hkind
    rw [hkind]
    rfl

theorem codeRound_of_begins (depth : Nat) (items : Array CodeItem) (h : begins s.peek.kind = true) {p : Procedure}
    (hrun : procedure s = (.ok p, t)) : codeRound depth items s = (.yield (items.push (.procedure p)), t) := by
  have hdeclaration : attempt declaration s = (.ok (.procedure p), t) := by
    rw [declaration_of_begins h, map_apply, hrun]
    rfl
  rw [codeRound, look_bind_apply, codeHead_of_begins h]
  dsimp only
  rw [here, look_bind_apply, bind_apply, hdeclaration]
  rfl

/-- A procedure that is well-formed alone is the same in its place. -/
theorem procedure_in_place {d : ProcedureText} {p : Procedure} (hreads : d.ReadsTo preferences p)
    (hahead : ahead s = d.tokens ++ more) (hmore : fences (nextKind more) = true) (hnesting : s.nesting = 0)
    (hdepth : s.braceDepth ≠ 0) :
    ∃ t, procedure s = (.ok p, t) ∧ ahead t = more ∧ t.braceDepth = s.braceDepth ∧ Forward s t := by
  obtain ⟨e, halone, hend, hclean⟩ := hreads
  have hsteady : Steady (attempt procedure) := (agree_procedure (R := .same) (k := 0) contained_same).steady
  have hforward : Forward (aloneOn preferences d.tokens) e := forward_of_steady hsteady halone
  have hpeek : begins (aloneOn preferences d.tokens).peek.kind = true := by
    have hnext := d.begins_next []
    rw [List.append_nil] at hnext
    rw [kind_peek, ahead, tokens_aloneOn hahead]
    exact hnext
  have hkind : (aloneOn preferences d.tokens).peek.kind ≠ .identifier := by
    intro hkind
    rw [hkind] at hpeek
    cases hpeek
  obtain ⟨t, hrun, hmeets⟩ := procedure_in_window (closes_ofAhead preferences hahead hmore)
    (Window.meets_ofAhead hahead hnesting) hkind halone (Window.lands_ofAhead hahead hclean hforward)
  have hforward' : Forward s t := forward_of_steady hsteady hrun
  refine ⟨t, hrun, Window.ahead_of_meets hahead hmeets hforward hend hforward'.tokens, ?_, hforward'⟩
  have hzero : e.braceDepth = 0 := by
    apply braceDepth_of_flat hmeets hdepth
    intro i hi
    have hlt : i < d.tokens.length := hmeets.passed i hi
    show ((aloneOn preferences d.tokens).tokenAt i).kind ≠ _ ∧ ((aloneOn preferences d.tokens).tokenAt i).kind ≠ _
    rw [tokenAt_aloneOn hahead hlt]
    exact d.not_brace (List.getElem_mem hlt)
  rw [hmeets.braceDepth, hzero, Nat.zero_add]
  rfl

/-- What may stand behind a procedure: another one, or the brace that closes the section. -/
theorem fences_next {ds : List ProcedureText} (hmore : fences (nextKind more) = true) :
    fences (nextKind (ds.flatMap tokens ++ more)) = true := by
  cases ds with
  | nil => exact hmore
  | cons d ds =>
      rw [List.flatMap_cons, List.append_assoc]
      exact fences_of_begins (d.begins_next _)

/-- Procedures one after the other. -/
theorem visits_procedures (depth : Nat) {ds : List ProcedureText} {ps : List Procedure}
    (hreads : List.Forall₂ (ReadsTo preferences) ds ps) (hmore : fences (nextKind more) = true)
    (items : Array CodeItem) (hahead : ahead s = ds.flatMap tokens ++ more) (hnesting : s.nesting = 0)
    (hdepth : s.braceDepth ≠ 0) :
    ∃ t, Visits (codeRound depth) items s (items ++ (ps.map CodeItem.procedure).toArray) t ∧ ahead t = more ∧
      t.braceDepth = s.braceDepth ∧ Forward s t := by
  induction hreads generalizing s items with
  | nil => exact ⟨s, by simpa using Visits.refl items s, hahead, rfl, Forward.refl s⟩
  | @cons d p ds ps hd _ ih =>
      rw [List.flatMap_cons, List.append_assoc] at hahead
      obtain ⟨u, hrun, hbehind, hbraces, hforward⟩ :=
        procedure_in_place hd hahead (fences_next hmore) hnesting hdepth
      have hround := codeRound_of_begins depth items (by rw [kind_peek, hahead]; exact d.begins_next _) hrun
      obtain ⟨t, hvisits, hend, hbraces', hforward'⟩ :=
        ih (items.push (.procedure p)) hbehind (hforward.nesting.trans hnesting) (hbraces ▸ hdepth)
      refine ⟨t, .next hround ?_, hend, hbraces'.trans hbraces, hforward.trans hforward'⟩
      rw [List.map_cons, List.toArray_cons, ← Array.append_assoc, ← Array.push_eq_append]
      exact hvisits

def listCloses : Nat → List Token → Bool
  | _, [] => false
  | depth, t :: l =>
    match t.kind with
    | .leftBracket => listCloses (depth + 1) l
    | .rightBracket => depth ≤ 1 || listCloses (depth - 1) l
    | _ => listCloses depth l

theorem skipAttributeRound_of_ahead {x : Token} (h : ahead s = x :: more) (depth : Nat) :
    skipAttributeRound depth s = (match x.kind with
      | .leftBracket => .yield (depth + 1)
      | .rightBracket => if depth ≤ 1 then .done 0 else .yield (depth - 1)
      | _ => .yield depth, (advance s).2) := by
  have hend := atEnd_of_ahead h
  have hround : skipAttributeRound depth s = (if s.atEnd = true then pure (.done depth) else do
      match (← advance).kind with
      | .leftBracket => return .yield (depth + 1)
      | .rightBracket => return if depth ≤ 1 then .done 0 else .yield (depth - 1)
      | _ => return .yield depth : Parse (ForInStep Nat)) s := rfl
  have hpeek : (advance s).1.kind = x.kind := congrArg Token.kind (peek_of_ahead h)
  rw [hround, if_neg (by simp [hend]), bind_apply, hpeek]
  cases x.kind <;> rfl

/-- An attribute list that is closed in front of a fence is passed in front of it. -/
theorem lays_closedList {F : Fence} {m depth : Nat} {l : List Token} (hl : F.tokens.toList.drop m = l ++ more)
    (hlimit : m + l.length ≤ F.limit) (h : listCloses depth l = true) :
    Lays F m (loop depth skipAttributeRound) fun _ _ => True := by
  induction l generalizing depth m with
  | nil => cases h
  | cons x l ih =>
      rintro s hs rfl
      have hahead : ahead s = x :: (l ++ more) := by
        rw [ahead, hs.tokens, hl, List.cons_append]
      rw [List.length_cons] at hlimit
      obtain ⟨hwithin, hposition⟩ := hs.advance (by omega)
      have hnext : ∀ d, listCloses d l = true → Within F (loop d skipAttributeRound (advance s).2).2 ∧
          s.position ≤ (loop d skipAttributeRound (advance s).2).2.position ∧ (F.InOrder → True) := by
        intro d hd
        have hrest : F.tokens.toList.drop (s.position + 1) = l ++ more := by
          rw [← List.drop_drop, hl, List.cons_append, List.drop_succ_cons, List.drop_zero]
        obtain ⟨hin, hle, -⟩ := ih hrest (by omega) hd _ hwithin hposition
        exact ⟨hin, by omega, fun _ => trivial⟩
      rw [(grammarLoop_progresses .skipAttributes).unrolls, skipAttributeRound_of_ahead hahead]
      unfold listCloses at h
      split at h
      · exact hnext _ h
      · by_cases hdepth : depth ≤ 1
        · rw [if_pos hdepth]
          exact ⟨hwithin, Nat.le_of_lt (hposition ▸ Nat.lt_succ_self _), fun _ => trivial⟩
        · rw [if_neg hdepth]
          rw [decide_eq_false hdepth, Bool.false_or] at h
          exact hnext _ h
      · exact hnext _ h

theorem lays_closedAttributes {F : Fence} {m : Nat} {l : List Token} (hl : F.tokens.toList.drop m = l ++ more)
    (hlimit : m + l.length ≤ F.limit) (h : listCloses 0 l = true) : Lays F m skipAttributes fun _ _ => True := by
  apply Lays.here
  apply Lays.bind (lays_closedList hl hlimit h)
  intro _ k _ _
  apply Lays.look
  intro passed
  exact (Lays.noted _).mono fun _ _ _ _ _ => trivial

theorem length_le_of_ahead {l : List Token} (hahead : ahead s = l ++ more) : l.length + s.position ≤ s.tokens.size := by
  have hlength := congrArg List.length hahead
  have hplace := s.position_le
  rw [ahead, List.length_drop, List.length_append, Array.length_toList] at hlength
  omega

theorem fences_behind {l : List Token} (hahead : ahead s = l ++ more) (hmore : fences (nextKind more) = true) :
    fences (s.tokenAt (l.length + s.position)).kind = true := by
  rw [kind_tokenAt_of_ahead hahead]
  exact hmore

theorem apart_behind {d : ProcedureText} (hahead : ahead s = d.tokens ++ more)
    (hends : (nextKind more).keyword? ≠ none → ∀ t ∈ d.tokens.getLast?, leadsOn t = false) (i : Nat)
    (hi : i + 1 = d.tokens.length + s.position) (hleads : leadsOn (s.tokenAt i) = true) :
    (s.tokenAt (d.tokens.length + s.position)).kind.keyword? = none := by
  rw [kind_tokenAt_of_ahead hahead]
  have hlt : d.tokens.length - 1 < d.tokens.length := by
    obtain ⟨first, rest, hwords, -⟩ := d.words_cases
    simp [tokens, hwords]
  rw [show i = d.tokens.length - 1 + s.position by omega, tokenAt_of_ahead hahead hlt] at hleads
  by_contra hkeyword
  have hlast := hends hkeyword d.tokens[d.tokens.length - 1] (by simp [List.getLast?_eq_getElem?, hlt])
  rw [hlast] at hleads
  cases hleads

theorem flat_behind {d : ProcedureText} (hahead : ahead s = d.tokens ++ more) (i : Nat) (hi : s.position ≤ i)
    (hlt : i < d.tokens.length + s.position) :
    (s.tokenAt i).kind ≠ .leftBrace ∧ (s.tokenAt i).kind ≠ .rightBrace := by
  rw [show i = i - s.position + s.position by omega, tokenAt_of_ahead hahead (by omega)]
  exact d.not_brace (List.getElem_mem _)

def fenceBehind (d : ProcedureText) (hahead : ahead s = d.tokens ++ more) (hmore : fences (nextKind more) = true)
    (hends : (nextKind more).keyword? ≠ none → ∀ t ∈ d.tokens.getLast?, leadsOn t = false) : Fence where
  toCursor := s.toCursor
  limit := d.tokens.length + s.position
  position_le_limit := Nat.le_add_left _ _
  limit_le := length_le_of_ahead hahead
  fenced := fences_behind hahead hmore
  apart := apart_behind hahead hends
  flat _ := flat_behind hahead
  earlier := s.diagnostics

theorem appends_codeRound (depth : Nat) : Appends (codeRound depth) := by
  intro items s
  simp only [codeRound, look_bind_apply]
  cases codeHead s with
  | stop => simp [pure_apply]
  | globals => rfl
  | attributes => rfl
  | documentation => rfl
  | declaration =>
      dsimp only
      rw [here, look_bind_apply, look_bind_apply, bind_apply, bind_apply]
      cases (attempt declaration s).1 with
      | ok item => rfl
      | error fault => rfl

/-- Only a brace or the end of the input ends the rounds. -/
theorem codeRound_yields (depth : Nat) (h : codeHead s ≠ .stop) :
    ∃ items, codeRound depth #[] s = (.yield items, (codeRound depth #[] s).2) := by
  rw [codeRound, look_bind_apply]
  cases hhead : codeHead s with
  | stop => exact absurd hhead h
  | globals => exact ⟨_, rfl⟩
  | attributes => exact ⟨_, rfl⟩
  | documentation => exact ⟨_, rfl⟩
  | declaration =>
      dsimp only
      rw [here, look_bind_apply, bind_apply]
      cases (attempt declaration s).1 with
      | ok item => exact ⟨_, rfl⟩
      | error fault => exact ⟨_, rfl⟩

/-- The attribute lists that the rounds from `start` on come to among some tokens are closed among them. -/
def ClosesLists (depth : Nat) (start : Parser) (l more : List Token) : Prop :=
  ∀ items v inside, Visits (codeRound depth) #[] start items v → inside <:+ l → ahead v = inside ++ more →
    nextKind inside = .leftBracket → listCloses 0 inside = true

theorem codeHead_ne_stop {x : Token} {l : List Token} (h : ahead s = x :: l) (hx : x.kind ≠ .rightBrace) :
    codeHead s ≠ .stop := by
  have heof := kind_of_mem_ahead (h ▸ List.mem_cons_self : x ∈ ahead s)
  rw [codeHead, peek_of_ahead h]
  split
  · exact absurd ‹_› heof
  · exact absurd ‹_› hx
  · rintro ⟨⟩
  · rintro ⟨⟩
  · split <;> rintro ⟨⟩

section

variable {d : ProcedureText} {start : Parser} {items : Array CodeItem} (hahead : ahead s = d.tokens ++ more)
  (hmore : fences (nextKind more) = true)
  (hends : (nextKind more).keyword? ≠ none → ∀ t ∈ d.tokens.getLast?, leadsOn t = false)

theorem ahead_of_within (hv : Within (fenceBehind d hahead hmore hends) v) :
    ahead v = d.tokens.drop (v.position - s.position) ++ more := by
  have hle : v.position ≤ d.tokens.length + s.position := hv.le_limit
  have hge : s.position ≤ v.position := hv.start_le
  have htokens : v.tokens = s.tokens := hv.tokens
  rw [ahead, htokens, show v.position = s.position + (v.position - s.position) by omega, ← List.drop_drop, ← ahead,
    hahead, List.drop_append_of_le_length (by omega), Nat.add_sub_cancel_left]

/-- A round that begins in front of the fence ends there, too. -/
theorem round_within (hdepth : s.braceDepth ≤ depth) (hlists : ClosesLists depth start d.tokens more)
    (hvisits : Visits (codeRound depth) #[] start items v) (hv : Within (fenceBehind d hahead hmore hends) v)
    (hlt : v.position < d.tokens.length + s.position) :
    ∃ found t, codeRound depth #[] v = (.yield found, t) ∧ Within (fenceBehind d hahead hmore hends) t := by
  have hge : s.position ≤ v.position := hv.start_le
  have hrest := ahead_of_within hahead hmore hends hv
  obtain ⟨x, l, hdrop⟩ : ∃ x l, d.tokens.drop (v.position - s.position) = x :: l := by
    apply List.exists_cons_of_ne_nil
    rw [Ne, List.drop_eq_nil_iff]
    omega
  have hx : x ∈ d.tokens := List.mem_of_mem_drop (hdrop ▸ List.mem_cons_self)
  have hholds : Fence.Holds (fenceBehind d hahead hmore hends) depth v.position := by
    refine ⟨.inr hlt, fun hkind => ?_, fun _ => hdepth⟩
    have htokens : s.tokens.toList.drop v.position = d.tokens.drop (v.position - s.position) ++ more := by
      rw [← hrest, ahead, hv.tokens]
      rfl
    apply lays_closedAttributes htokens
    · rw [List.length_drop]
      show _ ≤ d.tokens.length + s.position
      omega
    · apply hlists items v _ hvisits (List.drop_suffix _ _) hrest
      rw [← hv.peek, kind_peek, hrest, hdrop] at hkind
      rw [hdrop]
      exact hkind
  have hnone : (fenceBehind d hahead hmore hends).InOrder →
      CodeRows (fenceBehind d hahead hmore hends).toCursor v.position v.position (#[] : Array CodeItem).toList :=
    fun _ => .nil
  obtain ⟨hwithin, -, -⟩ := lays_codeRound (Nat.le_refl _) hholds hnone v hv rfl
  obtain ⟨found, hround⟩ := codeRound_yields depth
    (codeHead_ne_stop (hrest.trans (by rw [hdrop, List.cons_append])) (d.not_brace hx).2)
  exact ⟨found, _, hround, hwithin⟩

theorem visits_within (hdepth : s.braceDepth ≤ depth) (hlists : ClosesLists depth start d.tokens more)
    (hvisits : Visits (codeRound depth) #[] start items v) (hv : Within (fenceBehind d hahead hmore hends) v) :
    ∃ extra t, Visits (codeRound depth) items v (items ++ extra) t ∧ Within (fenceBehind d hahead hmore hends) t ∧
      t.position = d.tokens.length + s.position := by
  -- Each round comes closer to the fence.
  induction hleft : d.tokens.length + s.position - v.position using Nat.strongRecOn generalizing v items with
  | ind n ih =>
      rcases Nat.lt_or_eq_of_le hv.le_limit with hlt | heq
      · obtain ⟨found, u, hround, hu⟩ := round_within hahead hmore hends hdepth hlists hvisits hv hlt
        have hlt' : v.position < d.tokens.length + s.position := hlt
        have hpass := (grammarLoop_progresses (.codeItems depth) _ _ _ _ hround).2
        have hnext := (appends_codeRound depth).yield hround items
        obtain ⟨extra, t, hmore', ht, hend⟩ := ih _ (by omega) (hvisits.trans (.next hnext (.refl _ _))) hu rfl
        refine ⟨found ++ extra, t, .next hnext ?_, ht, hend⟩
        rw [← Array.append_assoc]
        exact hmore'
      · exact ⟨#[], v, by simpa using Visits.refl items v, hv, heq⟩

end

/-- Whatever a broken declaration is, the rounds that it takes end right behind it. -/
theorem visits_broken {d : ProcedureText} {start : Parser} {items : Array CodeItem}
    (hahead : ahead s = d.tokens ++ more) (hinside : more ≠ []) (hmore : fences (nextKind more) = true)
    (hends : (nextKind more).keyword? ≠ none → ∀ t ∈ d.tokens.getLast?, leadsOn t = false)
    (hdepth : s.braceDepth ≤ depth) (hlists : ClosesLists depth start d.tokens more)
    (hstart : Visits (codeRound depth) #[] start items s) :
    ∃ extra t, Visits (codeRound depth) items s (items ++ extra) t ∧ ahead t = more ∧ t.braceDepth = s.braceDepth ∧
      Forward s t := by
  have hwithin : Within (fenceBehind d hahead hmore hends) s :=
    ⟨rfl, rfl, Nat.le_refl _, Nat.le_add_left _ _, fun _ => rfl, fun _ _ h => .inl h⟩
  obtain ⟨extra, t, hvisits, ht, hend⟩ := visits_within hahead hmore hends hdepth hlists hstart hwithin
  have hbehind : ahead t = more := by
    rw [ahead_of_within hahead hmore hends ht, hend, Nat.add_sub_cancel, List.drop_length, List.nil_append]
  have hlimit : t.position < t.tokens.size := by
    have hpos := List.length_pos_iff.2 hinside
    rw [← hbehind, ahead, List.length_drop, Array.length_toList] at hpos
    omega
  refine ⟨extra, t, hvisits, hbehind, ht.level ?_, ?_⟩
  · rw [hend, ht.tokens] at hlimit
    exact hlimit
  · exact hvisits.forward fun items => (agree_codeRound (R := .same) (k := 0) trivial depth items).steady

theorem codeSection_of_visits {items : Array CodeItem} {u : Parser} (hcode : s.peek.kind = .keyword .code)
    (hopening : (advance s).2.peek.kind = .leftBrace)
    (hvisits : Visits (codeRound (skip 2 s).braceDepth) #[] (skip 2 s) items u) (hclosing : u.peek.kind = .rightBrace) :
    codeSection s = (.ok (.ofItems items.toList ((advance u).2.spanFrom s.position)), (advance u).2) := by
  have hstop : codeRound (skip 2 s).braceDepth items u = (.done items, u) := by
    rw [codeRound, look_bind_apply, codeHead, hclosing]
    rfl
  have hunrolls := (grammarLoop_progresses (.codeItems (skip 2 s).braceDepth)).unrolls
  have hitems : codeItems (advance (advance s).2).2.braceDepth (advance (advance s).2).2 = (items.toList, u) := by
    show codeItems (skip 2 s).braceDepth (skip 2 s) = _
    rw [codeItems, bind_apply, hvisits.loop_eq hunrolls, hunrolls, hstop]
    rfl
  show attempt codeSection s = _
  rw [codeSection, attempt_liftM_bind, here, look_bind_apply, attempt_bind_of_ok (expect_of_kind hcode),
    attempt_bind_of_ok (expect_of_kind hopening), attempt_liftM_bind, Rule.depth, look_bind_apply, attempt_liftM_bind,
    bind_apply, hitems, attempt_bind_of_ok (expect_of_kind hclosing)]
  rfl

/-- A CODE section of procedures one of which is broken, in any state: all others are what they are alone. The broken one
may be anything, but its last token does not lead on to the keyword behind it, and an attribute list that it begins where
a declaration is looked for ends inside of it. -/
theorem procedures_around_broken {code opening closing : Token} {before after : List ProcedureText}
    {broken : ProcedureText} {ps qs : List Procedure} {post : List Token} (hnesting : s.nesting = 0)
    (hcode : code.kind = .keyword .code) (hopening : opening.kind = .leftBrace) (hclosing : closing.kind = .rightBrace)
    (hahead : ahead s = code :: opening :: ((before ++ broken :: after).flatMap tokens ++ closing :: post))
    (hbefore : List.Forall₂ (ReadsTo preferences) before ps) (hafter : List.Forall₂ (ReadsTo preferences) after qs)
    (hends : after ≠ [] → ∀ t ∈ broken.tokens.getLast?, leadsOn t = false)
    (hlists : ClosesLists (skip 2 s).braceDepth (skip 2 s) broken.tokens (after.flatMap tokens ++ closing :: post)) :
    ∃ found t extra, codeSection s = (.ok found, t) ∧ found.procedures = ps ++ extra ++ qs := by
  have hinside : ahead (advance s).2 = opening :: _ := ahead_advance hahead
  have hstart : ahead (skip 2 s) = _ := ahead_advance hinside
  have hdepth : (skip 2 s).braceDepth ≠ 0 := by
    show (advance (advance s).2).2.braceDepth ≠ 0
    rw [braceDepth_advance hinside, peek_of_ahead hinside, hopening]
    exact Nat.succ_ne_zero _
  have hfences : fences (nextKind (closing :: post)) = true := by
    rw [nextKind, hclosing]
    rfl
  have hapart : (nextKind (after.flatMap tokens ++ closing :: post)).keyword? ≠ none →
      ∀ t ∈ broken.tokens.getLast?, leadsOn t = false := by
    -- A keyword behind the broken declaration begins another one.
    intro hkeyword
    apply hends
    rintro rfl
    rw [List.flatMap_nil, List.nil_append, nextKind, hclosing] at hkeyword
    exact hkeyword rfl
  rw [List.flatMap_append, List.flatMap_cons, List.append_assoc, List.append_assoc] at hstart
  obtain ⟨v, hfront, hv, hbraces, hforward⟩ := visits_procedures (skip 2 s).braceDepth hbefore
    (fences_of_begins (broken.begins_next _)) #[] hstart ((nesting_skip 2 s).trans hnesting) hdepth
  obtain ⟨extra, w, hbroken, hw, hbraces', hforward'⟩ := visits_broken hv (by simp) (fences_next hfences)
    hapart (Nat.le_of_eq hbraces) hlists hfront
  obtain ⟨u, hback, hu, -, -⟩ := visits_procedures (skip 2 s).braceDepth hafter hfences _ hw
    (hforward'.nesting.trans (hforward.nesting.trans ((nesting_skip 2 s).trans hnesting)))
    (by rwa [hbraces', hbraces])
  refine ⟨_, _, extra.toList.filterMap CodeItem.procedure?, codeSection_of_visits ?_ ?_
    (hfront.trans (hbroken.trans hback)) ?_, ?_⟩
  · rw [peek_of_ahead hahead, hcode]
  · rw [peek_of_ahead hinside, hopening]
  · rw [peek_of_ahead hu, hclosing]
  · simp [CodeSection.ofItems, List.filterMap_map, Function.comp_def, CodeItem.procedure?]

/-- `PROCEDURE B();BEGIN END;`. -/
def emptyText : ProcedureText where
  words := [⟨.keyword .procedure, "PROCEDURE", .origin⟩]
  rest := [⟨.identifier, "B", .origin⟩, ⟨.leftParen, "(", .origin⟩, ⟨.rightParen, ")", .origin⟩,
    ⟨.semicolon, ";", .origin⟩, ⟨.keyword .begin_, "BEGIN", .origin⟩, ⟨.keyword .end_, "END", .origin⟩,
    ⟨.semicolon, ";", .origin⟩]
  kind_words := by decide
  kind_rest := by decide

def listedText : ProcedureText where
  words := [⟨.keyword .procedure, "PROCEDURE", .origin⟩]
  rest := [⟨.identifier, "A", .origin⟩, ⟨.leftParen, "(", .origin⟩, ⟨.rightParen, ")", .origin⟩,
    ⟨.semicolon, ";", .origin⟩, ⟨.leftBracket, "[", .origin⟩, ⟨.identifier, "x", .origin⟩,
    ⟨.rightBracket, "]", .origin⟩]
  kind_words := by decide
  kind_rest := by decide

def sectionOf (ds : List ProcedureText) : Parser :=
  aloneOn {} (⟨.keyword .code, "CODE", .origin⟩ :: ⟨.leftBrace, "\x7b", .origin⟩ ::
    (ds.flatMap tokens ++ [⟨.rightBrace, "\x7d", .origin⟩]))

def nameAndSpan (p : Procedure) : String × Text.Span := (p.name, p.span)

theorem emptyText_reads : ∃ p, emptyText.ReadsTo {} p ∧ nameAndSpan p = ("B", .origin) := by
  have hrun : (procedure (aloneOn {} emptyText.tokens)).1.toOption.map nameAndSpan = some ("B", .origin) ∧
      (procedure (aloneOn {} emptyText.tokens)).2.atEnd = true ∧
      (procedure (aloneOn {} emptyText.tokens)).2.diagnostics = #[] := by decide +kernel
  rcases hread : procedure (aloneOn {} emptyText.tokens) with ⟨fault | p, e⟩
  · rw [hread] at hrun
    cases hrun.1
  · rw [hread] at hrun
    exact ⟨p, ⟨e, hread, hrun.2⟩, Option.some.inj hrun.1⟩

theorem procedures_around_broken_listed : ∃ p found t extra, emptyText.ReadsTo {} p ∧
    codeSection (sectionOf [emptyText, listedText, emptyText]) = (.ok found, t) ∧
      found.procedures = [p] ++ extra ++ [p] := by
  obtain ⟨p, hp, -⟩ := emptyText_reads
  have hreads : List.Forall₂ (ReadsTo {}) [emptyText] [p] := .cons hp .nil
  have hlists : ClosesLists 1 (skip 2 (sectionOf [emptyText, listedText, emptyText])) listedText.tokens
      ([emptyText].flatMap tokens ++ [⟨.rightBrace, "\x7d", .origin⟩]) := by
    intro items v inside _ hinside _ hkind
    have hlists : ∀ l ∈ listedText.tokens.tails, nextKind l = .leftBracket → listCloses 0 l = true := by decide
    exact hlists inside ((List.mem_tails _ _).2 hinside) hkind
  have hbroken := procedures_around_broken (s := sectionOf [emptyText, listedText, emptyText]) rfl rfl rfl rfl rfl
    hreads hreads (by decide) hlists
  obtain ⟨found, t, extra, hsection, hprocedures⟩ := hbroken
  exact ⟨p, found, t, extra, hp, hsection, hprocedures⟩

def memberText : ProcedureText where
  words := [⟨.keyword .procedure, "PROCEDURE", .origin⟩]
  rest := [⟨.identifier, "A", .origin⟩, ⟨.leftParen, "(", .origin⟩, ⟨.rightParen, ")", .origin⟩,
    ⟨.semicolon, ";", .origin⟩, ⟨.keyword .begin_, "BEGIN", .origin⟩, ⟨.identifier, "x", .origin⟩,
    ⟨.dot, ".", .origin⟩]
  kind_words := by decide
  kind_rest := by decide

def modifierText : ProcedureText where
  words := [⟨.keyword .procedure, "PROCEDURE", .origin⟩]
  rest := [⟨.identifier, "A", .origin⟩, ⟨.leftParen, "(", .origin⟩, ⟨.rightParen, ")", .origin⟩,
    ⟨.semicolon, ";", .origin⟩, ⟨.identifier, "internal", .point ⟨14, 1, 15⟩⟩]
  kind_words := by decide
  kind_rest := by decide

def openListText : ProcedureText where
  words := [⟨.keyword .procedure, "PROCEDURE", .origin⟩]
  rest := [⟨.identifier, "A", .origin⟩, ⟨.leftParen, "(", .origin⟩, ⟨.rightParen, ")", .origin⟩,
    ⟨.semicolon, ";", .origin⟩, ⟨.leftBracket, "[", .origin⟩]
  kind_words := by decide
  kind_rest := by decide

/-- Without the two conditions a declaration may cost the next one its place. -/
theorem procedures_lost_behind_broken : ∃ p, emptyText.ReadsTo {} p ∧
    ∀ broken ∈ [memberText, modifierText, openListText],
      ¬ ∃ found t, codeSection (sectionOf [broken, emptyText]) = (.ok found, t) ∧ p ∈ found.procedures := by
  obtain ⟨p, hp, hspan⟩ := emptyText_reads
  have hlost : ∀ broken ∈ [memberText, modifierText, openListText], ∀ l ∈
      (codeSection (sectionOf [broken, emptyText])).1.toOption.map (·.procedures.map nameAndSpan),
      ("B", .origin) ∉ l := by decide +kernel
  refine ⟨p, hp, ?_⟩
  rintro broken hbroken ⟨found, t, hsection, hfound⟩
  apply hlost broken hbroken (found.procedures.map nameAndSpan)
  · rw [hsection]
    rfl
  · exact hspan ▸ List.mem_map_of_mem hfound

end Rule

end CalExport
