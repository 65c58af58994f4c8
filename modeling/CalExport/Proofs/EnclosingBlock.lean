import CalExport.Proofs.ClosingBraces
import CalExport.Proofs.RawText
import CalExport.Proofs.Window.Declaration

namespace CalExport.Rule

variable {α β : Type} {s t u : Parser}

/-- From `s` to `t` no brace is closed that was open at `s`. -/
def StaysInside (s t : Parser) : Prop := ∃ n, t.toCursor = s.after n ∧ KeepsDepth s.braceDepth s.toCursor n

theorem KeepsDepth.mono {base base' n : Nat} {c : Cursor} (h : KeepsDepth base c n) (hle : base' ≤ base) :
    KeepsDepth base' c n where
  depth k hk := Nat.le_trans hle (h.depth k hk)
  brace k hk hclose := Nat.lt_of_le_of_lt hle (h.brace k hk hclose)
  position := h.position

namespace StaysInside

theorem of_cursor (h : t.toCursor = s.toCursor) : StaysInside s t := ⟨0, h, .zero (Nat.le_refl _)⟩

theorem refl (s : Parser) : StaysInside s s := of_cursor rfl

theorem braceDepth_le (h : StaysInside s t) : s.braceDepth ≤ t.braceDepth := by
  obtain ⟨n, hcursor, hkeeps⟩ := h
  rw [hcursor]
  exact hkeeps.depth n (Nat.le_refl n)

theorem position_le (h : StaysInside s t) : s.position ≤ t.position := by
  obtain ⟨n, hcursor, hkeeps⟩ := h
  rw [hcursor, hkeeps.position]
  exact Nat.le_add_right _ n

theorem trans (h : StaysInside s t) (g : StaysInside t u) : StaysInside s u := by
  have hle := h.braceDepth_le
  obtain ⟨m, ht, hm⟩ := h
  obtain ⟨n, hu, hn⟩ := g
  rw [ht] at hu hn hle
  exact ⟨m + n, by rw [hu, Cursor.after_add], hm.trans (hn.mono hle)⟩

/-- Tokens without a closing brace stay inside every block. -/
theorem of_spares (h : ∃ n, t.toCursor = s.after n ∧ SparesBraces s.toCursor n) : StaysInside s t := by
  obtain ⟨n, hcursor, hspares⟩ := h
  exact ⟨n, hcursor, hspares.keepsDepth (Nat.le_refl _)⟩

theorem of_agree {p : α → Prop} {x : Parse α} {P : Parser → Prop} (h : Agree (.sparing s.toCursor) P p x x)
    (hs : P s) : StaysInside s (x s).2 := of_spares (spares_of_agree h hs)

theorem rule_bind {x : Rule α} {f : α → Rule β} (hx : StaysInside s (x s).2)
    (hf : ∀ a t, x s = (.ok a, t) → StaysInside t (f a t).2) : StaysInside s ((x >>= f) s).2 := by
  rcases hrun : x s with ⟨fault | a, t⟩
  · rw [hrun] at hx
    have hbind : (x >>= f) s = (.error fault, t) := attempt_bind_of_error hrun f
    rwa [hbind]
  · rw [hrun] at hx
    have hbind : (x >>= f) s = f a t := attempt_bind_of_ok hrun f
    rw [hbind]
    exact hx.trans (hf a t hrun)

/-- A rule that stays inside its block does so too when it fails and the rest of the item is passed over. -/
theorem withRecovery {recovery : List Kind} {rule : Rule α} (h : StaysInside s (rule s).2)
    (hopen : .leftBrace ∉ recovery) : StaysInside s (withRecovery recovery rule s).2 := by
  rcases hrun : rule s with ⟨fault | a, t⟩
  · rw [hrun] at h
    obtain ⟨u, n, hrecovered, -, -, hcursor, hkeeps, -⟩ :=
      item_recovery recovery hrun h.position_le h.braceDepth_le (.inr hopen)
    rw [hrecovered]
    obtain ⟨m, ht, hm⟩ := h
    rw [ht] at hcursor hkeeps
    exact ⟨m + n, by rw [hcursor, Cursor.after_add], hm.trans hkeeps⟩
  · rw [hrun] at h
    rwa [withRecovery_of_ok hrun]

theorem loop {round : α → Parse (ForInStep α)} (hround : Progresses round)
    (h : ∀ a s, StaysInside s (round a s).2) (a : α) (s : Parser) : StaysInside s (loop a round s).2 := by
  obtain ⟨b, t, hvisits, hdone⟩ := hround.loop_ends a s
  have hlast := h b t
  rw [hdone] at hlast
  refine trans ?_ hlast
  clear hdone hlast
  induction hvisits with
  | refl => exact refl _
  | @next a b c s t u hyield _ ih =>
      have hfirst := h a s
      rw [hyield] at hfirst
      exact hfirst.trans ih

end StaysInside

theorem stays_accept {κ : Kind} (heof : κ ≠ .eof) (hbrace : κ ≠ .rightBrace) (s : Parser) :
    StaysInside s (accept κ s).2 :=
  .of_agree (P := fun _ => True) (Agree.accept ⟨heof, fun h => absurd h hbrace⟩) trivial

theorem stays_variableRound (found : Array Variable) (s : Parser) : StaysInside s (variableRound found s).2 := by
  cases hhead : variableHead s with
  | stop =>
      rw [variableRound_of_stop hhead]
      exact .refl s
  | misnamed =>
      obtain ⟨heof, hbrace⟩ := kind_of_variableHead (s := s) (by rw [hhead]; rintro ⟨⟩)
      rw [variableRound_of_misnamed hhead]
      exact .of_agree (agree_skipMisnamed (k := s.left + 1) trivial)
        ⟨Nat.lt_succ_self s.left, heof, fun h => absurd h hbrace⟩
  | declared =>
      have hrule : StaysInside s (variableDeclaration s).2 :=
        .of_agree (agree_variableDeclaration (k := s.left + 1)) (Nat.lt_succ_self s.left)
      have htrial : StaysInside s (withRecovery variableRecovery variableDeclaration s).2 :=
        hrule.withRecovery (by decide)
      rw [variableRound_of_declared hhead, declaredRound, bind_apply]
      cases (withRecovery variableRecovery variableDeclaration s).1 <;> exact htrial

theorem stays_optionalVariables (s : Parser) : StaysInside s (optionalVariables s).2 := by
  have hvariables : optionalVariables s = (accept (.keyword .var) >>= fun found =>
      if found = true then variableBlock else pure []) s := rfl
  have hloop := StaysInside.loop (grammarLoop_progresses .variableBlock) stays_variableRound #[]
  rw [hvariables, bind_apply]
  have hvar : StaysInside s (accept (.keyword .var) s).2 := stays_accept (by rintro ⟨⟩) (by rintro ⟨⟩) s
  refine hvar.trans ?_
  split
  · exact hloop _
  · exact .refl _

theorem stays_triggerBody (s : Parser) : StaysInside s (triggerBody s).2 := by
  have hbody : triggerBody s = ((liftM optionalVariables : Rule (List Variable)) >>= fun locals =>
      body >>= fun statements => pure (locals, statements)) s := rfl
  rw [hbody]
  apply StaysInside.rule_bind (stays_optionalVariables s)
  intro locals t _
  apply StaysInside.rule_bind (.of_agree (agree_body (k := t.left + 1)) (Nat.lt_succ_self t.left))
  intro statements u _
  exact .refl u

/-- Whether no closing brace goes deeper than some tokens started, where `depth` braces are open in front of them. -/
def bracesHeld (depth : Nat) : List Token → Bool
  | [] => true
  | t :: rest => (t.kind != .rightBrace || decide (0 < depth)) && bracesHeld (Cursor.depthAfter depth t.kind) rest

theorem depthAfter_add {base depth : Nat} {κ : Kind} (h : κ = .rightBrace → 0 < depth) :
    Cursor.depthAfter (base + depth) κ = base + Cursor.depthAfter depth κ := by
  by_cases hclose : κ = .rightBrace
  · have hpos := h hclose
    rw [hclose]
    show base + depth - 1 = base + (depth - 1)
    omega
  · by_cases hopen : κ = .leftBrace
    · rw [hopen]
      rfl
    · rw [depthAfter_of_ne hopen hclose, depthAfter_of_ne hopen hclose]

theorem keepsDepth_of_held {l rest : List Token} {base depth : Nat} (h : ahead s = l ++ rest)
    (hdepth : s.braceDepth = base + depth) (hheld : bracesHeld depth l = true) :
    KeepsDepth base s.toCursor l.length := by
  induction l generalizing s depth with
  | nil => exact .zero (hdepth ▸ Nat.le_add_right _ _)
  | cons t l ih =>
      rw [bracesHeld, Bool.and_eq_true, Bool.or_eq_true, bne_iff_ne, decide_eq_true_eq] at hheld
      obtain ⟨hfirst, hrest⟩ := hheld
      have hclose : t.kind = .rightBrace → 0 < depth := fun heq => hfirst.resolve_left (· heq)
      have hone : KeepsDepth base s.toCursor 1 := by
        refine .one (hdepth ▸ Nat.le_add_right _ _) (atEnd_of_ahead h) ?_
        rw [peek_of_ahead h]
        intro heq
        have hpos := hclose heq
        omega
      have hnext : (advance s).2.braceDepth = base + Cursor.depthAfter depth t.kind := by
        rw [braceDepth_advance h, peek_of_ahead h, hdepth, depthAfter_add hclose]
      have hmore := ih (ahead_advance h) hnext hrest
      rw [List.length_cons, Nat.add_comm]
      exact hone.trans hmore

theorem StaysInside.skip_of_held {l rest : List Token} (h : ahead s = l ++ rest) (hheld : bracesHeld 0 l = true) :
    StaysInside s (skip l.length s) :=
  ⟨l.length, toCursor_skip _ _, keepsDepth_of_held h rfl hheld⟩

theorem bracesHeld_of_none {l : List Token} (h : ∀ x ∈ l, x.kind ≠ .rightBrace) (depth : Nat) :
    bracesHeld depth l = true := by
  induction l generalizing depth with
  | nil => rfl
  | cons t l ih =>
      obtain ⟨ht, hl⟩ := List.forall_mem_cons.1 h
      rw [bracesHeld, ih hl, Bool.and_true, Bool.or_eq_true, bne_iff_ne]
      exact .inl ht

theorem stays_raw (h : bracesHeld 0 (rawText (ahead s)) = true) : StaysInside s (raw endsColumn s).2 := by
  obtain ⟨rest, hsplit, -⟩ := rawText_extent (ahead s)
  rw [raw_apply]
  exact .skip_of_held hsplit h

/-- Neither the name of a property nor its equals sign closes anything. -/
theorem stays_propertyHead {name rest : List Token} {equal : Token} (h : ahead s = name ++ equal :: rest)
    (hequal : equal.kind = .equal) (hname : ∀ x ∈ name, endsPropertyName x.kind = false) :
    StaysInside s (skip (name.length + 1) s) := by
  have hfront : ahead s = (name ++ [equal]) ++ rest := by rw [h, List.append_assoc]; rfl
  have hlength : (name ++ [equal]).length = name.length + 1 := List.length_append
  rw [← hlength]
  apply StaysInside.skip_of_held hfront
  apply bracesHeld_of_none
  intro x hx
  rcases List.mem_append.1 hx with hmem | hmem
  · exact (may_of_not_endsPropertyName (hname x hmem)).2
  · rw [List.mem_singleton.1 hmem, hequal]
    rintro ⟨⟩

theorem stays_propertyRest (start : Nat) (name : String) (h : triggerStarts s = false →
    bracesHeld 0 (rawText (ahead s)) = true) : StaysInside s (propertyRest start name s).2 := by
  have hend : ∀ t : Parser, StaysInside t (accept .semicolon t).2 := stays_accept (by rintro ⟨⟩) (by rintro ⟨⟩)
  cases hstarts : triggerStarts s with
  | false =>
      have hraw := stays_raw (h hstarts)
      rw [raw_apply] at hraw
      rw [propertyRest_of_text _ _ hstarts]
      exact hraw.trans (hend _)
  | true =>
      apply StaysInside.rule_bind
      · rw [propertyValue_of_trigger hstarts]
        exact .rule_bind (stays_triggerBody s) fun body t _ => .refl t
      · intro value t _
        exact hend t

/-- From every state. A property stays inside the block around it, whether it succeeds or fails, unless its value is raw
text with more closing braces than opening ones up to some token; and so do a column and a list of names, which are raw
text. -/
theorem values_stay_inside (s : Parser) :
    ((∀ p text, (property s).1 = .ok p → p.value = .text text →
      bracesHeld 0 (rawText (valueTokens (ahead s))) = true) → StaysInside s (property s).2) ∧
    (bracesHeld 0 (rawText (ahead s)) = true → StaysInside s (column s).2 ∧ StaysInside s (nameList s).2) := by
  refine ⟨?_, fun hheld => ⟨stays_raw hheld, stays_raw hheld⟩⟩
  intro hheld
  rcases property_cases s with ⟨fault, hfault⟩ | ⟨name, equal, rest, hsplit, hequal, hname, hrun⟩
  · rw [hfault]
    exact .refl s
  have hrest := ahead_skip_succ hsplit
  have hvalue : StaysInside (skip (name.length + 1) s) (property s).2 := by
    rw [hrun]
    apply stays_propertyRest
    intro htext
    have hresult := propertyRest_of_text s.position (nameText name) htext
    rw [← hrun] at hresult
    have htokens := hheld _ _ (congrArg Prod.fst hresult) rfl
    rwa [valueTokens_of_ahead hsplit hequal hname, ← hrest] at htokens
  exact (stays_propertyHead hsplit hequal hname).trans hvalue

def bracketedValue : Parser := (advance (.ofTokens #[⟨.leftBrace, "\x7b", .origin⟩, ⟨.identifier, "A", .origin⟩,
  ⟨.equal, "=", .origin⟩, ⟨.leftBrace, "\x7b", .origin⟩, ⟨.leftParen, "(", .origin⟩, ⟨.rightBrace, "\x7d", .origin⟩,
  ⟨.rightParen, ")", .origin⟩, ⟨.leftBracket, "[", .origin⟩, ⟨.identifier, "x", .origin⟩, ⟨.semicolon, ";", .origin⟩,
  ⟨.leftBrace, "\x7b", .origin⟩, ⟨.identifier, "y", .origin⟩, ⟨.rightBrace, "\x7d", .origin⟩,
  ⟨.rightBracket, "]", .origin⟩, ⟨.rightBrace, "\x7d", .origin⟩] {})).2

theorem values_stay_inside_bracketed :
    StaysInside bracketedValue (property bracketedValue).2 ∧ (property bracketedValue).2.position = 14 ∧
      StaysInside bracketedValue (column bracketedValue).2 ∧ (column bracketedValue).2.position = 14 := by
  have hproperty := (values_stay_inside bracketedValue).1 fun _ _ _ _ => by decide +kernel
  have hcolumn := (values_stay_inside bracketedValue).2 (by decide +kernel)
  exact ⟨hproperty, by decide +kernel, hcolumn.1, by decide +kernel⟩

def openValue : Parser := (advance (.ofTokens #[⟨.leftBrace, "\x7b", .origin⟩, ⟨.identifier, "A", .origin⟩,
  ⟨.equal, "=", .origin⟩, ⟨.leftParen, "(", .origin⟩, ⟨.rightBrace, "\x7d", .origin⟩] {})).2

/-- A parenthesis left open takes the brace of the enclosing block into the value. -/
theorem enclosing_brace_swallowed :
    openValue.braceDepth = 1 ∧ (property openValue).2.braceDepth = 0 ∧ (column openValue).2.braceDepth = 0 ∧
      (nameList openValue).2.braceDepth = 0 := by
  decide +kernel

end CalExport.Rule
