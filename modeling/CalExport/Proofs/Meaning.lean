import CalExport.Proofs.Covering
import CalExport.Proofs.Passing
import CalExport.Proofs.Window.Local

namespace CalExport.Rule

variable {α β : Type} {s t u : Parser} {e : Token} {n : Nat} {κ : Kind}

def tell : List Fault → Parser → Parser
  | [], s => s
  | fault :: faults, s => tell faults (report fault s).2

theorem tell_append (faults more : List Fault) (s : Parser) : tell (faults ++ more) s = tell more (tell faults s) := by
  induction faults generalizing s with
  | nil => rfl
  | cons fault faults ih => exact ih (report fault s).2

@[simp] theorem toCursor_tell (faults : List Fault) (s : Parser) : (tell faults s).toCursor = s.toCursor := by
  induction faults generalizing s with
  | nil => rfl
  | cons fault faults ih => exact (ih (report fault s).2).trans (toCursor_record _ s)

@[simp] theorem ahead_tell (faults : List Fault) (s : Parser) : ahead (tell faults s) = ahead s :=
  ahead_of_cursor (toCursor_tell faults s)

@[simp] theorem nesting_tell (faults : List Fault) (s : Parser) : (tell faults s).nesting = s.nesting := by
  induction faults generalizing s with
  | nil => rfl
  | cons fault faults ih => exact (ih (report fault s).2).trans (forward_record _ s).nesting

theorem forward_tell (faults : List Fault) (s : Parser) : Forward s (tell faults s) := by
  induction faults generalizing s with
  | nil => exact Forward.refl s
  | cons fault faults ih => exact (forward_record _ s).trans (ih (report fault s).2)

theorem eq_nil_of_tell {faults : List Fault} (h : (tell faults s).diagnostics = #[]) : faults = [] := by
  cases faults with
  | nil => rfl
  | cons fault faults => exact (ne_empty_of_forward (forward_tell faults _) (diagnostics_record_ne _ s) h).elim

/-- What is told of is in the diagnostics as long as there is room for it. -/
theorem diagnostics_tell {faults : List Fault} (hroom : s.diagnostics.size + faults.length ≤ maxDiagnostics) :
    (tell faults s).diagnostics = s.diagnostics ++ (faults.map Diagnostic.ofFault).toArray := by
  induction faults generalizing s with
  | nil => exact Array.append_empty.symm
  | cons fault faults ih =>
      rw [List.length_cons] at hroom
      obtain ⟨events, hrecord⟩ := record_of_room (s := s) (d := .ofFault fault) (by omega)
      have hdiagnostics : (report fault s).2.diagnostics = s.diagnostics.push (.ofFault fault) := by
        rw [report, hrecord]
      rw [tell, ih (by rw [hdiagnostics, Array.size_push]; omega), hdiagnostics]
      simp

/-- What a report leaves of a state depends on no more than the diagnostics in it. -/
theorem record_of_cursor (d : Diagnostic) (c : Cursor) (m : Nat) (s : Parser) :
    (record d { s with toCursor := c, nesting := m }).2 = { (record d s).2 with toCursor := c, nesting := m } := by
  unfold record
  dsimp only
  split
  · rfl
  · split <;> rfl

theorem advance_tell (faults : List Fault) (s : Parser) : (advance (tell faults s)).2 = tell faults (advance s).2 := by
  induction faults generalizing s with
  | nil => rfl
  | cons fault faults ih =>
      have hreport : (advance (report fault s).2).2 = (report fault (advance s).2).2 := by
        have hrecord := record_of_cursor (.ofFault fault) s.toCursor.next s.nesting s
        have hnesting : (record (.ofFault fault) s).2.nesting = s.nesting := (forward_record _ s).nesting
        show { (record (.ofFault fault) s).2 with toCursor := (record (.ofFault fault) s).2.toCursor.next } = _
        rw [toCursor_record]
        refine Eq.trans ?_ hrecord.symm
        rw [← hnesting]
      rw [tell, ih, hreport, tell]

theorem skip_tell (m : Nat) (faults : List Fault) (s : Parser) : skip m (tell faults s) = tell faults (skip m s) := by
  induction m generalizing s with
  | zero => rfl
  | succ m ih => rw [skip, advance_tell, ih, skip]

theorem tell_withNesting (faults : List Fault) (m : Nat) (s : Parser) :
    tell faults (s.withNesting m) = (tell faults s).withNesting m := by
  induction faults generalizing s with
  | nil => rfl
  | cons fault faults ih =>
      have hreport : (report fault (s.withNesting m)).2 = (report fault s).2.withNesting m := by
        have hrecord := record_of_cursor (.ofFault fault) s.toCursor m s
        refine Eq.trans hrecord ?_
        have hcursor : (record (.ofFault fault) s).2.toCursor = s.toCursor := toCursor_record _ s
        rw [← hcursor]
        rfl
      rw [tell, hreport, ih, tell]

@[simp] theorem freeLevels_tell (faults : List Fault) (s : Parser) : (tell faults s).freeLevels = s.freeLevels := by
  simp [Parser.freeLevels]

def runSpan (w : List Token) : Text.Span :=
  match w.head?, w.getLast? with
  | some first, some last => first.span.merge last.span
  | _, _ => .origin

theorem spanFrom_tell_skip {w more : List Token} (faults : List Fault) (h : ahead s = w ++ more) (hw : w ≠ []) :
    (tell faults (skip w.length s)).spanFrom s.position = runSpan w := by
  have hposition := position_skip h
  have hlength := List.length_pos_iff.2 hw
  have hfirst : s.tokenAt s.position = w[0] := by
    have hget := tokenAt_of_ahead h hlength
    rwa [Nat.zero_add] at hget
  have hlast : s.tokenAt (s.position + w.length - 1) = w[w.length - 1] := by
    rw [← tokenAt_of_ahead h (Nat.sub_lt hlength Nat.one_pos)]
    congr 1
    omega
  have htokenAt : ∀ i, (skip w.length s).tokenAt i = s.tokenAt i := by
    intro i
    rw [Cursor.tokenAt, Cursor.tokenAt, tokens_skip, eof_skip]
  rw [toCursor_tell, Cursor.spanFrom, if_neg (by omega), Cursor.previous, if_neg (by omega), htokenAt, htokenAt,
    hposition, hfirst, hlast, runSpan, List.head?_eq_getElem?, List.getLast?_eq_getElem?,
    List.getElem?_eq_getElem hlength, List.getElem?_eq_getElem (Nat.sub_lt hlength Nat.one_pos)]

theorem RulePasses.spanned {x : Rule (Text.Span → α)} {w more : List Token} {p : (Text.Span → α) → Prop}
    (h : RulePasses n x w more p) (hw : w ≠ []) :
    RulePasses n (Rule.spanned x) w more fun a => ∃ make, p make ∧ a = make (runSpan w) := by
  intro s hn hahead
  obtain ⟨make, hrun, hp⟩ := h.run hn hahead
  have hspan : (skip w.length s).spanFrom s.position = runSpan w := spanFrom_tell_skip [] hahead hw
  show okAnd _ (Rule.spanned x s).1 ∧ (Rule.spanned x s).2 = _
  rw [spanned_of_ok hrun, hspan]
  exact ⟨⟨make, hp, rfl⟩, rfl⟩

/-- How the tokens that are passed, those behind them, the faults that are told of and the result go together. -/
abbrev Meaning (α : Type) := List Token → List Token → List Fault → α → Prop

def Meaning.bind (M : Meaning α) (N : α → Meaning β) : Meaning β := fun w more faults b =>
  ∃ a u v told later, M u (v ++ more) told a ∧ N a v more later b ∧ w = u ++ v ∧ faults = told ++ later

def MeansAt (s : Parser) (x : Rule α) (M : Meaning α) : Prop :=
  ∀ a t, x s = (.ok a, t) ↔
    ∃ w more faults, ahead s = w ++ more ∧ t = tell faults (skip w.length s) ∧ M w more faults a

/-- The same from all states with `n` levels left, where `e` stands for the end of the input. -/
def Means (e : Token) (n : Nat) (x : Rule α) (M : Meaning α) : Prop :=
  ∀ s : Parser, s.eof = e → s.freeLevels = n → MeansAt s x M

namespace MeansAt

variable {x : Rule α} {f : α → Rule β} {M M' : Meaning α} {N : α → Meaning β}

theorem congr (h : MeansAt s x M)
    (hM : ∀ w more faults a, ahead s = w ++ more → (M w more faults a ↔ M' w more faults a)) :
    MeansAt s x M' := by
  intro a t
  rw [h a t]
  constructor
  · rintro ⟨w, more, faults, hahead, ht, hm⟩
    exact ⟨w, more, faults, hahead, ht, (hM w more faults a hahead).1 hm⟩
  · rintro ⟨w, more, faults, hahead, ht, hm⟩
    exact ⟨w, more, faults, hahead, ht, (hM w more faults a hahead).2 hm⟩

theorem of_eq {y : Rule α} (h : MeansAt s y M) (hx : x s = y s) : MeansAt s x M := by
  intro a t
  rw [hx]
  exact h a t

/-- A rule that fails here. -/
theorem of_error {fault : Fault} (h : x s = (.error fault, t))
    (hM : ∀ w more faults a, ahead s = w ++ more → ¬ M w more faults a) :
    MeansAt s x M := by
  intro a u
  rw [h]
  constructor
  · nofun
  · rintro ⟨w, more, faults, hahead, -, hm⟩
    exact absurd hm (hM w more faults a hahead)

/-- A rule that succeeds here, when its meaning allows nothing else. -/
theorem of_ok {a : α} {w more : List Token} {faults : List Fault} (h : x s = (.ok a, tell faults (skip w.length s)))
    (hahead : ahead s = w ++ more) (hm : M w more faults a)
    (honly : ∀ w' more' faults' a', ahead s = w' ++ more' → M w' more' faults' a' →
      w' = w ∧ faults' = faults ∧ a' = a) : MeansAt s x M := by
  intro b t
  rw [h]
  constructor
  · rintro ⟨⟩
    exact ⟨w, more, faults, hahead, rfl, hm⟩
  · rintro ⟨w', more', faults', hahead', rfl, hm'⟩
    obtain ⟨rfl, rfl, rfl⟩ := honly w' more' faults' b hahead' hm'
    rfl

theorem bind (hx : MeansAt s x M) (hf : ∀ a u, x s = (.ok a, u) → MeansAt u (f a) (N a)) :
    MeansAt s (x >>= f) (M.bind N) := by
  intro b t
  constructor
  · intro h
    obtain ⟨a, u, hfirst, hrest⟩ := exists_of_bind h
    obtain ⟨w, more, told, hahead, hu, hm⟩ := (hx a u).1 hfirst
    obtain ⟨v, rest, later, hahead', rfl, hn⟩ := (hf a u hfirst b t).1 hrest
    subst hu
    rw [ahead_tell, ahead_skip hahead] at hahead'
    subst hahead'
    refine ⟨w ++ v, rest, told ++ later, ?_, ?_, a, w, v, told, later, hm, hn, rfl, rfl⟩
    · rw [hahead, List.append_assoc]
    · rw [skip_tell, tell_append, List.length_append, skip_add]
  · rintro ⟨_, more, _, hahead, rfl, a, w, v, told, later, hm, hn, rfl, rfl⟩
    rw [List.append_assoc] at hahead
    have hfirst := (hx a _).2 ⟨w, v ++ more, told, hahead, rfl, hm⟩
    rw [bind_of_ok hfirst]
    refine (hf a _ hfirst b _).2 ⟨v, more, later, ?_, ?_, hn⟩
    · rw [ahead_tell, ahead_skip hahead]
    · rw [skip_tell, tell_append, List.length_append, skip_add]

theorem spanned {x : Rule (Text.Span → α)} {M : Meaning (Text.Span → α)} (hx : MeansAt s x M)
    (hw : ∀ w more faults make, M w more faults make → w ≠ []) :
    MeansAt s (Rule.spanned x) fun w more faults a => ∃ make, M w more faults make ∧ a = make (runSpan w) := by
  intro a t
  constructor
  · intro h
    obtain ⟨make, hrun, rfl⟩ := exists_of_spanned h
    obtain ⟨w, more, faults, hahead, rfl, hm⟩ := (hx make t).1 hrun
    refine ⟨w, more, faults, hahead, rfl, make, hm, ?_⟩
    rw [spanFrom_tell_skip faults hahead (hw w more faults make hm)]
  · rintro ⟨w, more, faults, hahead, rfl, make, hm, rfl⟩
    rw [spanned_of_ok ((hx make _).2 ⟨w, more, faults, hahead, rfl, hm⟩),
      spanFrom_tell_skip faults hahead (hw w more faults make hm)]

/-- The first token, when there is one. -/
theorem advance {first : Token} {rest : List Token} (h : ahead s = first :: rest) :
    MeansAt s (liftM Rule.advance) fun w _ faults a => w = [first] ∧ faults = [] ∧ a = first := by
  intro a t
  have happly : (liftM Rule.advance : Rule Token) s = (.ok first, (Rule.advance s).2) := by
    rw [← peek_of_ahead h]
    rfl
  rw [happly]
  constructor
  · rintro ⟨⟩
    exact ⟨[first], rest, [], h, rfl, rfl, rfl, rfl⟩
  · rintro ⟨_, more, _, -, rfl, rfl, rfl, rfl⟩
    rfl

end MeansAt

namespace Means

variable {x : Rule α} {f : α → Rule β} {M M' : Meaning α} {N : α → Meaning β}

theorem congr (h : Means e n x M) (hM : ∀ w more faults a, M w more faults a ↔ M' w more faults a) : Means e n x M' :=
  fun s he hn => (h s he hn).congr fun w more faults a _ => hM w more faults a

theorem pure (a : α) : Means e n (pure a) fun w _ faults b => w = [] ∧ faults = [] ∧ b = a := by
  intro s _ _ b t
  constructor
  · rintro ⟨⟩
    exact ⟨[], ahead s, [], rfl, rfl, rfl, rfl, rfl⟩
  · rintro ⟨_, more, _, -, rfl, rfl, rfl, rfl⟩
    rfl

/-- What can be told of the state behind a rule. -/
theorem behind (hx : MeansAt s x M) (he : s.eof = e) (hn : s.freeLevels = n) {a : α} (h : x s = (.ok a, u)) :
    u.eof = e ∧ u.freeLevels = n := by
  obtain ⟨w, more, faults, -, rfl, -⟩ := (hx a u).1 h
  rw [toCursor_tell, eof_skip, freeLevels_tell, freeLevels_skip]
  exact ⟨he, hn⟩

/-- On known tokens of which nothing is told. -/
theorem passes {M : Token → Meaning α} {w more : List Token} {a : α} (hx : ∀ e, Means e n x (M e))
    (h : ∀ e, M e w more [] a) : RulePasses n x w more (· = a) := by
  intro s hn hahead
  have hrun := (hx s.eof s rfl hn a _).2 ⟨w, more, [], hahead, rfl, h s.eof⟩
  show okAnd _ (x s).1 ∧ (x s).2 = _
  rw [hrun]
  exact ⟨rfl, rfl⟩

theorem bind_at (hx : MeansAt s x M) (he : s.eof = e) (hn : s.freeLevels = n) (hf : ∀ a, Means e n (f a) (N a)) :
    MeansAt s (x >>= f) (M.bind N) := by
  apply hx.bind
  intro a u hrun
  obtain ⟨he', hn'⟩ := behind hx he hn hrun
  exact hf a u he' hn'

theorem bind (hx : Means e n x M) (hf : ∀ a, Means e n (f a) (N a)) : Means e n (x >>= f) (M.bind N) :=
  fun s he hn => bind_at (hx s he hn) he hn hf

theorem accept (hκ : κ ≠ .eof) : Means e n (liftM (Rule.accept κ)) fun w more faults found =>
    (found = true ∧ ∃ t, t.kind = κ ∧ w = [t] ∧ faults = []) ∨
      found = false ∧ nextKind (w ++ more) ≠ κ ∧ w = [] ∧ faults = [] := by
  intro s _ _ found t
  rw [liftM_apply, accept_apply, kind_peek]
  constructor
  · intro h
    split at h
    · rename_i hkind
      obtain ⟨first, rest, hahead⟩ := exists_cons_of_nextKind (l := ahead s) (by rwa [hkind])
      rw [hahead] at hkind
      cases h
      exact ⟨[first], rest, [], hahead, rfl, .inl ⟨rfl, first, hkind, rfl, rfl⟩⟩
    · rename_i hkind
      cases h
      exact ⟨[], ahead s, [], rfl, rfl, .inr ⟨rfl, hkind, rfl, rfl⟩⟩
  · rintro ⟨w, more, faults, hahead, rfl, ⟨rfl, first, hkind, rfl, rfl⟩ | ⟨rfl, hkind, rfl, rfl⟩⟩
    · rw [hahead, List.cons_append, nextKind, if_pos hkind]
      rfl
    · rw [hahead, if_neg hkind]
      rfl

theorem expect (hκ : κ ≠ .eof) : Means e n (Rule.expect κ) fun w _ faults a => a.kind = κ ∧ w = [a] ∧ faults = [] := by
  intro s _ _ a t
  rw [expect_apply, kind_peek]
  constructor
  · intro h
    split at h
    · rename_i hkind
      obtain ⟨first, rest, hahead⟩ := exists_cons_of_nextKind (l := ahead s) (by rwa [hkind])
      rw [hahead] at hkind
      rw [peek_of_ahead hahead] at h
      cases h
      exact ⟨[a], rest, [], hahead, rfl, hkind, rfl, rfl⟩
    · cases h
  · rintro ⟨_, more, _, hahead, rfl, hkind, rfl, rfl⟩
    rw [hahead, List.cons_append, nextKind, if_pos hkind, peek_of_ahead hahead]
    rfl

theorem report (fault : Fault) :
    Means e n (liftM (Rule.report fault)) fun w _ faults _ => w = [] ∧ faults = [fault] := by
  intro s _ _ _ t
  constructor
  · rintro ⟨⟩
    exact ⟨[], ahead s, [fault], rfl, rfl, rfl, rfl⟩
  · rintro ⟨_, more, _, -, rfl, rfl, rfl⟩
    rfl

theorem accept_bind {f : Bool → Rule β} {yes no : Meaning β} (hκ : κ ≠ .eof) (hyes : Means e n (f true) yes)
    (hno : Means e n (f false) no) : Means e n (liftM (Rule.accept κ) >>= f) fun w more faults b =>
      (∃ t v, t.kind = κ ∧ w = t :: v ∧ yes v more faults b) ∨ nextKind (w ++ more) ≠ κ ∧ no w more faults b := by
  have hbind := bind (accept (e := e) (n := n) hκ) (N := fun found => if found = true then yes else no)
    (by rintro (_ | _) <;> assumption)
  apply hbind.congr
  intro w more faults b
  constructor
  · rintro ⟨_, _, v, _, later, ⟨rfl, t, hkind, rfl, rfl⟩ | ⟨rfl, hkind, rfl, rfl⟩, hrest, rfl, rfl⟩
    · exact .inl ⟨t, v, hkind, rfl, hrest⟩
    · exact .inr ⟨hkind, hrest⟩
  · rintro (⟨t, v, hkind, rfl, hrest⟩ | ⟨hkind, hrest⟩)
    · exact ⟨true, [t], v, [], faults, .inl ⟨rfl, t, hkind, rfl, rfl⟩, hrest, rfl, rfl⟩
    · exact ⟨false, [], w, [], faults, .inr ⟨rfl, hkind, rfl, rfl⟩, hrest, rfl, rfl⟩

theorem expect_bind {f : Token → Rule β} {N : Token → Meaning β} (hκ : κ ≠ .eof) (hf : ∀ t, Means e n (f t) (N t)) :
    Means e n (Rule.expect κ >>= f) fun w more faults b =>
      ∃ t v, t.kind = κ ∧ w = t :: v ∧ N t v more faults b := by
  apply (bind (expect hκ) hf).congr
  intro w more faults b
  constructor
  · rintro ⟨t, _, v, _, later, ⟨hkind, rfl, rfl⟩, hrest, rfl, rfl⟩
    exact ⟨t, v, hkind, rfl, hrest⟩
  · rintro ⟨t, v, hkind, rfl, hrest⟩
    exact ⟨t, [t], v, [], faults, ⟨hkind, rfl, rfl⟩, hrest, rfl, rfl⟩

theorem report_bind {f : Unit → Rule β} {N : Meaning β} (fault : Fault) (hf : Means e n (f ()) N) :
    Means e n (liftM (Rule.report fault) >>= f) fun w more faults b =>
      ∃ later, faults = fault :: later ∧ N w more later b := by
  apply (bind (report fault) (N := fun _ => N) fun _ => hf).congr
  intro w more faults b
  constructor
  · rintro ⟨_, _, v, _, later, ⟨rfl, rfl⟩, hrest, rfl, rfl⟩
    exact ⟨later, rfl, hrest⟩
  · rintro ⟨later, rfl, hrest⟩
    exact ⟨(), [], w, [fault], later, ⟨rfl, rfl⟩, hrest, rfl, rfl⟩

theorem check : Means e n (liftM (Rule.check κ)) fun w more faults b =>
    b = (nextKind more == κ) ∧ w = [] ∧ faults = [] := by
  intro s _ _ b t
  have happly : (liftM (Rule.check κ) : Rule Bool) s = (.ok (nextKind (ahead s) == κ), s) := by
    rw [← kind_peek]
    rfl
  rw [happly]
  constructor
  · rintro ⟨⟩
    exact ⟨[], ahead s, [], rfl, rfl, rfl, rfl, rfl⟩
  · rintro ⟨_, more, _, hahead, rfl, rfl, rfl, rfl⟩
    rw [hahead]
    rfl

theorem map (hx : Means e n x M) (g : α → β) :
    Means e n (g <$> x) fun w more faults b => ∃ a, M w more faults a ∧ b = g a := by
  intro s he hn b t
  have happly : (g <$> x) s = ((x s).1.map g, (x s).2) := map_apply g x s
  rw [happly]
  constructor
  · intro h
    rcases hrun : x s with ⟨fault | a, u⟩
    · rw [hrun] at h
      cases h
    · rw [hrun] at h
      cases h
      obtain ⟨w, more, faults, hahead, ht, hm⟩ := (hx s he hn a u).1 hrun
      exact ⟨w, more, faults, hahead, ht, a, hm, rfl⟩
  · rintro ⟨w, more, faults, hahead, ht, a, hm, rfl⟩
    rw [(hx s he hn a t).2 ⟨w, more, faults, hahead, ht, hm⟩]
    rfl

/-- Something is made of the result. -/
theorem bind_pure (hx : Means e n x M) (g : α → β) :
    Means e n (x >>= fun a => Pure.pure (g a)) fun w more faults b => ∃ a, M w more faults a ∧ b = g a := by
  apply (bind hx fun a => pure (g a)).congr
  intro w more faults b
  constructor
  · rintro ⟨a, u, _, told, _, hm, ⟨rfl, rfl, rfl⟩, rfl, rfl⟩
    rw [List.append_nil, List.append_nil]
    exact ⟨a, hm, rfl⟩
  · rintro ⟨a, hm, rfl⟩
    exact ⟨a, w, [], faults, [], hm, ⟨rfl, rfl, rfl⟩, (List.append_nil w).symm, (List.append_nil faults).symm⟩

theorem tooDeep : Means e n (Rule.tooDeep : Rule α) fun _ _ _ _ => False :=
  fun _ _ _ => MeansAt.of_error rfl fun _ _ _ _ _ h => h

theorem nested (hx : Means e n x M) : Means e (n + 1) (Rule.nested x) M := by
  intro s he hn a t
  have hlevel : s.nesting < maxNesting := Parser.nesting_lt_of_freeLevels hn
  have hn' : (s.withNesting (s.nesting + 1)).freeLevels = n := Parser.freeLevels_deeper hn
  have hback : ∀ (faults : List Fault) (m : Nat), (tell faults (skip m (s.withNesting (s.nesting + 1)))).withNesting
      ((tell faults (skip m (s.withNesting (s.nesting + 1)))).nesting - 1) = tell faults (skip m s) := by
    intro faults m
    rw [nesting_tell, nesting_skip, Parser.nesting_withNesting, Nat.add_sub_cancel, skip_withNesting, tell_withNesting]
    show (tell faults (skip m s)).withNesting s.nesting = _
    rw [← nesting_skip m s, ← nesting_tell faults (skip m s)]
    rfl
  rw [nested_apply x s hlevel]
  constructor
  · intro h
    rcases hrun : x (s.withNesting (s.nesting + 1)) with ⟨fault | b, u⟩
    · rw [hrun] at h
      cases h
    · obtain ⟨w, more, faults, hahead, rfl, hm⟩ := (hx (s.withNesting (s.nesting + 1)) he hn' b u).1 hrun
      rw [hrun] at h
      cases h
      exact ⟨w, more, faults, hahead, hback faults w.length, hm⟩
  · rintro ⟨w, more, faults, hahead, rfl, hm⟩
    rw [(hx (s.withNesting (s.nesting + 1)) he hn' a _).2 ⟨w, more, faults, hahead, rfl, hm⟩, hback]

theorem of_levels {x : Nat → Rule α} (h : Means e n (x n) M) : Means e n (fun s => x s.freeLevels s) M := by
  intro s he hn
  exact (h s he hn).of_eq (congrArg (x · s) hn)

inductive Rounds (M : α → Meaning (ForInStep α)) : α → Meaning α
  | done {a b : α} {w more : List Token} {faults : List Fault} (h : M a w more faults (.done b)) :
      Rounds M a w more faults b
  | yield {a b c : α} {u v more : List Token} {told later : List Fault} (h : M a u (v ++ more) told (.yield b))
      (hrest : Rounds M b v more later c) : Rounds M a (u ++ v) more (told ++ later) c

theorem tryLoop {round : α → Rule (ForInStep α)} {M : α → Meaning (ForInStep α)} (hprogress : TryProgresses round)
    (hround : ∀ a, Means e n (round a) (M a)) (a : α) : Means e n (Rule.tryLoop a round) (Rounds M a) := by
  intro s he hn b t
  constructor
  · intro h
    -- Each round leaves fewer tokens.
    induction hleft : s.left using Nat.strongRecOn generalizing a s with
    | ind k ih =>
        rw [hprogress.unrolls a s] at h
        rcases hrun : round a s with ⟨fault | c | c, u⟩
        · rw [hrun] at h
          cases h
        · rw [hrun] at h
          cases h
          obtain ⟨w, more, faults, hahead, ht, hm⟩ := (hround a s he hn _ _).1 hrun
          exact ⟨w, more, faults, hahead, ht, .done hm⟩
        · rw [hrun] at h
          have hless := left_lt_of_position (hprogress a s c u hrun)
          obtain ⟨he', hn'⟩ := behind (hround a s he hn) he hn hrun
          obtain ⟨w, more, told, hahead, rfl, hm⟩ := (hround a s he hn _ _).1 hrun
          obtain ⟨v, rest, later, hahead', rfl, hrest⟩ := ih _ (hleft ▸ hless) c _ he' hn' h rfl
          rw [ahead_tell, ahead_skip hahead] at hahead'
          subst hahead'
          refine ⟨w ++ v, rest, told ++ later, ?_, ?_, .yield hm hrest⟩
          · rw [hahead, List.append_assoc]
          · rw [skip_tell, tell_append, List.length_append, skip_add]
  · rintro ⟨w, more, faults, hahead, rfl, hm⟩
    induction hm generalizing s with
    | done hm =>
        rw [hprogress.unrolls, (hround _ s he hn _ _).2 ⟨_, _, _, hahead, rfl, hm⟩]
    | @yield a b c w v more told later hm hrest ih =>
        rw [List.append_assoc] at hahead
        have hrun := (hround a s he hn _ _).2 ⟨w, v ++ more, told, hahead, rfl, hm⟩
        obtain ⟨he', hn'⟩ := behind (hround a s he hn) he hn hrun
        have hrest := ih _ he' hn' (by rw [ahead_tell, ahead_skip hahead])
        rw [hprogress.unrolls, hrun, List.length_append, skip_add, tell_append, ← skip_tell v.length]
        exact hrest

/-- The same for a loop that cannot fail. -/
theorem loop {round : α → Parse (ForInStep α)} {M : α → Meaning (ForInStep α)} (hprogress : Progresses round)
    (hround : ∀ a, Means e n (liftM (round a)) (M a)) (a : α) :
    Means e n (liftM (Rule.loop a round)) (Rounds M a) := by
  rw [liftM_loop]
  exact tryLoop hprogress.lift hround a

end Means

end CalExport.Rule
