import CalExport.Proofs.Ahead

namespace CalExport.Rule

variable {α β : Type} {P Q : List Token → Prop} {κ : Kind}

/-- The parser has passed the tokens `run` and stands in front of `rest`, and nothing else has changed. -/
structure Passed (s t : Parser) (run rest : List Token) : Prop where
  ahead_eq : ahead s = run ++ rest
  skip_eq : t = skip run.length s

theorem Passed.nil (s : Parser) : Passed s s [] (ahead s) := ⟨rfl, rfl⟩

theorem Passed.rest_eq {s t : Parser} {run rest : List Token} (h : Passed s t run rest) : ahead t = rest := by
  rw [h.skip_eq]
  exact ahead_skip h.ahead_eq

theorem Passed.trans {s t t' : Parser} {u v l rest : List Token} (h : Passed s t u l) (g : Passed t t' v rest) :
    Passed s t' (u ++ v) rest := by
  refine ⟨?_, ?_⟩
  · rw [List.append_assoc, ← g.ahead_eq, h.rest_eq, h.ahead_eq]
  · rw [g.skip_eq, h.skip_eq, List.length_append, skip_add]

theorem Passed.advance {s : Parser} {t : Token} {l : List Token} (h : ahead s = t :: l) :
    Passed s (Rule.advance s).2 [t] l := ⟨h, rfl⟩

theorem Passed.capped_eq {s t : Parser} {run rest : List Token} (h : Passed s t run rest) : t.capped = s.capped := by
  rw [h.skip_eq, capped_skip]

structure Covers (P : List Token → Prop) (x : Rule α) (form : List Token → List Token → α → Prop) : Prop where
  steady : Steady (attempt x)
  clean {s : Parser} : P (ahead s) → s.capped = false → (x s).2.diagnostics.size = s.diagnostics.size →
    ∃ run rest, Passed s (x s).2 run rest ∧ ∀ a, (x s).1 = .ok a → form run rest a

def IsNext (t : Token) (l : List Token) : Prop := nextKind l = t.kind ∧ ∀ t' rest, l = t' :: rest → t' = t

theorem isNext_peek (s : Parser) : IsNext s.peek (ahead s) :=
  ⟨(kind_peek s).symm, fun _ _ h => (peek_of_ahead h).symm⟩

theorem exists_cons_of_nextKind {l : List Token} (h : nextKind l ≠ .eof) : ∃ t rest, l = t :: rest := by
  cases l with
  | nil => exact absurd rfl h
  | cons t rest => exact ⟨t, rest, rfl⟩

/-- Diagnostics only grow, so when two runs in a row add none, the first of them adds none. -/
theorem clean_first {s t t' : Parser} (h : Forward s t) (h' : Forward t t')
    (hsize : t'.diagnostics.size = s.diagnostics.size) : t.diagnostics.size = s.diagnostics.size := by
  have hfirst := h.diagnostics
  have hsecond := h'.diagnostics
  omega

namespace Covers

variable {x : Rule α} {f : α → Rule β} {p : List Token → List Token → α → Prop} {q : List Token → List Token → β → Prop}

theorem mono {p' : List Token → List Token → α → Prop} (h : Covers P x p)
    (hp : ∀ run rest a, P (run ++ rest) → p run rest a → p' run rest a) : Covers P x p' := by
  refine ⟨h.steady, ?_⟩
  intro s hs hcapped hsize
  obtain ⟨run, rest, hpassed, hform⟩ := h.clean hs hcapped hsize
  exact ⟨run, rest, hpassed, fun a ha => hp run rest a (hpassed.ahead_eq ▸ hs) (hform a ha)⟩

theorem weaken (h : Covers Q x p) (hP : ∀ l, P l → Q l) : Covers P x p :=
  ⟨h.steady, fun hs hcapped hsize => h.clean (hP _ hs) hcapped hsize⟩

/-- A rule that no clean run comes to. -/
theorem absurd (hx : Steady (attempt x)) (hP : ∀ l, ¬ P l) : Covers P x p :=
  ⟨hx, fun hs _ _ => (hP _ hs).elim⟩

theorem pure {a : α} (h : ∀ l, P l → p [] l a) : Covers P (pure a) p := by
  refine ⟨Forward.refl, ?_⟩
  intro s hs _ _
  refine ⟨[], ahead s, .nil s, ?_⟩
  rintro _ ⟨⟩
  exact h _ hs

theorem throw (fault : Fault) : Covers P (throw fault) p := by
  refine ⟨Forward.refl, ?_⟩
  intro s _ _ _
  exact ⟨[], ahead s, .nil s, nofun⟩

theorem bind (hx : Covers P x p)
    (hf : ∀ a u, Covers (fun l => P (u ++ l) ∧ p u l a) (f a) fun run rest b => q (u ++ run) rest b) :
    Covers P (x >>= f) q := by
  have hsteady : Steady (attempt (x >>= f)) := by
    intro s
    rcases hrun : x s with ⟨fault | a, t⟩
    · rw [attempt_bind_of_error hrun]
      have hforward := hx.steady s
      change Forward s (x s).2 at hforward
      rwa [hrun] at hforward
    · rw [attempt_bind_of_ok hrun]
      have hforward := hx.steady s
      change Forward s (x s).2 at hforward
      rw [hrun] at hforward
      exact hforward.trans ((hf a []).steady t)
  refine ⟨hsteady, ?_⟩
  intro s hs hcapped hsize
  have hforward : Forward s (x s).2 := hx.steady s
  rcases hrun : x s with ⟨fault | a, t⟩
  · have happly : (x >>= f) s = (.error fault, t) := attempt_bind_of_error hrun f
    rw [happly] at hsize ⊢
    have hclean := hx.clean hs hcapped
    rw [hrun] at hclean
    obtain ⟨run, rest, hpassed, -⟩ := hclean hsize
    exact ⟨run, rest, hpassed, nofun⟩
  · have happly : (x >>= f) s = f a t := attempt_bind_of_ok hrun f
    rw [happly] at hsize ⊢
    have hclean := hx.clean hs hcapped
    rw [hrun] at hclean hforward
    have hfirst : t.diagnostics.size = s.diagnostics.size :=
      clean_first hforward ((hf a []).steady t) hsize
    obtain ⟨u, l, hpassed, hform⟩ := hclean hfirst
    have hstart : P (u ++ ahead t) ∧ p u (ahead t) a := by
      rw [hpassed.rest_eq, ← hpassed.ahead_eq]
      exact ⟨hs, hform a rfl⟩
    obtain ⟨v, rest, hpassed', hform'⟩ :=
      (hf a u).clean hstart (hpassed.capped_eq.trans hcapped) (hsize.trans hfirst.symm)
    exact ⟨u ++ v, rest, hpassed.trans hpassed', hform'⟩

theorem step {x : Parse α} {f : α → Parse β} (h : Covers P (liftM x >>= fun a => liftM (f a)) q) :
    Covers P (liftM (x >>= f)) q := h

theorem map {g : α → β} (hx : Covers P x p) (hg : ∀ run rest a, p run rest a → q run rest (g a)) :
    Covers P (g <$> x) q := by
  refine ⟨fun s => map_apply g x s ▸ hx.steady s, ?_⟩
  intro s hs hcapped hsize
  have happly : (g <$> x) s = ((x s).1.map g, (x s).2) := map_apply g x s
  rw [happly] at hsize ⊢
  obtain ⟨run, rest, hpassed, hform⟩ := hx.clean hs hcapped hsize
  refine ⟨run, rest, hpassed, ?_⟩
  intro b hb
  cases hresult : (x s).1 with
  | error fault =>
      rw [hresult] at hb
      cases hb
  | ok a =>
      rw [hresult] at hb
      cases hb
      exact hg run rest a (hform a hresult)

theorem look {h : Parser → α} {r : α → List Token → Prop} (hr : ∀ s, r (h s) (ahead s))
    (hf : ∀ a, Covers (fun l => P l ∧ r a l) (f a) q) : Covers P (liftM (Rule.look h) >>= f) q := by
  refine ⟨fun s => (hf (h s)).steady s, ?_⟩
  intro s hs hcapped hsize
  exact (hf (h s)).clean ⟨hs, hr s⟩ hcapped hsize

theorem peekKind {f : Kind → Rule β} (hf : ∀ κ, Covers (fun l => P l ∧ nextKind l = κ) (f κ) q) :
    Covers P (liftM Rule.peekKind >>= f) q := look (fun s => (kind_peek s).symm) hf

theorem peek {f : Token → Rule β} (hf : ∀ t, Covers (fun l => P l ∧ IsNext t l) (f t) q) :
    Covers P (liftM Rule.peek >>= f) q := look isNext_peek hf

theorem check {f : Bool → Rule β} (hf : ∀ b, Covers (fun l => P l ∧ (nextKind l == κ) = b) (f b) q) :
    Covers P (liftM (Rule.check κ) >>= f) q := by
  apply look _ hf
  intro s
  rw [← kind_peek]
  rfl

theorem here {f : Nat → Rule β} (hf : ∀ start, Covers P (f start) q) : Covers P (liftM Rule.here >>= f) q :=
  look (r := fun _ _ => True) (fun _ => trivial) fun start => (hf start).weaken fun _ h => h.1

theorem spanFrom {start : Nat} {f : Text.Span → Rule β} (hf : ∀ span, Covers P (f span) q) :
    Covers P (liftM (Rule.spanFrom start) >>= f) q :=
  look (r := fun _ _ => True) (fun _ => trivial) fun span => (hf span).weaken fun _ h => h.1

/-- Passing a token that is there. -/
theorem advance {f : Token → Rule β} (hP : ∀ l, P l → nextKind l ≠ .eof)
    (hf : ∀ t, Covers (fun l => P (t :: l)) (f t) fun run rest b => q (t :: run) rest b) :
    Covers P (liftM Rule.advance >>= f) q := by
  refine ⟨fun s => (forward_advance s).trans ((hf s.peek).steady _), ?_⟩
  intro s hs hcapped hsize
  obtain ⟨t, l, hahead⟩ := exists_cons_of_nextKind (hP _ hs)
  have hpeek := peek_of_ahead hahead
  have happly : (liftM Rule.advance >>= f : Rule β) s = f t (Rule.advance s).2 := by
    rw [← hpeek]
    rfl
  rw [happly] at hsize ⊢
  have hpassed := Passed.advance hahead
  have hstart : P (t :: ahead (Rule.advance s).2) := by
    rw [hpassed.rest_eq, ← hahead]
    exact hs
  obtain ⟨run, rest, hpassed', hform⟩ := (hf t).clean hstart hcapped hsize
  exact ⟨t :: run, rest, hpassed.trans hpassed', hform⟩

theorem expect {f : Token → Rule β} (hκ : κ ≠ .eof)
    (hf : ∀ t, Covers (fun l => P (t :: l) ∧ t.kind = κ) (f t) fun run rest b => q (t :: run) rest b) :
    Covers P (Rule.expect κ >>= f) q := by
  have hpass : Covers P (Rule.expect κ) fun run _ t => run = [t] ∧ t.kind = κ := by
    apply peek
    intro t
    split
    · rename_i hkind
      rw [← bind_pure (liftM Rule.advance : Rule Token)]
      apply advance
      · rintro l ⟨-, hnext, -⟩
        rw [hnext, hkind]
        exact hκ
      · intro t'
        apply pure
        rintro l ⟨-, -, hnext⟩
        obtain rfl := hnext t' l rfl
        exact ⟨rfl, hkind⟩
    · exact throw _
  apply bind hpass
  intro t u
  apply ((hf t).weaken _).mono
  · rintro run rest b ⟨-, rfl, -⟩ hq
    exact hq
  · rintro l ⟨hP, rfl, hkind⟩
    exact ⟨hP, hkind⟩

theorem accept {f : Bool → Rule β} (hκ : κ ≠ .eof)
    (hyes : ∀ t, Covers (fun l => P (t :: l) ∧ t.kind = κ) (f true) fun run rest b => q (t :: run) rest b)
    (hno : Covers (fun l => P l ∧ nextKind l ≠ κ) (f false) q) : Covers P (liftM (Rule.accept κ) >>= f) q := by
  have happly : ∀ s, (liftM (Rule.accept κ) >>= f : Rule β) s =
      if s.peek.kind = κ then f true (Rule.advance s).2 else f false s := by
    intro s
    have hbind : (liftM (Rule.accept κ) >>= f : Rule β) s = f (Rule.accept κ s).1 (Rule.accept κ s).2 := rfl
    rw [hbind, accept_apply]
    split <;> rfl
  refine ⟨?_, ?_⟩
  · intro s
    change Forward s ((liftM (Rule.accept κ) >>= f : Rule β) s).2
    rw [happly]
    split
    · exact (forward_advance s).trans ((hyes s.peek).steady _)
    · exact hno.steady s
  · intro s hs hcapped hsize
    rw [happly] at hsize ⊢
    by_cases hkind : s.peek.kind = κ
    · rw [if_pos hkind] at hsize ⊢
      obtain ⟨t, l, hahead⟩ := exists_cons_of_nextKind (kind_peek s ▸ hkind ▸ hκ)
      have hpeek := peek_of_ahead hahead
      have hpassed := Passed.advance hahead
      have hstart : P (t :: ahead (Rule.advance s).2) ∧ t.kind = κ := by
        rw [hpassed.rest_eq, ← hahead, ← hpeek]
        exact ⟨hs, hkind⟩
      obtain ⟨run, rest, hpassed', hform⟩ := (hyes t).clean hstart hcapped hsize
      exact ⟨t :: run, rest, hpassed.trans hpassed', hform⟩
    · rw [if_neg hkind] at hsize ⊢
      exact hno.clean ⟨hs, kind_peek s ▸ hkind⟩ hcapped hsize

theorem size_lt_record (d : Diagnostic) {s : Parser} (h : s.capped = false) :
    s.diagnostics.size < (record d s).2.diagnostics.size := by
  unfold record
  split
  · simp
  · rw [h]
    simp

/-- Nothing is clean behind a report. -/
theorem report {fault : Fault} {f : Unit → Rule β} (hf : Steady (attempt (f ()))) :
    Covers P (liftM (Rule.report fault) >>= f) q := by
  refine ⟨fun s => (forward_record _ s).trans (hf _), ?_⟩
  intro s _ hcapped hsize
  have hmore := size_lt_record (.ofFault fault) hcapped
  have hrest : ((Rule.report fault s).2).diagnostics.size ≤ _ := (hf (Rule.report fault s).2).diagnostics
  have hgrown : s.diagnostics.size < s.diagnostics.size := calc
    s.diagnostics.size < (Rule.report fault s).2.diagnostics.size := hmore
    _ ≤ _ := hrest
    _ = s.diagnostics.size := hsize
  exact (Nat.lt_irrefl _ hgrown).elim

theorem tooDeep : Covers P (Rule.tooDeep : Rule α) p :=
  ⟨Forward.refl, fun {s} _ _ _ => ⟨[], ahead s, .nil s, nofun⟩⟩

theorem nested (h : Covers P x p) : Covers P (Rule.nested x) p := by
  refine ⟨?_, ?_⟩
  · intro s
    by_cases hlevel : s.nesting < maxNesting
    · exact forward_nested hlevel (h.steady _)
    · have happly : attempt (Rule.nested x) s = Rule.tooDeep s := nested_tooDeep x s hlevel
      rw [happly]
      exact Forward.refl s
  · intro s hs hcapped hsize
    by_cases hlevel : s.nesting < maxNesting
    · rw [nested_apply x s hlevel] at hsize ⊢
      obtain ⟨run, rest, ⟨hahead, hskip⟩, hform⟩ := h.clean (s := s.withNesting (s.nesting + 1)) hs hcapped hsize
      refine ⟨run, rest, ⟨hahead, ?_⟩, hform⟩
      rw [hskip]
      exact skip_nested run.length s
    · rw [nested_tooDeep x s hlevel] at hsize ⊢
      exact tooDeep.clean hs hcapped hsize

theorem of_levels {x : Nat → Rule α} (h : ∀ n, Covers P (x n) p) : Covers P (fun s => x s.freeLevels s) p :=
  ⟨fun s => (h s.freeLevels).steady s, fun hs hcapped hsize => (h _).clean hs hcapped hsize⟩

/-- What a loop covers is put together round by round: `P` holds in front of each one, and what is covered from the
next value on is covered from this one on behind the tokens of its round. -/
theorem tryLoop {round : α → Rule (ForInStep α)} {g : α → List Token → List Token → α → Prop}
    (hprogress : TryProgresses round)
    (hround : ∀ a, Covers P (round a) fun run rest next => match next with
      | .yield b => P rest ∧ ∀ v rest' c, g b v rest' c → g a (run ++ v) rest' c
      | .done b => g a run rest b)
    (a : α) : Covers P (Rule.tryLoop a round) (g a) := by
  have hsteady : ∀ a, Steady (attempt (Rule.tryLoop a round)) := fun a s =>
    steady_tryRounds (fun a => (hround a).steady) _ a s
  refine ⟨hsteady a, ?_⟩
  intro s
  -- The rounds go on with fewer tokens left each time.
  induction hleft : s.left using Nat.strongRecOn generalizing a s with
  | ind n ih =>
      intro hs hcapped hsize
      rw [hprogress.unrolls a s] at hsize ⊢
      have hforward : Forward s (round a s).2 := (hround a).steady s
      have hclean := (hround a).clean hs hcapped
      rcases hrun : round a s with ⟨fault | b | b, t⟩
      · rw [hrun] at hclean hsize
        obtain ⟨run, rest, hpassed, -⟩ := hclean hsize
        exact ⟨run, rest, hpassed, nofun⟩
      · rw [hrun] at hclean hsize
        obtain ⟨run, rest, hpassed, hform⟩ := hclean hsize
        refine ⟨run, rest, hpassed, ?_⟩
        rintro _ ⟨⟩
        exact hform _ rfl
      · rw [hrun] at hclean hsize hforward
        have hfirst : t.diagnostics.size = s.diagnostics.size := clean_first hforward (hsteady b t) hsize
        obtain ⟨u, l, hpassed, hform⟩ := hclean hfirst
        obtain ⟨hP, hnext⟩ := hform _ rfl
        have hless := left_lt_of_position (hprogress a s b t hrun)
        obtain ⟨v, rest, hpassed', hform'⟩ := ih t.left (hleft ▸ hless) b rfl (hpassed.rest_eq.symm ▸ hP)
          (hpassed.capped_eq.trans hcapped) (hsize.trans hfirst.symm)
        exact ⟨u ++ v, rest, hpassed.trans hpassed', fun c hc => hnext v rest c (hform' c hc)⟩

/-- The same for a loop that cannot fail. -/
theorem loop {round : α → Parse (ForInStep α)} {g : α → List Token → List Token → α → Prop}
    (hprogress : Progresses round)
    (hround : ∀ a, Covers P (liftM (round a)) fun run rest next => match next with
      | .yield b => P rest ∧ ∀ v rest' c, g b v rest' c → g a (run ++ v) rest' c
      | .done b => g a run rest b)
    (a : α) : Covers P (liftM (Rule.loop a round)) (g a) := by
  rw [liftM_loop]
  exact tryLoop hprogress.lift hround a

/-- What follows the outcome of a rule. A failure is always reported, so nothing is clean behind it. -/
theorem recover {f : Except Fault α → Parse β} (hx : Covers P x p)
    (hok : ∀ a u, Covers (fun l => P (u ++ l) ∧ p u l a) (liftM (f (.ok a))) fun run rest b => q (u ++ run) rest b)
    (herror : ∀ fault, Covers (fun _ => True) (liftM (f (.error fault))) fun _ _ _ => False) :
    Covers P (liftM (Rule.attempt x >>= f)) q := by
  have hsteady : Steady (Rule.attempt x >>= f) := by
    intro s
    refine (hx.steady s).trans ?_
    rw [bind_apply]
    cases (Rule.attempt x s).1 with
    | ok a => exact (hok a []).steady _
    | error fault => exact (herror fault).steady _
  refine ⟨hsteady, ?_⟩
  intro s hs hcapped hsize
  have hforward : Forward s (x s).2 := hx.steady s
  have hclean := hx.clean hs hcapped
  rcases hrun : x s with ⟨fault | a, t⟩
  · rw [hrun] at hclean hforward
    have happly : (liftM (Rule.attempt x >>= f) : Rule β) s = (liftM (f (.error fault)) : Rule β) t := by
      show (liftM (f (x s).1) : Rule β) (x s).2 = _
      rw [hrun]
    rw [happly] at hsize
    have hfirst : t.diagnostics.size = s.diagnostics.size := clean_first hforward ((herror fault).steady t) hsize
    obtain ⟨u, l, hpassed, -⟩ := hclean hfirst
    obtain ⟨-, -, -, hnone⟩ := (herror fault).clean trivial (hpassed.capped_eq.trans hcapped)
      (hsize.trans hfirst.symm)
    exact (hnone _ rfl).elim
  · rw [hrun] at hclean hforward
    have happly : (liftM (Rule.attempt x >>= f) : Rule β) s = (liftM (f (.ok a)) : Rule β) t := by
      show (liftM (f (x s).1) : Rule β) (x s).2 = _
      rw [hrun]
    rw [happly] at hsize ⊢
    have hfirst : t.diagnostics.size = s.diagnostics.size := clean_first hforward ((hok a []).steady t) hsize
    obtain ⟨u, l, hpassed, hform⟩ := hclean hfirst
    have hstart : P (u ++ ahead t) ∧ p u (ahead t) a := by
      rw [hpassed.rest_eq, ← hpassed.ahead_eq]
      exact ⟨hs, hform a rfl⟩
    obtain ⟨v, rest, hpassed', hform'⟩ :=
      (hok a u).clean hstart (hpassed.capped_eq.trans hcapped) (hsize.trans hfirst.symm)
    exact ⟨u ++ v, rest, hpassed.trans hpassed', hform'⟩

end Covers

end CalExport.Rule
