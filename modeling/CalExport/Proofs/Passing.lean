import CalExport.Proofs.Ahead

namespace CalExport.Rule

variable {α β : Type} {n : Nat} {t : Token} {w u v more : List Token} {p : α → Prop} {q : β → Prop}

def Passes (n : Nat) (x : Parse α) (w more : List Token) (p : α → Prop) : Prop :=
  ∀ s : Parser, s.freeLevels = n → ahead s = w ++ more → p (x s).1 ∧ (x s).2 = skip w.length s

def RulePasses (n : Nat) (x : Rule α) (w more : List Token) (p : α → Prop) : Prop :=
  Passes n (attempt x) w more (okAnd p)

def yieldAnd (p : α → Prop) : ForInStep α → Prop
  | .yield a => p a
  | .done _ => False

def doneAnd (p : α → Prop) : ForInStep α → Prop
  | .yield _ => False
  | .done a => p a

theorem freeLevels_skip (m : Nat) (s : Parser) : (skip m s).freeLevels = s.freeLevels := by
  simp [Parser.freeLevels]

namespace Passes

variable {x : Parse α} {f : α → Parse β}

theorem mono {r : α → Prop} (h : Passes n x w more r) (hr : ∀ a, r a → p a) : Passes n x w more p :=
  fun s hn hs => ⟨hr _ (h s hn hs).1, (h s hn hs).2⟩

theorem pure {a : α} (h : p a) : Passes n (pure a) [] more p := fun _ _ _ => ⟨h, rfl⟩

theorem bind (hx : Passes n x u (v ++ more) p) (hf : ∀ a, p a → Passes n (f a) v more q) :
    Passes n (x >>= f) (u ++ v) more q := by
  intro s hn hs
  rw [List.append_assoc] at hs
  obtain ⟨hp, hskip⟩ := hx s hn hs
  have hrest := hf (x s).1 hp (skip u.length s) ((freeLevels_skip _ s).trans hn) (ahead_skip hs)
  rw [bind_apply, hskip, List.length_append, skip_add]
  exact hrest

/-- A step that passes nothing. -/
theorem bind_nil (hx : Passes n x [] (w ++ more) p) (hf : ∀ a, p a → Passes n (f a) w more q) :
    Passes n (x >>= f) w more q := bind (u := []) hx hf

/-- Nothing is left to pass behind the first step. -/
theorem bind_last (hx : Passes n x w more p) (hf : ∀ a, p a → Passes n (f a) [] more q) : Passes n (x >>= f) w more q := by
  rw [← List.append_nil w]
  exact bind hx hf

theorem map {g : α → β} (hx : Passes n x w more p) (hg : ∀ a, p a → q (g a)) : Passes n (g <$> x) w more q :=
  fun s hn hs => ⟨hg _ (hx s hn hs).1, (hx s hn hs).2⟩

theorem look {h : Parser → α} (hp : ∀ s, ahead s = more → p (h s)) : Passes n (Rule.look h) [] more p :=
  fun s _ hs => ⟨hp s hs, rfl⟩

theorem peekKind : Passes n Rule.peekKind [] more (· = nextKind more) :=
  look fun s hs => hs ▸ kind_peek s

theorem peek : Passes n Rule.peek [] (t :: more) (· = t) := look fun _ hs => peek_of_ahead hs

theorem peek_kind : Passes n Rule.peek [] more (·.kind = nextKind more) := look fun s hs => hs ▸ kind_peek s

theorem here : Passes n Rule.here [] more fun _ => True := look fun _ _ => trivial

theorem spanFrom (start : Nat) : Passes n (Rule.spanFrom start) [] more fun _ => True := look fun _ _ => trivial

theorem check (κ : Kind) : Passes n (Rule.check κ) [] more (· = (nextKind more == κ)) := by
  apply look
  rintro s rfl
  rw [← kind_peek]
  rfl

theorem advance : Passes n Rule.advance [t] more (· = t) := fun _ _ hs => ⟨peek_of_ahead hs, rfl⟩

theorem accept {κ : Kind} (h : t.kind = κ) : Passes n (Rule.accept κ) [t] more (· = true) := by
  intro s _ hs
  rw [accept_apply, peek_of_ahead hs, if_pos h]
  exact ⟨rfl, rfl⟩

theorem accept_none {κ : Kind} (h : nextKind more ≠ κ) : Passes n (Rule.accept κ) [] more (· = false) := by
  intro s _ hs
  rw [accept_apply, kind_peek, hs, List.nil_append, if_neg h]
  exact ⟨rfl, rfl⟩

theorem attempt {x : Rule α} (h : RulePasses n x w more p) : Passes n (attempt x) w more (okAnd p) := h

theorem loop_yield {round : α → Parse (ForInStep α)} {r q : α → Prop} {a : α} (hround : Unrolls round)
    (hfirst : Passes n (round a) u (v ++ more) (yieldAnd r))
    (hrest : ∀ b, r b → Passes n (loop b round) v more q) : Passes n (loop a round) (u ++ v) more q := by
  intro s hn hs
  have hs' := hs
  rw [List.append_assoc] at hs'
  obtain ⟨hr, hskip⟩ := hfirst s hn hs'
  rcases hrun : round a s with ⟨b | b, s'⟩
  · rw [hrun] at hr
    exact hr.elim
  · rw [hrun] at hr hskip
    have hmore := hrest b hr (skip u.length s) ((freeLevels_skip _ s).trans hn) (ahead_skip hs')
    obtain rfl : s' = skip u.length s := hskip
    rw [hround, hrun, List.length_append, skip_add]
    exact hmore

theorem loop_done {round : α → Parse (ForInStep α)} {a : α} (hround : Unrolls round)
    (h : Passes n (round a) w more (doneAnd p)) : Passes n (loop a round) w more p := by
  intro s hn hs
  obtain ⟨hr, hskip⟩ := h s hn hs
  rw [hround]
  rcases hrun : round a s with ⟨b | b, s'⟩
  · rw [hrun] at hr hskip
    exact ⟨hr, hskip⟩
  · rw [hrun] at hr
    exact hr.elim

end Passes

namespace RulePasses

variable {x : Rule α} {f : α → Rule β}

theorem run {s : Parser} (h : RulePasses n x w more p) (hn : s.freeLevels = n) (hs : ahead s = w ++ more) :
    ∃ a, x s = (.ok a, skip w.length s) ∧ p a := by
  obtain ⟨hp, hskip⟩ : okAnd p (x s).1 ∧ (x s).2 = _ := h s hn hs
  rcases hx : x s with ⟨fault | a, t⟩
  · rw [hx] at hp
    exact hp.elim
  · rw [hx] at hp hskip
    obtain rfl : t = skip w.length s := hskip
    exact ⟨a, rfl, hp⟩

theorem mono {r : α → Prop} (h : RulePasses n x w more r) (hr : ∀ a, r a → p a) : RulePasses n x w more p := by
  apply Passes.mono h
  rintro (fault | a) ha
  · exact ha
  · exact hr a ha

theorem pure {a : α} (h : p a) : RulePasses n (pure a) [] more p := Passes.pure h

theorem bind (hx : RulePasses n x u (v ++ more) p) (hf : ∀ a, p a → RulePasses n (f a) v more q) :
    RulePasses n (x >>= f) (u ++ v) more q := by
  unfold RulePasses
  rw [attempt_bind]
  apply Passes.bind hx
  rintro (fault | a) ha
  · exact ha.elim
  · exact hf a ha

/-- A rule with nothing to pass behind it. -/
theorem bind_last (hx : RulePasses n x w more p) (hf : ∀ a, p a → RulePasses n (f a) [] more q) :
    RulePasses n (x >>= f) w more q := by
  rw [← List.append_nil w]
  exact bind hx hf

theorem map {g : α → β} (hx : RulePasses n x w more p) (hg : ∀ a, p a → q (g a)) :
    RulePasses n (g <$> x) w more q := by
  intro s hn hs
  obtain ⟨hp, hskip⟩ := hx s hn hs
  rw [map_apply]
  refine ⟨?_, hskip⟩
  change okAnd p (x s).1 at hp
  cases hresult : (x s).1 with
  | error fault =>
      rw [hresult] at hp
      exact hp.elim
  | ok a =>
      rw [hresult] at hp
      exact hg a hp

theorem lift {x : Parse α} (h : Passes n x w more p) : RulePasses n (liftM x) w more p := fun s hn hs => h s hn hs

theorem step {x : Parse α} (hx : Passes n x u (v ++ more) p)
    (hf : ∀ a, p a → RulePasses n (f a) v more q) : RulePasses n (liftM x >>= f) (u ++ v) more q :=
  bind (lift hx) hf

theorem step_nil {x : Parse α} (hx : Passes n x [] (w ++ more) p)
    (hf : ∀ a, p a → RulePasses n (f a) w more q) : RulePasses n (liftM x >>= f) w more q :=
  step (u := []) hx hf

theorem peekKind {f : Kind → Rule β} (h : RulePasses n (f (nextKind (w ++ more))) w more q) :
    RulePasses n (liftM Rule.peekKind >>= f) w more q := step_nil Passes.peekKind (by rintro _ rfl; exact h)

theorem peek {f : Token → Rule β} (h : RulePasses n (f t) (t :: w) more q) :
    RulePasses n (liftM Rule.peek >>= f) (t :: w) more q := step_nil Passes.peek (by rintro _ rfl; exact h)

theorem here {f : Nat → Rule β} (h : ∀ start, RulePasses n (f start) w more q) :
    RulePasses n (liftM Rule.here >>= f) w more q := step_nil Passes.here fun start _ => h start

theorem spanFrom {start : Nat} {f : Text.Span → Rule β} (h : ∀ span, RulePasses n (f span) w more q) :
    RulePasses n (liftM (Rule.spanFrom start) >>= f) w more q := step_nil (Passes.spanFrom start) fun span _ => h span

theorem check {κ : Kind} {f : Bool → Rule β} (h : RulePasses n (f (nextKind (w ++ more) == κ)) w more q) :
    RulePasses n (liftM (Rule.check κ) >>= f) w more q := step_nil (Passes.check κ) (by rintro _ rfl; exact h)

theorem advance {f : Token → Rule β} (h : RulePasses n (f t) w more q) :
    RulePasses n (liftM Rule.advance >>= f) (t :: w) more q :=
  step (u := [t]) Passes.advance (by rintro _ rfl; exact h)

theorem accept {κ : Kind} {f : Bool → Rule β} (ht : t.kind = κ) (h : RulePasses n (f true) w more q) :
    RulePasses n (liftM (Rule.accept κ) >>= f) (t :: w) more q :=
  step (u := [t]) (Passes.accept ht) (by rintro _ rfl; exact h)

theorem accept_none {κ : Kind} {f : Bool → Rule β} (hnext : nextKind (w ++ more) ≠ κ)
    (h : RulePasses n (f false) w more q) : RulePasses n (liftM (Rule.accept κ) >>= f) w more q :=
  step_nil (Passes.accept_none hnext) (by rintro _ rfl; exact h)

theorem expect {κ : Kind} {f : Token → Rule β} (ht : t.kind = κ) (h : RulePasses n (f t) w more q) :
    RulePasses n (Rule.expect κ >>= f) (t :: w) more q := by
  refine bind (u := [t]) (p := (· = t)) ?_ (by rintro _ rfl; exact h)
  intro s _ hs
  show okAnd (· = t) (Rule.expect κ s).1 ∧ (Rule.expect κ s).2 = _
  rw [expect_apply, peek_of_ahead hs, if_pos ht]
  exact ⟨rfl, rfl⟩

theorem nested (h : RulePasses n x w more p) : RulePasses (n + 1) (nested x) w more p := by
  intro s hn hs
  have hlevel : s.nesting < maxNesting := Parser.nesting_lt_of_freeLevels hn
  obtain ⟨hp, hskip⟩ := h _ (Parser.freeLevels_deeper hn) hs
  have hskip' : (x (s.withNesting (s.nesting + 1))).2 = skip w.length (s.withNesting (s.nesting + 1)) := hskip
  show okAnd p (Rule.nested x s).1 ∧ (Rule.nested x s).2 = _
  rw [nested_apply x s hlevel, hskip']
  exact ⟨hp, skip_nested w.length s⟩

/-- A rule that asks how many levels are left. -/
theorem of_levels {x : Nat → Rule α} (h : RulePasses n (x n) w more p) :
    RulePasses n (fun s => x s.freeLevels s) w more p := by
  intro s hn hs
  show okAnd p (x s.freeLevels s).1 ∧ (x s.freeLevels s).2 = _
  rw [hn]
  exact h s hn hs

theorem tryLoop_yield {round : α → Rule (ForInStep α)} {r q : α → Prop} {a : α} (hround : TryUnrolls round)
    (hfirst : RulePasses n (round a) u (v ++ more) (yieldAnd r))
    (hrest : ∀ b, r b → RulePasses n (tryLoop b round) v more q) :
    RulePasses n (tryLoop a round) (u ++ v) more q := by
  intro s hn hs
  have hs' := hs
  rw [List.append_assoc] at hs'
  obtain ⟨hr, hskip⟩ : okAnd (yieldAnd r) (round a s).1 ∧ (round a s).2 = _ := hfirst s hn hs'
  show okAnd q (tryLoop a round s).1 ∧ (tryLoop a round s).2 = _
  rw [hround]
  rcases hrun : round a s with ⟨fault | b | b, s'⟩
  · rw [hrun] at hr
    exact hr.elim
  · rw [hrun] at hr
    exact hr.elim
  · rw [hrun] at hr hskip
    have hmore := hrest b hr (skip u.length s) ((freeLevels_skip _ s).trans hn) (ahead_skip hs')
    obtain rfl : s' = skip u.length s := hskip
    rw [List.length_append, skip_add]
    exact hmore

theorem tryLoop_done {round : α → Rule (ForInStep α)} {a : α} (hround : TryUnrolls round)
    (h : RulePasses n (round a) w more (doneAnd p)) : RulePasses n (tryLoop a round) w more p := by
  intro s hn hs
  obtain ⟨hr, hskip⟩ : okAnd (doneAnd p) (round a s).1 ∧ (round a s).2 = _ := h s hn hs
  show okAnd p (tryLoop a round s).1 ∧ (tryLoop a round s).2 = _
  rw [hround]
  rcases hrun : round a s with ⟨fault | b | b, s'⟩
  · rw [hrun] at hr
    exact hr.elim
  · rw [hrun] at hr hskip
    exact ⟨hr, hskip⟩
  · rw [hrun] at hr
    exact hr.elim

end RulePasses

end CalExport.Rule
