import CalExport.Proofs.Simulation.Basic

namespace CalExport.Rule

section

variable {α β : Type} {R : Simulation} {P Q : Parser → Prop} {p q : α → Prop} {r : β → Prop} {k : Nat}

theorem attempt_bind (x : Rule α) (f : α → Rule β) :
    attempt (x >>= f) = attempt x >>= fun result =>
      match result with
      | .ok a => attempt (f a)
      | .error e => pure (.error e) := by
  funext s
  show ExceptT.bindCont f (x s).1 (x s).2 = (match (x s).1 with
    | .ok a => attempt (f a)
    | .error e => pure (.error e) : Parse (Except Fault β)) (x s).2
  cases (x s).1 <;> rfl

theorem attempt_liftM_bind (x : Parse α) (f : α → Rule β) :
    attempt (liftM x >>= f) = x >>= fun a => attempt (f a) := rfl

theorem attempt_bind_of_ok {x : Rule α} {a : α} {s t : Parser} (h : x s = (.ok a, t)) (f : α → Rule β) :
    attempt (x >>= f) s = attempt (f a) t := by
  have h' : attempt x s = (.ok a, t) := h
  rw [attempt_bind, bind_apply, h']

theorem attempt_bind_of_error {x : Rule α} {fault : Fault} {s t : Parser} (h : x s = (.error fault, t))
    (f : α → Rule β) : attempt (x >>= f) s = (.error fault, t) := by
  have h' : attempt x s = (.error fault, t) := h
  rw [attempt_bind, bind_apply, h']
  rfl

theorem bind_of_ok {x : Rule α} {f : α → Rule β} {a : α} {s t : Parser} (h : x s = (.ok a, t)) :
    (x >>= f) s = f a t := attempt_bind_of_ok h f

theorem bind_of_error {x : Rule α} {f : α → Rule β} {fault : Fault} {s t : Parser} (h : x s = (.error fault, t)) :
    (x >>= f) s = (.error fault, t) := attempt_bind_of_error h f

theorem liftM_apply (x : Parse α) (s : Parser) : (liftM x : Rule α) s = (.ok (x s).1, (x s).2) := rfl

theorem liftM_bind (x : Parse α) (f : α → Parse β) :
    (liftM (x >>= f) : Rule β) = liftM x >>= fun a => liftM (f a) := rfl

theorem liftM_ite {c : Prop} [Decidable c] (x y : Parse α) :
    (liftM (if c then x else y) : Rule α) = if c then liftM x else liftM y := by
  split <;> rfl

theorem liftM_rounds (round : α → Parse (ForInStep α)) (n : Nat) (a : α) :
    (liftM (rounds round n a) : Rule α) = tryRounds (fun a => liftM (round a)) n a := by
  induction n generalizing a with
  | zero => rfl
  | succ n ih =>
      funext s
      rcases h : round a s with ⟨b | b, t⟩
      · rw [tryRounds_done (t := t) (by rw [liftM_apply, h]), liftM_apply, rounds_done h]
      · rw [tryRounds_yield (t := t) (by rw [liftM_apply, h]), liftM_apply, rounds_yield h, ← ih, liftM_apply]

theorem liftM_loop (a : α) (round : α → Parse (ForInStep α)) :
    (liftM (loop a round) : Rule α) = tryLoop a fun a => liftM (round a) := by
  funext s
  exact congrFun (liftM_rounds round _ a) s

theorem map_apply (h : α → β) (x : Rule α) (s : Parser) : attempt (h <$> x) s = ((x s).1.map h, (x s).2) := by
  have hbind : attempt (h <$> x) s = attempt (x >>= fun a => pure (h a)) s := rfl
  rw [hbind, attempt_bind, bind_apply]
  show (match (x s).1 with
    | .ok a => attempt (pure (h a))
    | .error e => pure (.error e) : Parse (Except Fault β)) (x s).2 = _
  cases (x s).1 <;> rfl

theorem nested_apply (x : Rule α) (s : Parser) (h : s.nesting < maxNesting) :
    nested x s = ((x (s.withNesting (s.nesting + 1))).1, (x (s.withNesting (s.nesting + 1))).2.withNesting
      ((x (s.withNesting (s.nesting + 1))).2.nesting - 1)) := by
  unfold nested enterNesting
  rw [if_pos h]
  rfl

theorem nested_tooDeep (x : Rule α) (s : Parser) (h : ¬ s.nesting < maxNesting) : nested x s = tooDeep s := by
  unfold nested enterNesting
  rw [if_neg h]
  rfl

theorem forward_nested {x : Rule α} {s : Parser} (h : s.nesting < maxNesting)
    (hx : Forward (s.withNesting (s.nesting + 1)) (x (s.withNesting (s.nesting + 1))).2) :
    Forward s (nested x s).2 := by
  rw [nested_apply x s h]
  refine ⟨hx.tokens, hx.eof, hx.position, ?_, hx.preferences, hx.diagnostics⟩
  rw [Parser.nesting_withNesting, hx.nesting, Parser.nesting_withNesting, Nat.add_sub_cancel]

namespace RuleAgree

variable {x y : Rule α} {f g : α → Rule β}

theorem mono (h : RuleAgree R Q q x y) (hP : ∀ s, P s → Q s) (hp : ∀ a, p a → q a) : RuleAgree R P p x y := by
  apply Agree.mono h hP
  intro a ha
  cases a with
  | ok a => exact hp a ha
  | error e => exact ha

theorem of_below (h : RuleAgree R (Below k) p x y) (hP : ∀ s, P s → s.left < k) : RuleAgree R P p x y :=
  h.mono hP fun _ ha => ha

theorem le {j : Nat} (h : RuleAgree R (Below k) p x y) (hj : j ≤ k) : RuleAgree R (Below j) p x y :=
  h.of_below fun _ hs => Nat.lt_of_lt_of_le hs hj

theorem never (h : RuleAgree R P q x y) : RuleAgree R P Never x y := h.mono (fun _ hs => hs) fun _ ha => ha.elim

theorem forget {c : Parser → Prop} (h : RuleAgree R P p x y) : RuleAgree R (fun s => P s ∧ c s) p x y :=
  h.mono (fun _ hs => hs.1) fun _ ha => ha

theorem pure {a : α} (ha : ¬ p a) : RuleAgree R P p (pure a) (pure a) := Agree.pure ha

theorem throw (e : Fault) : RuleAgree R P p (throw e) (throw e) := Agree.pure fun h => h

theorem lift {x y : Parse α} (h : Agree R P p x y) : RuleAgree R P p (liftM x) (liftM y) := by
  refine ⟨h.steady, ?_⟩
  intro s s' hs hPs
  rcases h.alike hs hPs with hlost | ⟨hpass, hforward, heq, hrel⟩
  · exact .inl hlost
  · exact .inr ⟨hpass, hforward, congrArg Except.ok heq, hrel⟩

theorem bind_of (hP : ∀ s, P s → s.left < k) (hx : RuleAgree R P q x y)
    (hq : ∀ a, q a → RuleAgree R (Below (k - 1)) Never (f a) (g a))
    (hn : ∀ a, ¬ q a → RuleAgree R (Below k) r (f a) (g a)) : RuleAgree R P r (x >>= f) (y >>= g) := by
  unfold RuleAgree
  rw [attempt_bind, attempt_bind]
  apply Agree.bind_of hP hx
  · intro a ha
    cases a with
    | ok a => exact Agree.never (hq a ha)
    | error e => exact ha.elim
  · intro a ha
    cases a with
    | ok a => exact hn a ha
    | error e => exact Agree.pure fun h => h

theorem bind (hx : RuleAgree R (Below k) Never x y) (hf : ∀ a, RuleAgree R (Below k) r (f a) (g a)) :
    RuleAgree R (Below k) r (x >>= f) (y >>= g) :=
  bind_of (fun _ h => h) hx (fun _ h => h.elim) fun a _ => hf a

theorem andThen_of (hP : ∀ s, P s → s.left < k) (hx : RuleAgree R P Always x y)
    (hf : ∀ a, RuleAgree R (Below (k - 1)) Never (f a) (g a)) : RuleAgree R P r (x >>= f) (y >>= g) :=
  bind_of hP hx (fun a _ => hf a) fun _ h => absurd trivial h

theorem andThen (hx : RuleAgree R (Below k) Always x y)
    (hf : ∀ a, RuleAgree R (Below (k - 1)) Never (f a) (g a)) : RuleAgree R (Below k) r (x >>= f) (y >>= g) :=
  andThen_of (fun _ h => h) hx hf

theorem map {h : α → β} (hx : RuleAgree R P p x y) (hp : ∀ a, r (h a) → p a) :
    RuleAgree R P r (h <$> x) (h <$> y) := by
  refine ⟨fun s => map_apply h x s ▸ hx.steady s, ?_⟩
  intro s s' hs hPs
  rw [map_apply, map_apply]
  rcases hx.alike hs hPs with hlost | ⟨hpass, hforward, heq, hrel⟩
  · exact .inl hlost
  · refine .inr ⟨?_, hforward, congrArg (Except.map h) heq, hrel⟩
    intro hr
    apply hpass
    show okAnd p (x s).1
    have hr' : okAnd r (Except.map h (x s).1) := hr
    cases hxs : (x s).1 with
    | ok a =>
        rw [hxs] at hr'
        exact hp a hr'
    | error e =>
        rw [hxs] at hr'
        exact hr'

theorem step {x y : Parse α} (hx : Agree R (Below k) Never x y) (hf : ∀ a, RuleAgree R (Below k) r (f a) (g a)) :
    RuleAgree R (Below k) r (liftM x >>= f) (liftM y >>= g) := bind (lift hx) hf

theorem look {h h' : Parser → α} (heq : ∀ s s', R.rel s s' → P s → h' s' = h s)
    (hf : ∀ a, RuleAgree R (fun s => P s ∧ h s = a) r (f a) (g a)) :
    RuleAgree R P r (liftM (Rule.look h) >>= f) (liftM (Rule.look h') >>= g) := by
  unfold RuleAgree
  rw [attempt_liftM_bind, attempt_liftM_bind]
  exact Agree.look heq hf

theorem peek {f g : Token → Rule β} (hf : ∀ t, RuleAgree R (fun s => P s ∧ s.peek = t) r (f t) (g t)) :
    RuleAgree R P r (liftM Rule.peek >>= f) (liftM Rule.peek >>= g) := by
  unfold RuleAgree
  rw [attempt_liftM_bind, attempt_liftM_bind]
  exact Agree.peek hf

theorem peekKind {f g : Kind → Rule β} (hf : ∀ κ, RuleAgree R (fun s => P s ∧ s.peek.kind = κ) r (f κ) (g κ)) :
    RuleAgree R P r (liftM Rule.peekKind >>= f) (liftM Rule.peekKind >>= g) := by
  unfold RuleAgree
  rw [attempt_liftM_bind, attempt_liftM_bind]
  exact Agree.peekKind hf

theorem here {f g : Nat → Rule β} (hf : ∀ n, RuleAgree R P r (f n) (g (n + R.shift))) :
    RuleAgree R P r (liftM Rule.here >>= f) (liftM Rule.here >>= g) := by
  unfold RuleAgree
  rw [attempt_liftM_bind, attempt_liftM_bind]
  exact Agree.here hf

theorem depth {f g : Nat → Rule β}
    (hf : ∀ n, RuleAgree R (fun s => P s ∧ s.braceDepth = n) r (f n) (g (n + R.deep))) :
    RuleAgree R P r (liftM Rule.depth >>= f) (liftM Rule.depth >>= g) := by
  unfold RuleAgree
  rw [attempt_liftM_bind, attempt_liftM_bind]
  exact Agree.depth hf

theorem spanFrom {start : Nat} {f g : Text.Span → Rule β} (hf : ∀ span, RuleAgree R P r (f span) (g span)) :
    RuleAgree R P r (liftM (Rule.spanFrom start) >>= f) (liftM (Rule.spanFrom (start + R.shift)) >>= g) := by
  unfold RuleAgree
  rw [attempt_liftM_bind, attempt_liftM_bind]
  exact Agree.spanFrom hf

theorem advance {f g : Token → Rule β} (hP : ∀ s, P s → s.left < k ∧ R.May s.peek.kind)
    (hf : ∀ t, RuleAgree R (Below (k - 1)) Never (f t) (g t)) :
    RuleAgree R P r (liftM Rule.advance >>= f) (liftM Rule.advance >>= g) := by
  unfold RuleAgree
  rw [attempt_liftM_bind, attempt_liftM_bind]
  exact Agree.advance hP fun t => Agree.never (hf t)

theorem advance_token {t : Token} {f g : Token → Rule β} (ht : R.May t.kind)
    (hf : ∀ t, RuleAgree R (Below (k - 1)) Never (f t) (g t)) :
    RuleAgree R (fun s => Below k s ∧ s.peek = t) r (liftM Rule.advance >>= f) (liftM Rule.advance >>= g) :=
  advance (fun _ hs => ⟨hs.1, hs.2.symm ▸ ht⟩) hf

theorem advance_kind {κ : Kind} {f g : Token → Rule β} (hκ : R.May κ)
    (hf : ∀ t, RuleAgree R (Below (k - 1)) Never (f t) (g t)) :
    RuleAgree R (fun s => Below k s ∧ s.peek.kind = κ) r (liftM Rule.advance >>= f) (liftM Rule.advance >>= g) :=
  advance (fun _ hs => ⟨hs.1, hs.2.symm ▸ hκ⟩) hf

theorem test {c c' : Parser → Bool} {f g : Bool → Rule β} (heq : ∀ s s', R.rel s s' → P s → c' s' = c s)
    (hf : ∀ b, RuleAgree R (fun s => P s ∧ c s = b) r (f b) (g b)) :
    RuleAgree R P r (liftM (Rule.test c) >>= f) (liftM (Rule.test c') >>= g) := look heq hf

/-- Looking for a token of some kind, without passing it. -/
theorem check {κ : Kind} {f g : Bool → Rule β} (hf : ∀ found, RuleAgree R P r (f found) (g found)) :
    RuleAgree R P r (liftM (Rule.check κ) >>= f) (liftM (Rule.check κ) >>= g) := by
  apply look
  · intro s s' hs _
    show s'.check κ = s.check κ
    rw [Cursor.check, Cursor.check, R.peek_eq hs]
  · intro found
    exact (hf found).forget

theorem check_ite {κ : Kind} {a b a' b' : Rule α} (hyes : RuleAgree R P p a a') (hno : RuleAgree R P p b b') :
    RuleAgree R P p (liftM (Rule.check κ) >>= fun found => if found = true then a else b)
      (liftM (Rule.check κ) >>= fun found => if found = true then a' else b') := by
  apply check
  intro found
  split
  · exact hyes
  · exact hno

theorem accept_bind {κ : Kind} {f g : Bool → Rule β} (hκ : R.May κ)
    (hf : ∀ found, RuleAgree R (Below k) r (f found) (g found)) :
    RuleAgree R (Below k) r (liftM (Rule.accept κ) >>= f) (liftM (Rule.accept κ) >>= g) :=
  step (Agree.accept hκ).never hf

theorem accept_ite {κ : Kind} {a b a' b' : Rule α} (hκ : R.May κ) (hyes : RuleAgree R (Below (k - 1)) Never a a')
    (hno : RuleAgree R (Below k) p b b') :
    RuleAgree R (Below k) p (liftM (Rule.accept κ) >>= fun found => if found = true then a else b)
      (liftM (Rule.accept κ) >>= fun found => if found = true then a' else b') := by
  apply bind_of (fun _ h => h) (lift (Agree.accept hκ))
  · intro found hfound
    rw [if_pos hfound, if_pos hfound]
    exact hyes
  · intro found hfound
    rw [if_neg hfound, if_neg hfound]
    exact hno

theorem expect {κ : Kind} (hκ : R.May κ) : RuleAgree R P Always (Rule.expect κ) (Rule.expect κ) := by
  refine ⟨?_, ?_⟩
  · intro s
    show Forward s (Rule.expect κ s).2
    rw [expect_apply]
    split
    · exact forward_advance s
    · exact Forward.refl s
  · intro s s' hs _
    show Alike R (okAnd Always) s s' (Rule.expect κ s) (Rule.expect κ s')
    rw [expect_apply, expect_apply, R.peek_eq hs]
    by_cases hk : s.peek.kind = κ
    · rw [if_pos hk, if_pos hk]
      rcases R.advance hs (fun h => hκ.2 (hk.symm.trans h)) with hlost | hrel
      · exact .inl hlost
      · exact .inr ⟨fun _ => left_advance_lt (hk.symm ▸ hκ.1), forward_advance s', rfl, hrel⟩
    · rw [if_neg hk, if_neg hk]
      exact .inr ⟨fun h => h.elim, Forward.refl s', rfl, hs⟩

/-- A token of the wanted kind, and what stands behind it. -/
theorem expect_then {κ : Kind} {f g : Token → Rule β} (hκ : R.May κ)
    (hf : ∀ t, RuleAgree R (Below (k - 1)) Never (f t) (g t)) :
    RuleAgree R (Below k) r (Rule.expect κ >>= f) (Rule.expect κ >>= g) := andThen (expect hκ) hf

theorem tooDeep : RuleAgree R P p (Rule.tooDeep : Rule α) Rule.tooDeep := by
  refine ⟨Forward.refl, ?_⟩
  intro s s' hs _
  refine .inr ⟨fun h => h.elim, Forward.refl s', ?_, hs⟩
  show Except.error (Fault.nestingTooDeep s.peek.span) = Except.error (Fault.nestingTooDeep s'.peek.span)
  rw [R.peek_eq hs]

/-- The level is left again, so the runs end on the level they began on. -/
theorem nested (h : RuleAgree R (Below k) p x y) : RuleAgree R (Below k) p (Rule.nested x) (Rule.nested y) := by
  refine ⟨?_, ?_⟩
  · intro s
    by_cases hn : s.nesting < maxNesting
    · exact forward_nested hn (h.steady _)
    · show Forward s (Rule.nested x s).2
      rw [nested_tooDeep x s hn]
      exact Forward.refl s
  · intro s s' hs hPs
    show Alike R (okAnd p) s s' (Rule.nested x s) (Rule.nested y s')
    have hs' := R.nesting_eq hs
    by_cases hn : s.nesting < maxNesting
    · have hn' : s'.nesting < maxNesting := hs'.symm ▸ hn
      have hx := h.steady (s.withNesting (s.nesting + 1))
      have halike := h.alike (R.withNesting (s.nesting + 1) hs) hPs
      rw [nested_apply x s hn, nested_apply y s' hn', hs']
      rcases halike with hlost | ⟨hpass, hy, heq, hrel⟩
      · exact .inl (R.lost_mono (s := (x (s.withNesting (s.nesting + 1))).2) rfl (Nat.le_refl _) hlost)
      · have hsame : (y (s'.withNesting (s.nesting + 1))).2.nesting - 1 =
            (x (s.withNesting (s.nesting + 1))).2.nesting - 1 :=
          congrArg (· - 1) (hy.nesting.trans hx.nesting.symm)
        have hforward := forward_nested (x := y) hn' (hs'.symm ▸ hy)
        rw [nested_apply y s' hn', hs'] at hforward
        refine .inr ⟨hpass, hforward, heq, ?_⟩
        rw [hsame]
        exact R.withNesting _ hrel
    · have hn' : ¬ s'.nesting < maxNesting := hs'.symm ▸ hn
      rw [nested_tooDeep x s hn, nested_tooDeep y s' hn']
      exact (tooDeep (P := Below k)).alike hs hPs

end RuleAgree

/-- Rules that depend on the levels left do the same in both runs. -/
theorem RuleAgree.of_levels {x y : Nat → Rule α} (h : ∀ n, RuleAgree R P p (x n) (y n)) :
    RuleAgree R P p (fun s => x s.freeLevels s) (fun s => y s.freeLevels s) := by
  refine ⟨fun s => (h _).steady s, ?_⟩
  intro s s' hs hPs
  have hlevels : s'.freeLevels = s.freeLevels := by rw [Parser.freeLevels, Parser.freeLevels, R.nesting_eq hs]
  show Alike R (okAnd p) s s' (x s.freeLevels s) (y s'.freeLevels s')
  rw [hlevels]
  exact (h _).alike hs hPs

/-- A rule and what follows its outcome. What follows a failure is judged by what it has passed since the rule
began. -/
theorem Agree.recover {x y : Rule α} {f g : Except Fault α → Parse β} (hP : ∀ s, P s → s.left < k)
    (hx : RuleAgree R P Always x y) (hok : ∀ a, Agree R (Below (k - 1)) Never (f (.ok a)) (g (.ok a)))
    (herror : ∀ e, Agree R (fun t => Below k t ∧ ∃ s s', R.rel s s' ∧ P s) Never (f (.error e)) (g (.error e)))
    (hpass : ∀ e s t, P s → Forward s t → r (f (.error e) t).1 → (f (.error e) t).2.left < s.left) :
    Agree R P r (attempt x >>= f) (attempt y >>= g) := by
  refine ⟨?_, ?_⟩
  · intro s
    have hx' := hx.steady s
    rw [bind_apply]
    cases (attempt x s).1 with
    | ok a => exact hx'.trans ((hok a).steady _)
    | error e => exact hx'.trans ((herror e).steady _)
  · intro s s' hs hPs
    have hx' := hx.steady s
    rw [bind_apply, bind_apply]
    rcases hx.alike hs hPs with hlost | ⟨hless, hforward, heq, hrel⟩
    · left
      cases (attempt x s).1 with
      | ok a => exact R.lost_of_forward ((hok a).steady _) hlost
      | error e => exact R.lost_of_forward ((herror e).steady _) hlost
    · rw [← heq]
      have hk := hP s hPs
      cases hresult : (attempt x s).1 with
      | ok a =>
          rw [hresult] at hless
          have hlt : (attempt x s).2.left < s.left := hless trivial
          have hbelow : Below (k - 1) (attempt x s).2 := show (attempt x s).2.left < k - 1 by omega
          have hle := ((hok a).steady (attempt x s).2).left_le
          rcases (hok a).alike hrel hbelow with hlost | ⟨-, hforward', hsame⟩
          · exact .inl hlost
          · exact .inr ⟨fun _ => Nat.lt_of_le_of_lt hle hlt, hforward.trans hforward', hsame⟩
      | error e =>
          have hbelow : Below k (attempt x s).2 := Nat.lt_of_le_of_lt hx'.left_le hk
          rcases (herror e).alike hrel ⟨hbelow, s, s', hs, hPs⟩ with hlost | ⟨-, hforward', hsame⟩
          · exact .inl hlost
          · exact .inr ⟨hpass e s _ hPs hx', hforward.trans hforward', hsame⟩

theorem steady_rounds {round : α → Parse (ForInStep α)} (h : ∀ a, Steady (round a)) (n : Nat) (a : α) :
    Steady (rounds round n a) := by
  intro s
  induction n generalizing a s with
  | zero => exact Forward.refl s
  | succ n ih =>
      have hround := h a s
      rcases hr : round a s with ⟨b | b, t⟩
      · rw [rounds_done hr]
        rw [hr] at hround
        exact hround
      · rw [rounds_yield hr]
        rw [hr] at hround
        exact hround.trans (ih b t)

theorem steady_tryRounds {round : α → Rule (ForInStep α)} (h : ∀ a, Steady (attempt (round a))) (n : Nat) (a : α) :
    Steady (attempt (tryRounds round n a)) := by
  intro s
  show Forward s (tryRounds round n a s).2
  induction n generalizing a s with
  | zero => exact Forward.refl s
  | succ n ih =>
      have hround : Forward s (round a s).2 := h a s
      rcases hr : round a s with ⟨fault | b | b, t⟩
      · rw [tryRounds_error hr]
        rw [hr] at hround
        exact hround
      · rw [tryRounds_done hr]
        rw [hr] at hround
        exact hround
      · rw [tryRounds_yield hr]
        rw [hr] at hround
        exact hround.trans (ih b t)

/-- A loop whose first round passes a token. -/
theorem loop_passes {round : α → Parse (ForInStep α)} (h : ∀ a, Steady (round a)) {a : α} {s : Parser}
    (hfirst : (round a s).2.left < s.left) : (loop a round s).2.left < s.left := by
  unfold loop
  rcases hr : round a s with ⟨b | b, t⟩
  · rw [rounds_done hr]
    rw [hr] at hfirst
    exact hfirst
  · rw [rounds_yield hr]
    rw [hr] at hfirst
    exact Nat.lt_of_le_of_lt (steady_rounds h _ b t).left_le hfirst

/-- When the first run has passed a token then so has the second. -/
theorem Simulation.left_lt (R : Simulation) {s s' t t' : Parser} (hs : R.rel s s') (ht : R.rel t t')
    (h : Forward s t) (h' : Forward s' t') (hlt : t.left < s.left) : t'.left < s'.left := by
  rw [h'.left_lt_iff, R.position_eq hs, R.position_eq ht]
  rw [h.left_lt_iff] at hlt
  omega

/-- `I` holds of every state that a round of the first run begins in, while the runs are related. -/
structure Invariant (R : Simulation) (round : α → Parse (ForInStep α)) (I : α → Parser → Prop) : Prop where
  preserved {a b s s' t t'} : R.rel s s' → R.rel t t' → round a s = (.yield b, t) → I a s → I b t

theorem alike_rounds {round round' : α → Parse (ForInStep α)} {I : α → Parser → Prop}
    (h : ∀ a, Agree R (fun s => Below k s ∧ I a s) Yields (round a) (round' a)) (hI : Invariant R round I)
    (n m : Nat) (a : α) {s s' : Parser} (hs : R.rel s s') (hk : s.left < k) (ha : I a s) (hn : s.left < n)
    (hm : s'.left < m) :
    Alike R Never s s' (rounds round n a s) (rounds round' m a s') := by
  induction n generalizing m a s s' with
  | zero => exact absurd hn (Nat.not_lt_zero _)
  | succ n ih =>
      obtain ⟨m, rfl⟩ : ∃ j, m = j + 1 := ⟨m - 1, by omega⟩
      have hforward := (h a).steady s
      have halike := (h a).alike hs ⟨hk, ha⟩
      rcases hr : round a s with ⟨result, t⟩
      rcases hr' : round' a s' with ⟨result', t'⟩
      rw [hr] at hforward
      rw [hr, hr'] at halike
      rcases halike with hlost | ⟨hpass, hforward', heq, hrel⟩
      · left
        cases result with
        | done b =>
            rw [rounds_done hr]
            exact hlost
        | yield b =>
            rw [rounds_yield hr]
            exact R.lost_of_forward (steady_rounds (fun a => (h a).steady) n b t) hlost
      · obtain rfl : result = result' := heq
        cases result with
        | done b =>
            rw [rounds_done hr, rounds_done hr']
            exact .inr ⟨fun h => h.elim, hforward', rfl, hrel⟩
        | yield b =>
            rw [rounds_yield hr, rounds_yield hr']
            have hlt : t.left < s.left := hpass trivial
            have hlt' : t'.left < s'.left := R.left_lt hs hrel hforward hforward' hlt
            have hrel : R.rel t t' := hrel
            rcases ih m b hrel (by omega) (hI.preserved hs hrel hr ha) (by omega) (by omega) with hlost | ⟨-, hforward'', hsame⟩
            · exact .inl hlost
            · exact .inr ⟨fun h => h.elim, hforward'.trans hforward'', hsame⟩

theorem alike_tryRounds {round round' : α → Rule (ForInStep α)}
    (h : ∀ a, RuleAgree R (Below k) Yields (round a) (round' a)) (n m : Nat) (a : α) {s s' : Parser}
    (hs : R.rel s s') (hk : s.left < k) (hn : s.left < n) (hm : s'.left < m) :
    Alike R (okAnd Never) s s' (tryRounds round n a s) (tryRounds round' m a s') := by
  induction n generalizing m a s s' with
  | zero => exact absurd hn (Nat.not_lt_zero _)
  | succ n ih =>
      obtain ⟨m, rfl⟩ : ∃ j, m = j + 1 := ⟨m - 1, by omega⟩
      have hforward : Forward s (round a s).2 := (h a).steady s
      have halike : Alike R (okAnd Yields) s s' (round a s) (round' a s') := (h a).alike hs hk
      rcases hr : round a s with ⟨result, t⟩
      rcases hr' : round' a s' with ⟨result', t'⟩
      rw [hr] at hforward
      rw [hr, hr'] at halike
      rcases halike with hlost | ⟨hpass, hforward', heq, hrel⟩
      · left
        rcases result with fault | b | b
        · rw [tryRounds_error hr]
          exact hlost
        · rw [tryRounds_done hr]
          exact hlost
        · rw [tryRounds_yield hr]
          exact R.lost_of_forward (steady_tryRounds (fun a => (h a).steady) n b t) hlost
      · obtain rfl : result = result' := heq
        rcases result with fault | b | b
        · rw [tryRounds_error hr, tryRounds_error hr']
          exact .inr ⟨fun h => h.elim, hforward', rfl, hrel⟩
        · rw [tryRounds_done hr, tryRounds_done hr']
          exact .inr ⟨fun h => h.elim, hforward', rfl, hrel⟩
        · rw [tryRounds_yield hr, tryRounds_yield hr']
          have hlt : t.left < s.left := hpass trivial
          have hlt' : t'.left < s'.left := R.left_lt hs hrel hforward hforward' hlt
          have hrel : R.rel t t' := hrel
          rcases ih m b hrel (by omega) (by omega) (by omega) with hlost | ⟨-, hforward'', hsame⟩
          · exact .inl hlost
          · exact .inr ⟨fun h => (not_okAnd_never h).elim, hforward'.trans hforward'', hsame⟩

theorem Agree.loop_of {round round' : α → Parse (ForInStep α)} {I : α → Parser → Prop}
    (h : ∀ a, Agree R (fun s => Below k s ∧ I a s) Yields (round a) (round' a)) (hI : Invariant R round I) (a : α) :
    Agree R (fun s => Below k s ∧ I a s) Never (Rule.loop a round) (Rule.loop a round') :=
  ⟨fun s => steady_rounds (fun a => (h a).steady) _ a s, fun hs hk =>
    alike_rounds h hI _ _ a hs hk.1 hk.2 (Nat.lt_succ_self _) (Nat.lt_succ_self _)⟩

theorem Agree.loop {round round' : α → Parse (ForInStep α)}
    (h : ∀ a, Agree R (Below k) Yields (round a) (round' a)) (a : α) :
    Agree R (Below k) Never (Rule.loop a round) (Rule.loop a round') := by
  have hloop := Agree.loop_of (I := fun _ _ => True) (fun a => (h a).forget) ⟨fun _ _ _ _ => trivial⟩ a
  exact hloop.mono (fun _ hs => ⟨hs, trivial⟩) fun _ ha => ha

theorem RuleAgree.tryLoop {round round' : α → Rule (ForInStep α)}
    (h : ∀ a, RuleAgree R (Below k) Yields (round a) (round' a)) (a : α) :
    RuleAgree R (Below k) Never (Rule.tryLoop a round) (Rule.tryLoop a round') :=
  ⟨fun s => steady_tryRounds (fun a => (h a).steady) _ a s, fun hs hk =>
    alike_tryRounds h _ _ a hs hk (Nat.lt_succ_self _) (Nat.lt_succ_self _)⟩

end

end CalExport.Rule
