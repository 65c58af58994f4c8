import CalExport.Proofs.Kinship.Basic

namespace CalExport

namespace Kinship.Blames

variable {K : Kinship} {t t' : Token}

theorem expected (what : String) (h : K.akin t t') : K.Blames (.expected what t) (.expected what t') := by
  unfold Fault.expected
  rw [K.kind_eq h, K.span_eq h]
  split
  · exact refl _
  · exact ⟨rfl, rfl, K.word_append rfl (K.description h)⟩

theorem missing (delimiter : String) (h : K.akin t t') : K.Blames (.missing delimiter t) (.missing delimiter t') :=
  ⟨rfl, K.span_eq h, K.word_append rfl (K.description h)⟩

theorem invalidInteger (h : K.akin t t') :
    K.Blames (.invalidInteger t.description t.span) (.invalidInteger t'.description t'.span) :=
  ⟨rfl, K.span_eq h, K.word_append rfl (K.description h)⟩

theorem unknownTrigger (h : K.akin t t') :
    K.Blames (.unknownTrigger t.description t.span) (.unknownTrigger t'.description t'.span) :=
  ⟨rfl, K.span_eq h, K.word_append rfl (K.description h)⟩

end Kinship.Blames

namespace Rule

variable {α β : Type} {K : Kinship} {r : α → α → Prop} {q : β → β → Prop}

namespace RuleKeeps

variable {x y : Rule α} {f g : α → Rule β}

theorem pure {a b : α} (h : r a b) : RuleKeeps K r (pure a) (pure b) := fun _ _ hs => ⟨h, hs⟩

theorem throw {e e' : Fault} (h : K.Blames e e') : RuleKeeps K r (throw e) (throw e') := fun _ _ hs => ⟨h, hs⟩

theorem lift {x y : Parse α} (h : Keeps K r x y) : RuleKeeps K r (liftM x) (liftM y) := h

theorem bind (hx : RuleKeeps K r x y) (hf : ∀ a b, r a b → RuleKeeps K q (f a) (g b)) :
    RuleKeeps K q (x >>= f) (y >>= g) := by
  unfold RuleKeeps
  rw [attempt_bind, attempt_bind]
  apply Keeps.bind hx
  intro a b hab
  cases a with
  | error e =>
      cases b with
      | error e' => exact Keeps.pure hab
      | ok b => exact hab.elim
  | ok a =>
      cases b with
      | error e => exact hab.elim
      | ok b => exact hf a b hab

/-- A first rule with the same result in both runs. -/
theorem bind_eq (hx : RuleKeeps K Eq x y) (hf : ∀ a, RuleKeeps K q (f a) (g a)) :
    RuleKeeps K q (x >>= f) (y >>= g) := by
  apply hx.bind
  rintro a _ rfl
  exact hf a

theorem map (hx : RuleKeeps K r x y) {h h' : α → β} (hq : ∀ a b, r a b → q (h a) (h' b)) :
    RuleKeeps K q (h <$> x) (h' <$> y) := by
  have hmap : ∀ (h : α → β) (x : Rule α), h <$> x = x >>= fun a => Pure.pure (h a) := fun _ _ => rfl
  rw [hmap, hmap]
  apply hx.bind
  intro a b hab
  exact pure (hq a b hab)

end RuleKeeps

/-- A step that cannot fail, in front of a rule. -/
theorem Keeps.step {x y : Parse α} {f g : α → Rule β} (hx : Keeps K r x y)
    (hf : ∀ a b, r a b → RuleKeeps K q (f a) (g b)) : RuleKeeps K q (liftM x >>= f) (liftM y >>= g) :=
  RuleKeeps.bind (.lift hx) hf

theorem Keeps.step_eq {x y : Parse α} {f g : α → Rule β} (hx : Keeps K Eq x y)
    (hf : ∀ a, RuleKeeps K q (f a) (g a)) : RuleKeeps K q (liftM x >>= f) (liftM y >>= g) :=
  RuleKeeps.bind_eq (.lift hx) hf

/-- A token of the wanted kind. -/
theorem keeps_expect (κ : Kind) : RuleKeeps K (fun t t' => K.akin t t' ∧ t.kind = κ) (expect κ) (expect κ) := by
  intro s s' hs
  show K.Outcome _ (expect κ s).1 (expect κ s').1 ∧ K.Near (expect κ s).2 (expect κ s').2
  rw [expect_apply, expect_apply, hs.cursor.kind_peek]
  split
  · rename_i hk
    obtain ⟨hakin, hnear⟩ := keeps_advance s s' hs
    exact ⟨⟨hakin, hk⟩, hnear⟩
  · exact ⟨.expected _ hs.cursor.peek, hs⟩

/-- A token of the wanted kind, and what stands behind it. -/
theorem keeps_expect_then {κ : Kind} {f g : Token → Rule β}
    (hf : ∀ t t', K.akin t t' → t.kind = κ → RuleKeeps K q (f t) (g t')) :
    RuleKeeps K q (expect κ >>= f) (expect κ >>= g) :=
  (keeps_expect κ).bind fun t t' ht => hf t t' ht.1 ht.2

/-- Two rules end near each other from the states given, of which more is known than that they are near. -/
def Meet (K : Kinship) (r : α → α → Prop) (x y : Rule α) (s s' : Parser) : Prop :=
  K.Outcome r (x s).1 (y s').1 ∧ K.Near (x s).2 (y s').2

namespace Meet

variable {s s' : Parser}

theorem of_keeps {x y : Rule α} (h : RuleKeeps K r x y) (hs : K.Near s s') : Meet K r x y s s' := h s s' hs

/-- A step made of two is a step in front of a rule that cannot fail. -/
theorem lift_bind {x y : Parse α} {f g : α → Parse β}
    (h : Meet K q (liftM x >>= fun a => liftM (f a)) (liftM y >>= fun a => liftM (g a)) s s') :
    Meet K q (liftM (x >>= f)) (liftM (y >>= g)) s s' := h

theorem here {f g : Nat → Rule β} (hs : K.Near s s') (hf : ∀ start, Meet K q (f start) (g start) s s') :
    Meet K q (liftM Rule.here >>= f) (liftM Rule.here >>= g) s s' := by
  have h := hf s.position
  have hposition := hs.cursor.position
  show Meet K q (f s.position) (g s'.position) s s'
  rw [hposition]
  exact h

theorem look {h : Parser → α} {f g : α → Rule β} (heq : h s' = h s) (hf : Meet K q (f (h s)) (g (h s)) s s') :
    Meet K q (liftM (Rule.look h) >>= f) (liftM (Rule.look h) >>= g) s s' := by
  show Meet K q (f (h s)) (g (h s')) s s'
  rw [heq]
  exact hf

theorem peek {f g : Token → Rule β} (h : Meet K q (f s.peek) (g s'.peek) s s') :
    Meet K q (liftM Rule.peek >>= f) (liftM Rule.peek >>= g) s s' := h

theorem lift_peek {f g : Token → Parse β} (hs : K.Near s s') (h : Keeps K q (f s.peek) (g s'.peek)) :
    Meet K q (liftM (Rule.peek >>= f)) (liftM (Rule.peek >>= g)) s s' := h s s' hs

/-- A first step that cannot fail. -/
theorem step {x y : Parse α} {f g : α → Rule β} (hx : Meet K r (liftM x) (liftM y) s s')
    (hf : ∀ a b, r a b → RuleKeeps K q (f a) (g b)) : Meet K q (liftM x >>= f) (liftM y >>= g) s s' :=
  hf _ _ hx.1 _ _ hx.2

/-- The token that was next is passed. -/
theorem advance {f g : Token → Rule β} (hs : K.Near s s')
    (hf : ∀ t t', K.akin t t' → t.kind = s.peek.kind → RuleKeeps K q (f t) (g t')) :
    Meet K q (liftM Rule.advance >>= f) (liftM Rule.advance >>= g) s s' :=
  hf s.peek s'.peek hs.cursor.peek rfl _ _ (keeps_advance s s' hs).2

/-- A token of the wanted kind is there, or the rules fail. -/
theorem expect {κ : Kind} {f g : Token → Rule β} (hs : K.Near s s')
    (hf : s.peek.kind = κ → Meet K q (f s.peek) (g s'.peek) (Rule.advance s).2 (Rule.advance s').2) :
    Meet K q (Rule.expect κ >>= f) (Rule.expect κ >>= g) s s' := by
  have hkind := hs.cursor.kind_peek
  by_cases hk : s.peek.kind = κ
  · have hx : Rule.expect κ s = (.ok s.peek, (Rule.advance s).2) := by rw [expect_apply, if_pos hk]
    have hy : Rule.expect κ s' = (.ok s'.peek, (Rule.advance s').2) := by rw [expect_apply, if_pos (hkind.trans hk)]
    have h := hf hk
    show K.Outcome q (attempt (Rule.expect κ >>= f) s).1 (attempt (Rule.expect κ >>= g) s').1 ∧
      K.Near (attempt (Rule.expect κ >>= f) s).2 (attempt (Rule.expect κ >>= g) s').2
    rw [attempt_bind_of_ok hx, attempt_bind_of_ok hy]
    exact h
  · have hx : Rule.expect κ s = (.error (.expected κ.describe s.peek), s) := by rw [expect_apply, if_neg hk]
    have hy : Rule.expect κ s' = (.error (.expected κ.describe s'.peek), s') := by
      rw [expect_apply, if_neg (hkind ▸ hk)]
    show K.Outcome q (attempt (Rule.expect κ >>= f) s).1 (attempt (Rule.expect κ >>= g) s').1 ∧
      K.Near (attempt (Rule.expect κ >>= f) s).2 (attempt (Rule.expect κ >>= g) s').2
    rw [attempt_bind_of_error hx, attempt_bind_of_error hy]
    exact ⟨.expected _ hs.cursor.peek, hs⟩

/-- A rule, and what follows its outcome. -/
theorem recover {x y : Rule α} {f g : Except Fault α → Parse β} (hx : Meet K r x y s s')
    (hok : ∀ a b, r a b → Keeps K q (f (.ok a)) (g (.ok b)))
    (herror : ∀ e e', K.Blames e e' → Keeps K q (f (.error e)) (g (.error e'))) :
    Meet K q (liftM (attempt x >>= f)) (liftM (attempt y >>= g)) s s' := by
  have hrun : ∀ a b t t', K.Outcome r a b → K.Near t t' → q (f a t).1 (g b t').1 ∧ K.Near (f a t).2 (g b t').2 := by
    intro a b t t' hab ht
    cases a with
    | error e =>
        cases b with
        | error e' => exact herror e e' hab t t' ht
        | ok b => exact hab.elim
    | ok a =>
        cases b with
        | error e => exact hab.elim
        | ok b => exact hok a b hab t t' ht
  exact hrun _ _ _ _ hx.1 hx.2

end Meet

theorem Keeps.of_meet {x y : Parse α} (h : ∀ s s', K.Near s s' → Meet K r (liftM x) (liftM y) s s') :
    Keeps K r x y := h

theorem RuleKeeps.recover {x y : Rule α} {f g : Except Fault α → Parse β} (hx : RuleKeeps K r x y)
    (hok : ∀ a b, r a b → Keeps K q (f (.ok a)) (g (.ok b)))
    (herror : ∀ e e', K.Blames e e' → Keeps K q (f (.error e)) (g (.error e'))) :
    Keeps K q (attempt x >>= f) (attempt y >>= g) :=
  Keeps.of_meet fun _ _ hs => Meet.recover (.of_keeps hx hs) hok herror

theorem near_withNesting {s s' : Parser} (h : K.Near s s') {n n' : Nat} (hn : n' = n) :
    K.Near (s.withNesting n) (s'.withNesting n') :=
  ⟨h.cursor, hn, h.capped, h.preferences, h.diagnostics, h.skipped, h.events⟩

theorem keeps_tooDeep : RuleKeeps K r (tooDeep : Rule α) tooDeep := by
  intro s s' hs
  refine ⟨⟨rfl, ?_, rfl⟩, hs⟩
  exact K.span_eq hs.cursor.peek

theorem keeps_nested {x y : Rule α} (h : RuleKeeps K r x y) : RuleKeeps K r (nested x) (nested y) := by
  intro s s' hs
  show K.Outcome r (nested x s).1 (nested y s').1 ∧ K.Near (nested x s).2 (nested y s').2
  have hnesting := hs.nesting
  by_cases hn : s.nesting < maxNesting
  · have hn' : s'.nesting < maxNesting := hnesting.symm ▸ hn
    rw [nested_apply x s hn, nested_apply y s' hn', hnesting]
    obtain ⟨hresult, hnear⟩ := h _ _ (near_withNesting hs rfl)
    exact ⟨hresult, near_withNesting hnear (congrArg (· - 1) hnear.nesting)⟩
  · have hn' : ¬ s'.nesting < maxNesting := hnesting.symm ▸ hn
    rw [nested_tooDeep x s hn, nested_tooDeep y s' hn']
    exact keeps_tooDeep s s' hs

/-- Rules that depend on the levels left. -/
theorem keeps_levels {x y : Nat → Rule α} (h : ∀ n, RuleKeeps K r (x n) (y n)) :
    RuleKeeps K r (fun s => x s.freeLevels s) (fun s => y s.freeLevels s) := by
  intro s s' hs
  have hlevels : s'.freeLevels = s.freeLevels := by rw [Parser.freeLevels, Parser.freeLevels, hs.nesting]
  show K.Outcome r (x s.freeLevels s).1 (y s'.freeLevels s').1 ∧ K.Near (x s.freeLevels s).2 (y s'.freeLevels s').2
  rw [hlevels]
  exact h _ s s' hs

theorem keeps_rounds {round round' : α → Parse (ForInStep α)}
    (h : ∀ a b, r a b → Keeps K (Kinship.Round r) (round a) (round' b)) (n : Nat) {a b : α} (hab : r a b) :
    Keeps K r (rounds round n a) (rounds round' n b) := by
  induction n generalizing a b with
  | zero => exact fun _ _ hs => ⟨hab, hs⟩
  | succ n ih =>
      intro s s' hs
      obtain ⟨hresult, hnear⟩ := h a b hab s s' hs
      rcases hr : round a s with ⟨c | c, t⟩ <;> rcases hr' : round' b s' with ⟨d | d, t'⟩ <;> rw [hr, hr'] at hresult hnear
      · rw [rounds_done hr, rounds_done hr']
        exact ⟨hresult, hnear⟩
      · exact hresult.elim
      · exact hresult.elim
      · rw [rounds_yield hr, rounds_yield hr']
        exact ih hresult t t' hnear

theorem keeps_loop {round round' : α → Parse (ForInStep α)}
    (h : ∀ a b, r a b → Keeps K (Kinship.Round r) (round a) (round' b)) {a b : α} (hab : r a b) :
    Keeps K r (loop a round) (loop b round') := by
  intro s s' hs
  unfold loop
  rw [hs.cursor.left]
  exact keeps_rounds h _ hab s s' hs

/-- A loop that carries nothing along. -/
theorem keeps_loop_unit {round : Unit → Parse (ForInStep Unit)} (h : ∀ a, Keeps K Eq (round a) (round a)) :
    Keeps K Eq (loop () round) (loop () round) := by
  refine keeps_loop (fun a _ _ => (h a).mono ?_) rfl
  rintro step _ rfl
  cases step <;> rfl

theorem keeps_tryRounds {round round' : α → Rule (ForInStep α)}
    (h : ∀ a b, r a b → RuleKeeps K (Kinship.Round r) (round a) (round' b)) (n : Nat) {a b : α} (hab : r a b) :
    RuleKeeps K r (tryRounds round n a) (tryRounds round' n b) := by
  induction n generalizing a b with
  | zero => exact fun _ _ hs => ⟨hab, hs⟩
  | succ n ih =>
      intro s s' hs
      show K.Outcome r (tryRounds round (n + 1) a s).1 (tryRounds round' (n + 1) b s').1 ∧
        K.Near (tryRounds round (n + 1) a s).2 (tryRounds round' (n + 1) b s').2
      have hround : K.Outcome (Kinship.Round r) (round a s).1 (round' b s').1 ∧ K.Near (round a s).2 (round' b s').2 :=
        h a b hab s s' hs
      obtain ⟨hresult, hnear⟩ := hround
      rcases hr : round a s with ⟨e | c | c, t⟩ <;> rcases hr' : round' b s' with ⟨e' | d | d, t'⟩ <;>
        rw [hr, hr'] at hresult hnear
      case error.error =>
        rw [tryRounds_error hr, tryRounds_error hr']
        exact ⟨hresult, hnear⟩
      case ok.done.ok.done =>
        rw [tryRounds_done hr, tryRounds_done hr']
        exact ⟨hresult, hnear⟩
      case ok.yield.ok.yield =>
        rw [tryRounds_yield hr, tryRounds_yield hr']
        exact ih hresult t t' hnear
      all_goals exact hresult.elim

theorem keeps_tryLoop {round round' : α → Rule (ForInStep α)}
    (h : ∀ a b, r a b → RuleKeeps K (Kinship.Round r) (round a) (round' b)) {a b : α} (hab : r a b) :
    RuleKeeps K r (tryLoop a round) (tryLoop b round') := by
  intro s s' hs
  show K.Outcome r (tryRounds round (s.left + 1) a s).1 (tryRounds round' (s'.left + 1) b s').1 ∧
    K.Near (tryRounds round (s.left + 1) a s).2 (tryRounds round' (s'.left + 1) b s').2
  rw [hs.cursor.left]
  exact keeps_tryRounds h (s.left + 1) hab s s' hs

end Rule

end CalExport
