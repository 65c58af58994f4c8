import CalExport.Proofs.Window.Basic

namespace CalExport.Rule

variable {α β : Type} {W : Window} {κ : Kind}

structure Lands (W : Window) (t : Parser) : Prop where
  clean : t.diagnostics = #[]
  inside : ∀ i < t.position, W.sees i

structure Local (W : Window) (x y : Parse α) : Prop where
  steady : Steady x
  same {s s'} : Meets W s s' → Lands W (x s).2 → (y s').1 = (x s).1 ∧ Meets W (x s).2 (y s').2

structure RuleLocal (W : Window) (x y : Rule α) : Prop where
  steady : Steady (attempt x)
  same {s s' a t} : Meets W s s' → x s = (.ok a, t) → Lands W t → ∃ t', y s' = (.ok a, t') ∧ Meets W t t'

def Advances (x : Rule α) : Prop := ∀ {s a t}, x s = (.ok a, t) → t.diagnostics = #[] → s.position < t.position

variable {s t : Parser}

theorem clean_of_forward (h : Forward s t) (ht : t.diagnostics = #[]) : s.diagnostics = #[] := by
  apply Array.eq_empty_of_size_eq_zero
  have hle := h.diagnostics
  rw [ht] at hle
  exact Nat.le_zero.1 hle

theorem Lands.of_forward (ht : Lands W t) (h : Forward s t) : Lands W s :=
  ⟨clean_of_forward h ht.clean, fun i hi => ht.inside i (Nat.lt_of_lt_of_le hi h.position)⟩

/-- A report is never taken back. -/
theorem Lands.of_report {fault : Fault} (ht : Lands W t) (h : Forward (report fault s).2 t) : False :=
  ne_empty_of_forward h (diagnostics_record_ne _ s) ht.clean

theorem forward_of_steady {x : Rule α} {a : Except Fault α} (h : Steady (attempt x)) (hx : x s = (a, t)) :
    Forward s t := by
  have hforward : Forward s (x s).2 := h s
  rwa [hx] at hforward

theorem exists_of_bind {x : Rule α} {f : α → Rule β} {b : β} (h : (x >>= f) s = (.ok b, t)) :
    ∃ a u, x s = (.ok a, u) ∧ f a u = (.ok b, t) := by
  rcases hx : x s with ⟨fault | a, u⟩
  · have hbind : (x >>= f) s = (.error fault, u) := attempt_bind_of_error hx f
    rw [hbind] at h
    cases h
  · have hbind : (x >>= f) s = f a u := attempt_bind_of_ok hx f
    exact ⟨a, u, rfl, hbind ▸ h⟩

theorem steady_bind {x : Rule α} {f : α → Rule β} (hx : Steady (attempt x)) (hf : ∀ a, Steady (attempt (f a))) :
    Steady (attempt (x >>= f)) := by
  intro s
  rcases hs : x s with ⟨fault | a, u⟩
  · rw [attempt_bind_of_error hs]
    exact forward_of_steady hx hs
  · rw [attempt_bind_of_ok hs]
    exact (forward_of_steady hx hs).trans (hf a u)

theorem steady_expect (κ : Kind) : Steady (attempt (expect κ)) := by
  intro s
  show Forward s (expect κ s).2
  rw [expect_apply]
  split
  · exact forward_advance s
  · exact Forward.refl s

theorem steady_semicolon : Steady semicolon := (agree_semicolon (R := .same) (k := 0)).steady

namespace Local

variable {x y : Parse α} {f g : α → Parse β}

theorem pure (a : α) : Local W (pure a) (pure a) := ⟨Forward.refl, fun h _ => ⟨rfl, h⟩⟩

theorem bind (hx : Local W x y) (hf : ∀ a, Local W (f a) (g a)) : Local W (x >>= f) (y >>= g) := by
  refine ⟨fun s => (hx.steady s).trans ((hf _).steady _), ?_⟩
  intro s s' h hlands
  rw [bind_apply] at hlands ⊢
  rw [bind_apply]
  obtain ⟨hresult, hmeets⟩ := hx.same h (hlands.of_forward ((hf _).steady _))
  rw [hresult]
  exact (hf _).same hmeets hlands

theorem accept (hκ : κ ≠ .eof) (hbrace : κ ≠ .rightBrace) (hedge : ∀ i, W.Edge i → (W.second i).kind ≠ κ) :
    Local W (Rule.accept κ) (Rule.accept κ) := by
  refine ⟨forward_accept κ, ?_⟩
  intro s s' h hlands
  rw [accept_apply] at hlands ⊢
  rw [accept_apply]
  by_cases hs : W.sees s.position
  · rw [h.peek_eq hs]
    by_cases hk : s.peek.kind = κ
    · rw [if_pos hk, if_pos hk]
      exact ⟨rfl, h.advance hs fun hclose => absurd (hk.symm.trans hclose) hbrace⟩
    · rw [if_neg hk, if_neg hk]
      exact ⟨rfl, h⟩
  · have hk' : s'.peek.kind ≠ κ := by
      rw [h.peek_second]
      exact hedge _ (h.edge hs)
    by_cases hk : s.peek.kind = κ
    · rw [if_pos hk] at hlands
      have hpass : s.position < (Rule.advance s).2.position :=
        (forward_advance s).left_lt_iff.1 (left_advance_lt (hk.symm ▸ hκ))
      exact absurd (hlands.inside _ hpass) hs
    · rw [if_neg hk, if_neg hk']
      exact ⟨rfl, h⟩

theorem accept_bind {f g : Bool → Parse β} (hκ : κ ≠ .eof) (hbrace : κ ≠ .rightBrace)
    (hedge : ∀ i, W.Edge i → (W.second i).kind ≠ κ) (hf : ∀ found, Local W (f found) (g found)) :
    Local W (Rule.accept κ >>= f) (Rule.accept κ >>= g) := bind (accept hκ hbrace hedge) hf

/-- A missing semicolon is reported, so one that is not reported stands in the stretch. -/
theorem semicolon : Local W semicolon semicolon := by
  refine ⟨steady_semicolon, ?_⟩
  intro s s' h hlands
  rw [Rule.semicolon, bind_apply, accept_apply] at hlands ⊢
  rw [bind_apply, accept_apply]
  by_cases hk : s.peek.kind = .semicolon
  · rw [if_pos hk] at hlands ⊢
    have hpass : s.position < (Rule.advance s).2.position :=
      (forward_advance s).left_lt_iff.1 (left_advance_lt (by rw [hk]; nofun))
    have hs : W.sees s.position := hlands.inside _ hpass
    rw [h.peek_eq hs, if_pos hk]
    exact ⟨rfl, h.advance hs fun hclose => by rw [hk] at hclose; cases hclose⟩
  · rw [if_neg hk] at hlands
    exact (hlands.of_report (Forward.refl _)).elim

theorem withRecovery (recovery : List Kind) {x y : Rule α} (hx : RuleLocal W x y) :
    Local W (Rule.withRecovery recovery x) (Rule.withRecovery recovery y) := by
  have hsteady : Steady (Rule.withRecovery recovery x) := by
    intro s
    rcases hr : x s with ⟨fault | a, t⟩
    · rw [withRecovery_of_error hr]
      exact ((forward_of_steady hx.steady hr).trans (forward_record _ t)).trans (steady_recoverItem _ _ _ _)
    · rw [withRecovery_of_ok hr]
      exact forward_of_steady hx.steady hr
  refine ⟨hsteady, ?_⟩
  intro s s' h hlands
  rcases hr : x s with ⟨fault | a, t⟩
  · rw [withRecovery_of_error hr] at hlands
    exact (hlands.of_report (steady_recoverItem _ _ _ _)).elim
  · rw [withRecovery_of_ok hr] at hlands ⊢
    obtain ⟨t', hr', hmeets⟩ := hx.same h hr hlands
    rw [withRecovery_of_ok hr']
    exact ⟨rfl, hmeets⟩

theorem loop {round round' : α → Parse (ForInStep α)} (hround : ∀ a, Local W (round a) (round' a))
    (hprogress : Progresses round) (hunrolls : Unrolls round') (a : α) :
    Local W (Rule.loop a round) (Rule.loop a round') := by
  have hsteady : ∀ a, Steady (Rule.loop a round) := fun a s => steady_rounds (fun a => (hround a).steady) _ a s
  refine ⟨hsteady a, ?_⟩
  intro s s'
  -- The rounds go on with fewer tokens left each time.
  induction hleft : s.left using Nat.strongRecOn generalizing a s s' with
  | ind n ih =>
      intro h hlands
      have hfirst := (hround a).same h
      rw [hprogress.unrolls a s] at hlands ⊢
      rw [hunrolls a s']
      rcases hr : round a s with ⟨b | b, t⟩ <;> rcases hr' : round' a s' with ⟨result', t'⟩
      · rw [hr] at hlands hfirst
        rw [hr'] at hfirst
        obtain ⟨hresult, hmeets⟩ := hfirst hlands
        obtain rfl : result' = .done b := hresult
        exact ⟨rfl, hmeets⟩
      · rw [hr] at hlands hfirst
        rw [hr'] at hfirst
        obtain ⟨hresult, hmeets⟩ := hfirst (hlands.of_forward (hsteady b t))
        obtain rfl : result' = .yield b := hresult
        have hless := left_lt_of_position (hprogress a s b t hr)
        exact ih t.left (hleft ▸ hless) b rfl hmeets hlands

end Local

namespace RuleLocal

variable {x y : Rule α} {f g : α → Rule β}

theorem pure (a : α) : RuleLocal W (pure a) (pure a) := by
  refine ⟨Forward.refl, ?_⟩
  rintro s s' b t h ⟨⟩ _
  exact ⟨s', rfl, h⟩

theorem bind (hx : RuleLocal W x y) (hf : ∀ a, RuleLocal W (f a) (g a)) : RuleLocal W (x >>= f) (y >>= g) := by
  refine ⟨steady_bind hx.steady fun a => (hf a).steady, ?_⟩
  intro s s' b t h hrun hlands
  obtain ⟨a, u, hxs, hfu⟩ := exists_of_bind hrun
  obtain ⟨u', hys, hmeets⟩ := hx.same h hxs (hlands.of_forward (forward_of_steady (hf a).steady hfu))
  rw [bind_of_ok hys]
  exact (hf a).same hmeets hfu hlands

theorem lift {x y : Parse α} (h : Local W x y) : RuleLocal W (liftM x) (liftM y) := by
  refine ⟨h.steady, ?_⟩
  rintro s s' a t hs hrun hlands
  have hx : (liftM x : Rule α) s = (.ok (x s).1, (x s).2) := rfl
  have hy : (liftM y : Rule α) s' = (.ok (y s').1, (y s').2) := rfl
  rw [hx] at hrun
  cases hrun
  obtain ⟨hresult, hmeets⟩ := h.same hs hlands
  rw [hy, hresult]
  exact ⟨_, rfl, hmeets⟩

theorem step {x y : Parse α} (hx : Local W x y) (hf : ∀ a, RuleLocal W (f a) (g a)) :
    RuleLocal W (liftM x >>= f) (liftM y >>= g) := bind (lift hx) hf

theorem accept_bind {f g : Bool → Rule β} (hκ : κ ≠ .eof) (hbrace : κ ≠ .rightBrace)
    (hedge : ∀ i, W.Edge i → (W.second i).kind ≠ κ) (hf : ∀ found, RuleLocal W (f found) (g found)) :
    RuleLocal W (liftM (Rule.accept κ) >>= f) (liftM (Rule.accept κ) >>= g) :=
  step (Local.accept hκ hbrace hedge) hf

theorem of_levels {x y : Nat → Rule α} (h : ∀ n, RuleLocal W (x n) (y n)) :
    RuleLocal W (fun s => x s.freeLevels s) (fun s => y s.freeLevels s) := by
  refine ⟨fun s => (h _).steady s, ?_⟩
  intro s s' a t hs hrun hlands
  have hlevels : s'.freeLevels = s.freeLevels := by rw [Parser.freeLevels, Parser.freeLevels, hs.nesting]
  rw [hlevels]
  exact (h _).same hs hrun hlands

theorem expect (hκ : κ ≠ .eof) (hbrace : κ = .rightBrace → W.Sound) : RuleLocal W (Rule.expect κ) (Rule.expect κ) := by
  refine ⟨steady_expect κ, ?_⟩
  intro s s' a t h hrun hlands
  rw [expect_apply] at hrun
  split at hrun
  · rename_i hk
    cases hrun
    have hpass : s.position < (Rule.advance s).2.position :=
      (forward_advance s).left_lt_iff.1 (left_advance_lt (hk.symm ▸ hκ))
    have hs : W.sees s.position := hlands.inside _ hpass
    rw [expect_apply, h.peek_eq hs, if_pos hk]
    exact ⟨_, rfl, h.advance hs fun hclose => hbrace (hk.symm.trans hclose)⟩
  · cases hrun

/-- A token of the wanted kind, and what stands behind it. -/
theorem expect_then {f g : Token → Rule β} (hκ : κ ≠ .eof) (hbrace : κ = .rightBrace → W.Sound)
    (hf : ∀ t, RuleLocal W (f t) (g t)) : RuleLocal W (Rule.expect κ >>= f) (Rule.expect κ >>= g) :=
  bind (expect hκ hbrace) hf

/-- A rule that does the same inside the stretch, in front of one that passes one more token of it. -/
theorem agree_bind (hx : ∀ k, RuleAgree W.simulation (Below k) Never x y) (hpass : ∀ a, Advances (f a))
    (hf : ∀ a, RuleLocal W (f a) (g a)) : RuleLocal W (x >>= f) (y >>= g) := by
  refine ⟨steady_bind (hx 0).steady fun a => (hf a).steady, ?_⟩
  intro s s' b t h hrun hlands
  obtain ⟨a, u, hxs, hfu⟩ := exists_of_bind hrun
  have hu : W.sees u.position := hlands.inside _ (hpass a hfu hlands.clean)
  have hforward := forward_of_steady (hx 0).steady hxs
  have hs : W.sees s.position := W.sees_of_le hforward.position hu
  have halike : Alike W.simulation (okAnd Never) s s' (x s) (y s') :=
    (hx (s.left + 1)).alike ⟨h, hs⟩ (Nat.lt_succ_self s.left)
  rw [hxs] at halike
  rcases halike with hlost | ⟨-, -, hresult, hrel⟩
  · exact absurd hu hlost
  · have hys : y s' = (.ok a, (y s').2) := Prod.ext hresult.symm rfl
    rw [bind_of_ok hys]
    exact (hf a).same hrel.1 hfu hlands

/-- A rule in front of a token of its kind; the other choice passes nothing. -/
theorem check_ite (hedge : ∀ i, W.Edge i → (W.second i).kind ≠ κ) (hx : RuleLocal W x y) (hpass : Advances x) {a : α} :
    RuleLocal W (liftM (Rule.check κ) >>= fun found => if found = true then x else Pure.pure a)
      (liftM (Rule.check κ) >>= fun found => if found = true then y else Pure.pure a) := by
  have happly : ∀ (z : Rule α) (s : Parser),
      (liftM (Rule.check κ) >>= fun found => if found = true then z else Pure.pure a : Rule α) s =
        if s.check κ = true then z s else (.ok a, s) := by
    intro z s
    show (if s.check κ = true then z else Pure.pure a : Rule α) s = _
    split <;> rfl
  refine ⟨?_, ?_⟩
  · intro s
    show Forward s ((liftM (Rule.check κ) >>= fun found => if found = true then x else Pure.pure a : Rule α) s).2
    rw [happly]
    split
    · exact hx.steady s
    · exact Forward.refl s
  · intro s s' b t h hrun hlands
    rw [happly] at hrun ⊢
    by_cases hs : W.sees s.position
    · have hcheck : s'.check κ = s.check κ := by rw [Cursor.check, Cursor.check, h.peek_eq hs]
      rw [hcheck]
      by_cases hk : s.check κ = true
      · rw [if_pos hk] at hrun ⊢
        exact hx.same h hrun hlands
      · rw [if_neg hk] at hrun ⊢
        cases hrun
        exact ⟨s', rfl, h⟩
    · have hk' : ¬ s'.check κ = true := by
        rw [Cursor.check_iff, h.peek_second]
        exact hedge _ (h.edge hs)
      rw [if_neg hk']
      by_cases hk : s.check κ = true
      · rw [if_pos hk] at hrun
        exact absurd (hlands.inside _ (hpass hrun hlands.clean)) hs
      · rw [if_neg hk] at hrun
        cases hrun
        exact ⟨s', rfl, h⟩

end RuleLocal

theorem advances_expect_bind {f : Token → Rule β} (hκ : κ ≠ .eof) (hf : ∀ t, Steady (attempt (f t))) :
    Advances (expect κ >>= f) := by
  intro s b t hrun _
  obtain ⟨a, u, hxs, hfu⟩ := exists_of_bind hrun
  rw [expect_apply] at hxs
  split at hxs
  · rename_i hk
    cases hxs
    have hpass := (forward_advance s).left_lt_iff.1 (left_advance_lt (hk.symm ▸ hκ))
    exact Nat.lt_of_lt_of_le hpass (forward_of_steady (hf _) hfu).position
  · cases hxs

theorem advances_bind {x : Rule α} {f : α → Rule β} (hx : Steady (attempt x)) (hf : ∀ a, Advances (f a)) :
    Advances (x >>= f) := by
  intro s b t hrun hclean
  obtain ⟨a, u, hxs, hfu⟩ := exists_of_bind hrun
  exact Nat.lt_of_le_of_lt (forward_of_steady hx hxs).position (hf a hfu hclean)

theorem advances_semicolon_bind {f : PUnit → Rule β} (hf : Steady (attempt (f ()))) :
    Advances (liftM semicolon >>= f) := by
  intro s b t hrun hclean
  have hrun : f () (semicolon s).2 = (.ok b, t) := hrun
  have hforward := forward_of_steady hf hrun
  rw [semicolon, bind_apply, accept_apply] at hforward
  by_cases hk : s.peek.kind = .semicolon
  · rw [if_pos hk] at hforward
    have hpass := (forward_advance s).left_lt_iff.1 (left_advance_lt (by rw [hk]; nofun))
    exact Nat.lt_of_lt_of_le hpass hforward.position
  · rw [if_neg hk] at hforward
    exact absurd hclean (ne_empty_of_forward hforward (diagnostics_record_ne _ s))

/-- A rule up to a token of some kind. -/
theorem RuleLocal.agree_expect {x y : Rule α} {f g : α → Token → Rule β}
    (hx : ∀ k, RuleAgree W.simulation (Below k) Never x y) (hκ : κ ≠ .eof) (hbrace : κ = .rightBrace → W.Sound)
    (hf : ∀ a t, RuleLocal W (f a t) (g a t)) :
    RuleLocal W (x >>= fun a => Rule.expect κ >>= f a) (y >>= fun a => Rule.expect κ >>= g a) := by
  apply RuleLocal.agree_bind hx
  · exact fun a => advances_expect_bind hκ fun t => (hf a t).steady
  · exact fun a => (RuleLocal.expect hκ hbrace).bind (hf a)

/-- A rule up to the semicolon behind it. -/
theorem RuleLocal.agree_semicolon {x y : Rule α} {f g : α → PUnit → Rule β}
    (hx : ∀ k, RuleAgree W.simulation (Below k) Never x y) (hf : ∀ a u, RuleLocal W (f a u) (g a u)) :
    RuleLocal W (x >>= fun a => liftM semicolon >>= f a) (y >>= fun a => liftM semicolon >>= g a) := by
  apply RuleLocal.agree_bind hx
  · exact fun a => advances_semicolon_bind (hf a ()).steady
  · exact fun a => RuleLocal.step Local.semicolon (hf a)

def spanned (x : Rule (Text.Span → α)) : Rule α := do
  let start ← here
  let value ← x
  return value (← spanFrom start)

theorem spanned_of_ok {x : Rule (Text.Span → α)} {value : Text.Span → α} (h : x s = (.ok value, t)) :
    spanned x s = (.ok (value (t.spanFrom s.position)), t) := by
  have hbind : spanned x s = (x >>= fun value => do return value (← spanFrom s.position)) s := rfl
  rw [hbind, bind_of_ok h]
  rfl

theorem exists_of_spanned {x : Rule (Text.Span → α)} {a : α} (h : spanned x s = (.ok a, t)) :
    ∃ value, x s = (.ok value, t) ∧ a = value (t.spanFrom s.position) := by
  have hbind : spanned x s = (x >>= fun value => do return value (← spanFrom s.position)) s := rfl
  rw [hbind] at h
  obtain ⟨value, u, hx, hspan⟩ := exists_of_bind h
  cases hspan
  exact ⟨value, hx, rfl⟩

theorem RuleLocal.same_spanned {x y : Rule (Text.Span → α)} (hx : RuleLocal W x y) {s' : Parser} {a : α}
    (h : Meets W s s') (hrun : spanned x s = (.ok a, t)) (hpass : s.position < t.position) (hlands : Lands W t) :
    ∃ t', spanned y s' = (.ok a, t') ∧ Meets W t t' := by
  obtain ⟨value, hxs, rfl⟩ := exists_of_spanned hrun
  obtain ⟨t', hys, hmeets⟩ := hx.same h hxs hlands
  rw [spanned_of_ok hys, h.position, hmeets.spanFrom_eq hpass]
  exact ⟨t', rfl, hmeets⟩

end CalExport.Rule
