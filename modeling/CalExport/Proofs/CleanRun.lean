import CalExport.Proofs.OperationSpans

namespace CalExport

namespace Rule

variable {α β : Type} {c : Cursor}

structure Fresh (c : Cursor) (s : Parser) : Prop extends Over c s where
  room : s.capped = true → 0 < s.diagnostics.size

theorem Fresh.capped_eq {s : Parser} (h : Fresh c s) (hclean : s.diagnostics.size = 0) : s.capped = false := by
  cases hcapped : s.capped with
  | false => rfl
  | true => exact absurd (h.room hcapped) (by omega)

theorem Fresh.skip {s : Parser} (h : Fresh c s) (n : Nat) : Fresh c (skip n s) := by
  induction n generalizing s with
  | zero => exact h
  | succ n ih => exact ih ⟨(Upkeep.over c).advance h.toOver, h.room⟩

def Upkeep.fresh (c : Cursor) (n : Nat) : Upkeep where
  holds s := Fresh c s ∧ n ≤ s.diagnostics.size
  advance h := ⟨⟨(Upkeep.over c).advance h.1.toOver, h.1.room⟩, h.2⟩
  report fault h := ⟨⟨(Upkeep.over c).report fault h.1.toOver, fun _ => diagnostics_record_ne _ _⟩,
    Nat.le_trans h.2 (forward_record _ _).diagnostics⟩
  note e h := ⟨⟨(Upkeep.over c).note e h.1.toOver, h.1.room⟩, h.2⟩
  withNesting n h := ⟨⟨(Upkeep.over c).withNesting n h.1.toOver, h.1.room⟩, h.2⟩
  recordSkipped {s t} reason h hwalked hreason := by
    refine ⟨⟨(Upkeep.over c).recordSkipped reason h.1.toOver hwalked hreason, ?_⟩, ?_⟩
    · obtain ⟨events, hrun⟩ := recordSkipped_snd s.position reason t
      rw [diagnostics_recordSkipped, hwalked.diagnostics, hrun]
      intro hcapped
      exact h.1.room (hwalked.capped ▸ hcapped)
    · rw [diagnostics_recordSkipped, hwalked.diagnostics]
      exact h.2

/-- A step whose result is like this when nothing has been reported up to its end. -/
def Cleanly (c : Cursor) (x : Parse α) (p : α → Prop) : Prop :=
  ∀ s, Fresh c s → (Fresh c (x s).2 ∧ s.diagnostics.size ≤ (x s).2.diagnostics.size) ∧
    ((x s).2.diagnostics.size = 0 → p (x s).1)

def RuleCleanly (c : Cursor) (x : Rule α) (p : α → Prop) : Prop := Cleanly c (attempt x) (Success p)

namespace Cleanly

variable {x : Parse α} {f : α → Parse β} {p p' : α → Prop} {q : β → Prop}

theorem of_serves (h : ∀ U n, Serves U n x Always) : Cleanly c x Always := by
  intro s hs
  obtain ⟨hholds, -, -⟩ := h (.fresh c s.diagnostics.size) s.freeLevels s ⟨hs, Nat.le_refl _⟩ rfl
  exact ⟨hholds, fun _ => trivial⟩

theorem mono (h : Cleanly c x p) (hp : ∀ a, p a → p' a) : Cleanly c x p' :=
  fun s hs => ⟨(h s hs).1, fun hclean => hp _ ((h s hs).2 hclean)⟩

theorem pure {a : α} (h : p a) : Cleanly c (pure a) p := fun _ hs => ⟨⟨hs, Nat.le_refl _⟩, fun _ => h⟩

theorem bind (hx : Cleanly c x p) (hf : ∀ a, Cleanly c (f a) fun b => p a → q b) : Cleanly c (x >>= f) q := by
  intro s hs
  obtain ⟨⟨hfresh, hsize⟩, hres⟩ := hx s hs
  obtain ⟨⟨hfresh', hsize'⟩, hres'⟩ := hf (x s).1 (x s).2 hfresh
  refine ⟨⟨hfresh', Nat.le_trans hsize hsize'⟩, fun hclean => ?_⟩
  have hfirst : (x s).2.diagnostics.size = 0 := Nat.le_zero.1 (Nat.le_trans hsize' (Nat.le_of_eq hclean))
  exact hres' hclean (hres hfirst)

theorem andThen (hx : ∀ U n, Serves U n x Always) (hf : ∀ a, Cleanly c (f a) q) : Cleanly c (x >>= f) q :=
  bind (of_serves hx) fun a => (hf a).mono fun _ hb _ => hb

theorem look {g : Parser → α} (hf : ∀ a, Cleanly c (f a) q) : Cleanly c (Rule.look g >>= f) q :=
  fun s hs => hf (g s) s hs

/-- Nothing is clean behind a report. -/
theorem report (fault : Fault) {f : Unit → Parse β} (hf : ∀ U n, Serves (Upkeep.reported U) n (f ()) Always) :
    Cleanly c (Rule.report fault >>= f) q := by
  intro s hs
  have hreport := (Upkeep.fresh c s.diagnostics.size).report fault ⟨hs, Nat.le_refl _⟩
  have hsome : 0 < (Rule.report fault s).2.diagnostics.size := diagnostics_record_ne _ s
  obtain ⟨⟨hholds, hleft⟩, -, -⟩ := hf (.fresh c s.diagnostics.size) _ _ ⟨hreport, hsome⟩ rfl
  refine ⟨hholds, fun hclean => ?_⟩
  exact absurd hclean (Nat.ne_of_gt hleft)

theorem loop {a : α} {step : α → Parse (ForInStep α)} {I : α → Prop} (ha : I a)
    (h : ∀ a, Cleanly c (step a) fun r => I a → I (payload r)) : Cleanly c (Rule.loop a step) I := by
  have hrounds : ∀ k a, Cleanly c (rounds step k a) fun b => I a → I b := by
    intro k
    induction k with
    | zero => exact fun a => pure id
    | succ k ih =>
        intro a s hs
        have hround := h a s hs
        rcases hr : step a s with ⟨b | b, t⟩
        · rw [rounds_done hr]
          rw [hr] at hround
          exact hround
        · rw [rounds_yield hr]
          rw [hr] at hround
          obtain ⟨⟨hfresh, hsize⟩, hres⟩ := hround
          obtain ⟨⟨hfresh', hsize'⟩, hres'⟩ := ih b t hfresh
          refine ⟨⟨hfresh', Nat.le_trans hsize hsize'⟩, fun hclean hI => ?_⟩
          exact hres' hclean (hres (Nat.le_zero.1 (Nat.le_trans hsize' (Nat.le_of_eq hclean))) hI)
  exact fun s hs => ⟨(hrounds _ a s hs).1, fun hclean => (hrounds _ a s hs).2 hclean ha⟩

theorem attempt {x : Rule α} {f : Except Fault α → Parse β} (hx : RuleCleanly c x p)
    (hok : ∀ a, Cleanly c (f (.ok a)) fun b => p a → q b) (herror : ∀ fault, Cleanly c (f (.error fault)) q) :
    Cleanly c (Rule.attempt x >>= f) q := by
  apply bind hx
  intro result
  cases result with
  | ok a => exact hok a
  | error fault => exact (herror fault).mono fun _ hb _ => hb

theorem withRecovery (recovery : List Kind) {x : Rule α} (hx : RuleCleanly c x p) :
    Cleanly c (withRecovery recovery x) fun found => ∀ a ∈ found, p a := by
  apply look
  intro base
  apply look
  intro start
  apply attempt hx
  · exact fun a => pure fun ha => by simpa using ha
  · intro fault
    apply report
    exact fun U n => (serves_recoverItem base start recovery).bind fun _ _ => Serves.pure trivial

end Cleanly

namespace RuleCleanly

variable {x : Rule α} {f : α → Rule β} {p : α → Prop} {q : β → Prop}

theorem of_serves (h : ∀ U n, RuleServes U n x Always) : RuleCleanly c x Always := by
  apply (Cleanly.of_serves fun U n => Serves.mono (h U n) fun _ _ => trivial).mono
  intro result _
  cases result with
  | ok a => trivial
  | error fault => trivial

theorem pure {a : α} (h : p a) : RuleCleanly c (pure a) p := Cleanly.pure (p := Success p) h

theorem throw (fault : Fault) : RuleCleanly c (throw fault) p :=
  Cleanly.pure (p := Success p) (a := .error fault) trivial

theorem bind (hx : RuleCleanly c x p) (hf : ∀ a, RuleCleanly c (f a) fun b => p a → q b) :
    RuleCleanly c (x >>= f) q := by
  unfold RuleCleanly
  rw [attempt_bind]
  apply Cleanly.attempt hx
  · intro a
    apply Cleanly.mono (hf a)
    intro result hres ha
    cases result with
    | ok b => exact hres ha
    | error fault => trivial
  · exact fun fault => Cleanly.pure trivial

theorem step {x : Parse α} (hx : Cleanly c x p) (hf : ∀ a, RuleCleanly c (f a) fun b => p a → q b) :
    RuleCleanly c (liftM x >>= f) q := bind hx hf

theorem andThen {x : Parse α} (hx : ∀ U n, Serves U n x Always) (hf : ∀ a, RuleCleanly c (f a) q) :
    RuleCleanly c (liftM x >>= f) q := Cleanly.andThen hx hf

theorem passing (hx : ∀ U n, RuleServes U n x Always) (hf : ∀ a, RuleCleanly c (f a) q) : RuleCleanly c (x >>= f) q :=
  bind (of_serves hx) fun a => Cleanly.mono (hf a) fun result hres => by
    cases result with
    | ok b => exact fun _ => hres
    | error fault => trivial

theorem look {g : Parser → α} (hf : ∀ a, RuleCleanly c (f a) q) : RuleCleanly c (liftM (Rule.look g) >>= f) q :=
  Cleanly.look (f := fun a => attempt (f a)) hf

theorem expect {κ : Kind} {f : Token → Rule β} (hf : ∀ t, RuleCleanly c (f t) q) :
    RuleCleanly c (Rule.expect κ >>= f) q := passing (fun _ _ => .expected κ) hf

end RuleCleanly

end Rule

end CalExport
