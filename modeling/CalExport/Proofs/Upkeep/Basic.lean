import CalExport.Proofs.Layout.Basic

namespace CalExport.Rule

open Text

inductive Walked (s : Parser) : Parser → Prop
  | refl : Walked s s
  | advance {t : Parser} : Walked s t → Walked s (advance t).2
  | note {t : Parser} (e : Event) : Walked s t → Walked s (note e t).2

namespace Walked

variable {s t u : Parser}

theorem trans (h : Walked s t) (g : Walked t u) : Walked s u := by
  induction g with
  | refl => exact h
  | advance _ ih => exact .advance ih
  | note e _ ih => exact .note e ih

theorem forward (h : Walked s t) : Forward s t := by
  induction h with
  | refl => exact Forward.refl s
  | advance _ ih => exact ih.trans (forward_advance _)
  | note e _ ih => exact ih.trans (forward_note e _)

theorem diagnostics (h : Walked s t) : t.diagnostics = s.diagnostics := by
  induction h with
  | refl => rfl
  | advance _ ih => exact ih
  | note _ _ ih => exact ih

theorem skipped (h : Walked s t) : t.skipped = s.skipped := by
  induction h with
  | refl => rfl
  | advance _ ih => exact ih
  | note _ _ ih => exact ih

theorem capped (h : Walked s t) : t.capped = s.capped := by
  induction h with
  | refl => rfl
  | advance _ ih => exact ih
  | note _ _ ih => exact ih

end Walked

def Moves (x : Parse α) : Prop := ∀ s, Walked s (x s).2

namespace Moves

variable {α β : Type} {x : Parse α} {f : α → Parse β}

theorem pure (a : α) : Moves (pure a) := fun _ => .refl

theorem bind (hx : Moves x) (hf : ∀ a, Moves (f a)) : Moves (x >>= f) := fun s => (hx s).trans (hf _ _)

theorem look {g : Parser → α} (hf : ∀ a, Moves (f a)) : Moves (Rule.look g >>= f) := fun s => hf (g s) s

theorem advance : Moves advance := fun _ => .advance .refl

theorem note (e : Event) : Moves (note e) := fun _ => .note e .refl

theorem accept (κ : Kind) : Moves (accept κ) := by
  intro s
  rw [accept_apply]
  split
  · exact advance s
  · exact .refl

theorem advanceBy (n : Nat) : Moves (advanceBy n) := by
  induction n with
  | zero => exact pure _
  | succ n ih =>
      apply bind advance
      intro t
      apply bind ih
      intro ts
      exact pure _

theorem loop {step : α → Parse (ForInStep α)} (h : ∀ a, Moves (step a)) (a : α) : Moves (Rule.loop a step) := by
  have hrounds : ∀ n a, Moves (rounds step n a) := by
    intro n
    induction n with
    | zero => exact fun a s => .refl
    | succ n ih =>
        intro a s
        have hround := h a s
        rcases hr : step a s with ⟨b | b, t⟩
        · rw [rounds_done hr]
          rw [hr] at hround
          exact hround
        · rw [rounds_yield hr]
          rw [hr] at hround
          exact hround.trans (ih b t)
  exact fun s => hrounds _ a s

theorem skipWhile (continues : Parser → Bool) : Moves (skipWhile continues) := by
  apply loop
  intro _ s
  unfold skipRound
  split
  · exact advance s
  · exact .refl

end Moves

def Skipped (reason : String) (s t : Parser) : Prop :=
  ∃ u, Walked s u ∧ (t = u ∨ t = (recordSkipped s.position reason u).2)

/-- What is kept up along a run. Tokens that are passed over may be recorded behind a diagnostic, or as a section that
has no place in the tree. -/
structure Upkeep where
  holds : Parser → Prop
  advance {s} : holds s → holds (Rule.advance s).2
  report {s} (fault) : holds s → holds (Rule.report fault s).2
  note {s} (e) : holds s → holds (Rule.note e s).2
  withNesting {s} (n) : holds s → holds (s.withNesting n)
  recordSkipped {s t} (reason) : holds s → Walked s t → (reason = "unsupported section" ∨ 0 < s.diagnostics.size) →
    holds (Rule.recordSkipped s.position reason t).2

namespace Upkeep

theorem walked (U : Upkeep) {s t : Parser} (h : Walked s t) (hs : U.holds s) : U.holds t := by
  induction h with
  | refl => exact hs
  | advance _ ih => exact U.advance ih
  | note e _ ih => exact U.note e ih

theorem skipped (U : Upkeep) {reason : String} {s t : Parser} (h : Skipped reason s t) (hs : U.holds s)
    (hreason : reason = "unsupported section" ∨ 0 < s.diagnostics.size) : U.holds t ∧ t.nesting = s.nesting := by
  obtain ⟨u, hwalked, rfl | rfl⟩ := h
  · exact ⟨U.walked hwalked hs, hwalked.forward.nesting⟩
  · refine ⟨U.recordSkipped reason hs hwalked hreason, ?_⟩
    exact (forward_recordSkipped _ _ _).nesting.trans hwalked.forward.nesting

def reported (U : Upkeep) : Upkeep where
  holds s := U.holds s ∧ 0 < s.diagnostics.size
  advance hs := ⟨U.advance hs.1, hs.2⟩
  report fault hs := ⟨U.report fault hs.1, diagnostics_record_ne _ _⟩
  note e hs := ⟨U.note e hs.1, hs.2⟩
  withNesting n hs := ⟨U.withNesting n hs.1, hs.2⟩
  recordSkipped reason hs hwalked hreason := by
    refine ⟨U.recordSkipped reason hs.1 hwalked hreason, ?_⟩
    rw [diagnostics_recordSkipped, hwalked.diagnostics]
    exact hs.2

end Upkeep

/-- A step with `n` levels left. -/
def Serves (U : Upkeep) (n : Nat) (x : Parse α) (Q : α → Prop) : Prop :=
  ∀ s, U.holds s → s.freeLevels = n → U.holds (x s).2 ∧ (x s).2.nesting = s.nesting ∧ Q (x s).1

def Success (Q : α → Prop) : Except Fault α → Prop
  | .ok a => Q a
  | .error _ => True

def RuleServes (U : Upkeep) (n : Nat) (x : Rule α) (Q : α → Prop) : Prop := Serves U n (attempt x) (Success Q)

/-- Items that a loop collects, one for each trial that succeeds. -/
theorem forall_mem_push {α : Type} {p : α → Prop} {found : Array α} (hfound : ∀ a ∈ found, p a) {a : α} (ha : p a) :
    ∀ b ∈ found.push a, p b := by
  intro b hb
  rcases Array.mem_push.1 hb with hb | rfl
  · exact hfound b hb
  · exact ha

section

variable {α β : Type} {U : Upkeep} {n : Nat} {Q : β → Prop} {R : α → Prop}

namespace Serves

variable {x : Parse α} {f : α → Parse β}

theorem mono {R' : α → Prop} (h : Serves U n x R) (hR : ∀ a, R a → R' a) : Serves U n x R' := by
  intro s hs hn
  obtain ⟨hholds, hnesting, hres⟩ := h s hs hn
  exact ⟨hholds, hnesting, hR _ hres⟩

theorem pure {a : α} (h : R a) : Serves U n (pure a) R := fun _ hs _ => ⟨hs, rfl, h⟩

theorem bind (hx : Serves U n x R) (hf : ∀ a, R a → Serves U n (f a) Q) : Serves U n (x >>= f) Q := by
  intro s hs hn
  obtain ⟨hholds, hnesting, hres⟩ := hx s hs hn
  have hlevels : (x s).2.freeLevels = n := by rw [← hn, Parser.freeLevels, hnesting, ← Parser.freeLevels]
  obtain ⟨hholds', hnesting', hres'⟩ := hf _ hres _ hholds hlevels
  exact ⟨hholds', hnesting'.trans hnesting, hres'⟩

theorem map {g : α → β} (hx : Serves U n x R) (hg : ∀ a, R a → Q (g a)) : Serves U n (g <$> x) Q := by
  intro s hs hn
  obtain ⟨hholds, hnesting, hres⟩ := hx s hs hn
  exact ⟨hholds, hnesting, hg _ hres⟩

theorem moves (hx : Moves x) : Serves U n x Always :=
  fun s hs _ => ⟨U.walked (hx s) hs, (hx s).forward.nesting, trivial⟩

theorem look {g : Parser → α} (hf : ∀ a, Serves U n (f a) Q) : Serves U n (Rule.look g >>= f) Q :=
  fun s hs hn => hf (g s) s hs hn

theorem report (fault : Fault) : Serves U n (Rule.report fault) Always :=
  fun s hs _ => ⟨U.report fault hs, (forward_record _ s).nesting, trivial⟩

theorem note (e : Event) : Serves U n (Rule.note e) Always := moves (.note e)

theorem advance : Serves U n Rule.advance Always := moves .advance

theorem accept (κ : Kind) : Serves U n (Rule.accept κ) Always := moves (.accept κ)

/-- What follows a report. -/
theorem report_then (fault : Fault) {f : Unit → Parse β} (hf : Serves U.reported n (f ()) Q) :
    Serves U n (Rule.report fault >>= f) Q := by
  intro s hs hn
  have hnesting := (forward_record (.ofFault fault) s).nesting
  have hlevels : (Rule.report fault s).2.freeLevels = n := by
    rw [← hn, Parser.freeLevels, Rule.report, hnesting, ← Parser.freeLevels]
  obtain ⟨hholds, hnesting', hres⟩ := hf _ ⟨U.report fault hs, diagnostics_record_ne _ s⟩ hlevels
  exact ⟨hholds.1, hnesting'.trans hnesting, hres⟩

/-- Tokens that are passed over and recorded. -/
theorem skip (reason : String) {x : Parse Unit} (hx : ∀ s, Skipped reason s (x s).2) :
    Serves U.reported n x Always := by
  intro s hs _
  obtain ⟨hholds, hnesting⟩ := U.reported.skipped (hx s) hs (.inr hs.2)
  exact ⟨hholds, hnesting, trivial⟩

/-- What holds at first and is kept by every round holds in the end. -/
theorem loop {a : α} {step : α → Parse (ForInStep α)} {I : α → Prop} (ha : I a)
    (h : ∀ a, I a → Serves U n (step a) fun r => I (payload r)) : Serves U n (Rule.loop a step) I := by
  have hrounds : ∀ k a, I a → Serves U n (rounds step k a) I := by
    intro k
    induction k with
    | zero => exact fun a ha => pure ha
    | succ k ih =>
        intro a ha s hs hn
        obtain ⟨hholds, hnesting, hres⟩ := h a ha s hs hn
        rcases hr : step a s with ⟨b | b, t⟩
        · rw [rounds_done hr]
          rw [hr] at hholds hnesting hres
          exact ⟨hholds, hnesting, hres⟩
        · rw [rounds_yield hr]
          rw [hr] at hholds hnesting hres
          have hlevels : t.freeLevels = n := by rw [← hn, Parser.freeLevels, hnesting, ← Parser.freeLevels]
          obtain ⟨hholds', hnesting', hres'⟩ := ih b hres t hholds hlevels
          exact ⟨hholds', hnesting'.trans hnesting, hres'⟩
  exact fun s hs hn => hrounds _ a ha s hs hn

theorem attempt {x : Rule α} {f : Except Fault α → Parse β} (hx : RuleServes U n x R)
    (hok : ∀ a, R a → Serves U n (f (.ok a)) Q) (herror : ∀ fault, Serves U n (f (.error fault)) Q) :
    Serves U n (attempt x >>= f) Q := by
  apply bind hx
  intro result hres
  cases result with
  | ok a => exact hok a hres
  | error fault => exact herror fault

end Serves

namespace RuleServes

variable {x : Rule α} {f : α → Rule β}

theorem mono {R' : α → Prop} (h : RuleServes U n x R) (hR : ∀ a, R a → R' a) : RuleServes U n x R' := by
  apply Serves.mono h
  intro result hres
  cases result with
  | ok a => exact hR a hres
  | error fault => trivial

theorem pure {a : α} (h : R a) : RuleServes U n (pure a) R := Serves.pure (R := Success R) h

theorem throw (fault : Fault) : RuleServes U n (throw fault) R :=
  Serves.pure (R := Success R) (a := .error fault) trivial

theorem bind (hx : RuleServes U n x R) (hf : ∀ a, R a → RuleServes U n (f a) Q) : RuleServes U n (x >>= f) Q := by
  unfold RuleServes
  rw [attempt_bind]
  exact Serves.attempt hx hf fun fault => Serves.pure trivial

theorem map {g : α → β} (hx : RuleServes U n x R) (hg : ∀ a, R a → Q (g a)) : RuleServes U n (g <$> x) Q :=
  bind hx fun a ha => pure (hg a ha)

theorem lift {x : Parse α} (h : Serves U n x R) : RuleServes U n (liftM x) R := h

/-- A step that cannot fail, and what follows it. -/
theorem step {x : Parse α} (hx : Serves U n x R) (hf : ∀ a, R a → RuleServes U n (f a) Q) :
    RuleServes U n (liftM x >>= f) Q := bind (lift hx) hf

/-- A step whose result is not looked into. -/
theorem andThen {x : Parse α} (hx : Serves U n x Always) (hf : ∀ a, RuleServes U n (f a) Q) :
    RuleServes U n (liftM x >>= f) Q := step hx fun a _ => hf a

theorem look {g : Parser → α} (hf : ∀ a, RuleServes U n (f a) Q) : RuleServes U n (liftM (Rule.look g) >>= f) Q :=
  Serves.look (f := fun a => attempt (f a)) hf

theorem advance {f : Token → Rule β} (hf : ∀ t, RuleServes U n (f t) Q) : RuleServes U n (liftM Rule.advance >>= f) Q :=
  andThen .advance hf

theorem accept {κ : Kind} {f : Bool → Rule β} (hf : ∀ found, RuleServes U n (f found) Q) :
    RuleServes U n (liftM (Rule.accept κ) >>= f) Q := andThen (.accept κ) hf

theorem accept_ite {κ : Kind} {a b : Rule α} (hyes : RuleServes U n a R) (hno : RuleServes U n b R) :
    RuleServes U n (liftM (Rule.accept κ) >>= fun found => if found = true then a else b) R := by
  apply accept
  intro found
  split
  · exact hyes
  · exact hno

theorem report (fault : Fault) {f : Unit → Rule β} (hf : RuleServes U n (f ()) Q) :
    RuleServes U n (liftM (Rule.report fault) >>= f) Q := andThen (.report fault) fun _ => hf

theorem expected (κ : Kind) : RuleServes U n (Rule.expect κ) Always := by
  apply look
  intro found
  split
  · exact lift Serves.advance
  · exact throw _

theorem expect {κ : Kind} {f : Token → Rule β} (hf : ∀ t, RuleServes U n (f t) Q) :
    RuleServes U n (Rule.expect κ >>= f) Q := bind (expected κ) fun t _ => hf t

theorem tooDeep : RuleServes U n (Rule.tooDeep : Rule α) R := fun _ hs _ => ⟨hs, rfl, trivial⟩

/-- A rule that is called one level deeper. -/
theorem nested (h : RuleServes U n x R) : RuleServes U (n + 1) (Rule.nested x) R := by
  intro s hs hn
  have hlt : s.nesting < maxNesting := Parser.nesting_lt_of_freeLevels hn
  have hlevels : (s.withNesting (s.nesting + 1)).freeLevels = n := Parser.freeLevels_deeper hn
  obtain ⟨hholds, hnesting, hres⟩ := h (s.withNesting (s.nesting + 1)) (U.withNesting _ hs) hlevels
  show U.holds (Rule.nested x s).2 ∧ (Rule.nested x s).2.nesting = s.nesting ∧ Success R (Rule.nested x s).1
  rw [nested_apply x s hlt]
  refine ⟨U.withNesting _ hholds, ?_, hres⟩
  have hinner : (x (s.withNesting (s.nesting + 1))).2.nesting = s.nesting + 1 := hnesting
  rw [Parser.nesting_withNesting, hinner, Nat.add_sub_cancel]

theorem of_levels {x : Nat → Rule α} (h : RuleServes U n (x n) R) : RuleServes U n (fun s => x s.freeLevels s) R := by
  rintro s hs rfl
  exact h s hs rfl

theorem tryLoop {a : α} {step : α → Rule (ForInStep α)} {I : α → Prop} (ha : I a)
    (h : ∀ a, I a → RuleServes U n (step a) fun r => I (payload r)) : RuleServes U n (Rule.tryLoop a step) I := by
  have hrounds : ∀ k a, I a → RuleServes U n (tryRounds step k a) I := by
    intro k
    induction k with
    | zero => exact fun a ha => pure ha
    | succ k ih =>
        intro a ha s hs hn
        obtain ⟨hholds, hnesting, hres⟩ := h a ha s hs hn
        show U.holds (tryRounds step (k + 1) a s).2 ∧ (tryRounds step (k + 1) a s).2.nesting = s.nesting ∧
          Success I (tryRounds step (k + 1) a s).1
        rcases hr : step a s with ⟨fault | b | b, t⟩
        · rw [tryRounds_error hr]
          rw [show attempt (step a) s = (.error fault, t) from hr] at hholds hnesting
          exact ⟨hholds, hnesting, trivial⟩
        · rw [tryRounds_done hr]
          rw [show attempt (step a) s = (.ok (.done b), t) from hr] at hholds hnesting hres
          exact ⟨hholds, hnesting, hres⟩
        · rw [tryRounds_yield hr]
          rw [show attempt (step a) s = (.ok (.yield b), t) from hr] at hholds hnesting hres
          have hlevels : t.freeLevels = n := by rw [← hn, Parser.freeLevels, hnesting, ← Parser.freeLevels]
          obtain ⟨hholds', hnesting', hres'⟩ := ih b hres t hholds hlevels
          exact ⟨hholds', hnesting'.trans hnesting, hres'⟩
  exact fun s hs hn => hrounds _ a ha s hs hn

end RuleServes

end

end CalExport.Rule
