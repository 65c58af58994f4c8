import CalExport.Rule.Step

namespace CalExport.Rule

/-- What no step of the grammar takes back. -/
structure Forward (s t : Parser) : Prop where
  tokens : t.tokens = s.tokens
  eof : t.eof = s.eof
  position : s.position ≤ t.position
  nesting : t.nesting = s.nesting
  preferences : t.preferences = s.preferences
  diagnostics : s.diagnostics.size ≤ t.diagnostics.size

namespace Forward

variable {s t u : Parser}

theorem refl (s : Parser) : Forward s s := ⟨rfl, rfl, Nat.le_refl _, rfl, rfl, Nat.le_refl _⟩

theorem of_cursor (hc : t.toCursor = s.toCursor) (hn : t.nesting = s.nesting) (hp : t.preferences = s.preferences)
    (hd : s.diagnostics.size ≤ t.diagnostics.size) : Forward s t := by
  refine ⟨?_, ?_, ?_, hn, hp, hd⟩
  · rw [hc]
  · rw [hc]
  · exact Nat.le_of_eq (by rw [hc])

theorem trans (h : Forward s t) (g : Forward t u) : Forward s u :=
  ⟨g.tokens.trans h.tokens, g.eof.trans h.eof, Nat.le_trans h.position g.position, g.nesting.trans h.nesting,
    g.preferences.trans h.preferences, Nat.le_trans h.diagnostics g.diagnostics⟩

theorem left_le (h : Forward s t) : t.left ≤ s.left := by
  have hp := h.position
  simp only [Cursor.left, h.tokens]
  omega

theorem left_lt_iff (h : Forward s t) : t.left < s.left ↔ s.position < t.position := by
  have ht := t.position_le
  rw [h.tokens] at ht
  simp only [Cursor.left, h.tokens]
  omega

theorem peek_eq (h : Forward s t) (hp : t.position = s.position) : t.peek = s.peek := by
  simp only [Cursor.peek, Cursor.tokenAt, h.tokens, h.eof, hp]

end Forward

/-- A step that only moves on, from wherever it starts. -/
def Steady (x : Parse α) : Prop := ∀ s, Forward s (x s).2

theorem forward_advance (s : Parser) : Forward s (advance s).2 :=
  ⟨s.toCursor.tokens_next, s.toCursor.eof_next, s.toCursor.position_next_le, rfl, rfl, Nat.le_refl _⟩

theorem atEnd_of_kind {s : Parser} (h : s.peek.kind ≠ .eof) : s.atEnd = false := by
  rw [Ne, Cursor.kind_peek_eq_eof, Bool.not_eq_true] at h
  exact h

theorem left_advance_lt {s : Parser} (h : s.peek.kind ≠ .eof) : (advance s).2.left < s.left :=
  Cursor.left_next_lt (atEnd_of_kind h)

theorem forward_record (d : Diagnostic) (s : Parser) : Forward s (record d s).2 := by
  unfold record
  split
  · exact Forward.of_cursor rfl rfl rfl (by simp)
  · split
    · exact Forward.refl s
    · exact Forward.of_cursor rfl rfl rfl (by simp)

theorem toCursor_record (d : Diagnostic) (s : Parser) : (record d s).2.toCursor = s.toCursor := by
  unfold record
  split
  · rfl
  · split <;> rfl

/-- Nothing is recorded in vain: what finds no room is there already. -/
theorem diagnostics_record_ne (d : Diagnostic) (s : Parser) : 0 < (record d s).2.diagnostics.size := by
  unfold record
  split
  · simp
  · split
    · have hmax : 0 < maxDiagnostics := by decide
      show 0 < s.diagnostics.size
      omega
    · simp

theorem forward_recordSkipped (start : Nat) (reason : String) (s : Parser) :
    Forward s (recordSkipped start reason s).2 := by
  unfold recordSkipped
  split
  · exact Forward.refl s
  · dsimp only
    split <;> split <;> exact Forward.of_cursor rfl rfl rfl (Nat.le_refl _)

theorem toCursor_recordSkipped (start : Nat) (reason : String) (s : Parser) :
    (recordSkipped start reason s).2.toCursor = s.toCursor := by
  unfold recordSkipped
  split
  · rfl
  · dsimp only
    split <;> split <;> rfl

theorem forward_note (e : Event) (s : Parser) : Forward s (note e s).2 :=
  Forward.of_cursor rfl rfl rfl (Nat.le_refl _)

/-- A relation between the states of two runs that the steps of the grammar keep. The second run may stand `shift`
tokens and `deep` braces further on. The runs are compared until the first one is `lost`. -/
structure Simulation where
  rel : Parser → Parser → Prop
  lost : Parser → Prop
  /-- Whether closing braces may be passed. -/
  closes : Prop
  /-- Whether looking ahead sees the same in both runs. -/
  ahead : Prop
  shift : Nat
  deep : Nat
  lost_mono {s t} : t.tokens = s.tokens → s.position ≤ t.position → lost s → lost t
  ahead_of_closes : closes → ahead
  peek_eq {s s'} : rel s s' → s'.peek = s.peek
  /-- As far as the first closing brace. -/
  peekAhead_eq {s s'} : ahead → rel s s' → ∀ n, (∀ i < n, (s.peekAhead i).kind ≠ .rightBrace) →
    s'.peekAhead n = s.peekAhead n
  position_eq {s s'} : rel s s' → s'.position = s.position + shift
  braceDepth_eq {s s'} : rel s s' → s'.braceDepth = s.braceDepth + deep
  nesting_eq {s s'} : rel s s' → s'.nesting = s.nesting
  spanFrom_eq {s s'} : rel s s' → ∀ start, s'.spanFrom (start + shift) = s.spanFrom start
  advance {s s'} : rel s s' → (s.peek.kind = .rightBrace → closes) →
    lost (Rule.advance s).2 ∨ rel (Rule.advance s).2 (Rule.advance s').2
  record {s s'} (d) : rel s s' → rel (Rule.record d s).2 (Rule.record d s').2
  recordSkipped {s s'} (start reason) : rel s s' →
    rel (Rule.recordSkipped start reason s).2 (Rule.recordSkipped (start + shift) reason s').2
  note {s s'} (e) : rel s s' → rel (Rule.note e s).2 (Rule.note e s').2
  withNesting {s s'} (n) : rel s s' → rel (s.withNesting n) (s'.withNesting n)

namespace Simulation

variable {R : Simulation} {s s' : Parser}

theorem lost_of_forward (R : Simulation) (h : Forward s s') (hs : R.lost s) : R.lost s' :=
  R.lost_mono h.tokens h.position hs

theorem next_eq (ha : R.ahead) (h : R.rel s s') (hk : s.peek.kind ≠ .rightBrace) :
    s'.peekAhead 1 = s.peekAhead 1 := by
  apply R.peekAhead_eq ha h 1
  intro i hi
  rw [Nat.lt_one_iff.1 hi]
  exact hk

theorem atEnd_eq (R : Simulation) (h : R.rel s s') : s'.atEnd = s.atEnd := by
  rw [Bool.eq_iff_iff, ← Cursor.kind_peek_eq_eof, ← Cursor.kind_peek_eq_eof, R.peek_eq h]

def May (R : Simulation) (kind : Kind) : Prop := kind ≠ .eof ∧ (kind = .rightBrace → R.closes)

theorem may_of_eq {t : Token} {κ : Kind} (h : t.kind = κ) (hκ : R.May κ) : R.May t.kind := h.symm ▸ hκ

/-- A test that the end of the input and a closing brace fail. -/
theorem may_of_test {c : Kind → Bool} (heof : c .eof = false) (hbrace : c .rightBrace = false) {κ : Kind}
    (h : c κ = true) : R.May κ := by
  refine ⟨?_, ?_⟩
  · rintro rfl
    exact absurd (heof.symm.trans h) Bool.false_ne_true
  · rintro rfl
    exact absurd (hbrace.symm.trans h) Bool.false_ne_true

end Simulation

def Simulation.same : Simulation where
  rel s s' := s' = s
  lost _ := False
  closes := True
  ahead := True
  shift := 0
  deep := 0
  lost_mono _ _ h := h
  ahead_of_closes _ := trivial
  peek_eq h := h ▸ rfl
  peekAhead_eq _ h _ _ := h ▸ rfl
  position_eq h := h ▸ rfl
  braceDepth_eq h := h ▸ rfl
  nesting_eq h := h ▸ rfl
  spanFrom_eq h _ := h ▸ rfl
  advance h _ := .inr (h ▸ rfl)
  record _ h := h ▸ rfl
  recordSkipped _ _ h := h ▸ rfl
  note _ h := h ▸ rfl
  withNesting _ h := h ▸ rfl

def Below (k : Nat) (s : Parser) : Prop := s.left < k

def Never (_ : α) : Prop := False

def Always (_ : α) : Prop := True

def Yields : ForInStep α → Prop
  | .yield _ => True
  | .done _ => False

def okAnd (p : α → Prop) : Except Fault α → Prop
  | .ok a => p a
  | .error _ => False

theorem not_okAnd_never {result : Except Fault α} : ¬ okAnd Never result := by
  cases result <;> exact id

/-- Runs that began in `s` and `s'` have come to the same result in related states, and with a result that satisfies
`p` they have passed a token, unless the first one is lost. -/
def Alike (R : Simulation) (p : α → Prop) (s s' : Parser) (a b : α × Parser) : Prop :=
  R.lost a.2 ∨ (p a.1 → a.2.left < s.left) ∧ Forward s' b.2 ∧ a.1 = b.1 ∧ R.rel a.2 b.2

/-- Two steps end alike from related states, the first of which satisfies `P`. -/
structure Agree (R : Simulation) (P : Parser → Prop) (p : α → Prop) (x y : Parse α) : Prop where
  steady : Steady x
  alike {s s'} : R.rel s s' → P s → Alike R p s s' (x s) (y s')

def RuleAgree (R : Simulation) (P : Parser → Prop) (p : α → Prop) (x y : Rule α) : Prop :=
  Agree R P (okAnd p) (attempt x) (attempt y)

theorem bind_apply (x : Parse α) (f : α → Parse β) (s : Parser) : (x >>= f) s = f (x s).1 (x s).2 := rfl

theorem pure_apply (a : α) (s : Parser) : (pure a : Parse α) s = (a, s) := rfl

theorem look_apply (h : Parser → α) (s : Parser) : look h s = (h s, s) := rfl

theorem look_bind_apply (h : Parser → α) (f : α → Parse β) (s : Parser) : (look h >>= f) s = f (h s) s := rfl

theorem advanceIf_apply (κ : Kind) (s : Parser) :
    advanceIf κ s = if s.peek.kind = κ then (some s.peek, (advance s).2) else (none, s) := by
  have h : advanceIf κ s = (if s.check κ = true then some <$> advance else pure none : Parse (Option Token)) s := rfl
  rw [h]
  by_cases hk : s.peek.kind = κ
  · rw [if_pos hk, if_pos (Cursor.check_iff.2 hk)]
    rfl
  · rw [if_neg hk, if_neg (mt Cursor.check_iff.1 hk)]
    rfl

theorem accept_apply (κ : Kind) (s : Parser) :
    accept κ s = if s.peek.kind = κ then (true, (advance s).2) else (false, s) := by
  have h : accept κ s = ((advanceIf κ s).1.isSome, (advanceIf κ s).2) := rfl
  rw [h, advanceIf_apply]
  split <;> rfl

theorem forward_accept (κ : Kind) (s : Parser) : Forward s (accept κ s).2 := by
  rw [accept_apply]
  split
  · exact forward_advance s
  · exact Forward.refl s

theorem expect_apply (κ : Kind) (s : Parser) :
    expect κ s = if s.peek.kind = κ then (.ok s.peek, (advance s).2) else (.error (.expected κ.describe s.peek), s) := by
  have h : expect κ s = (if s.peek.kind = κ then (liftM advance : Rule Token)
      else throw (.expected κ.describe s.peek)) s := rfl
  rw [h]
  split <;> rfl

theorem expect_of_kind {κ : Kind} {s : Parser} (h : s.peek.kind = κ) : expect κ s = (.ok s.peek, (advance s).2) := by
  rw [expect_apply, if_pos h]

section

variable {α β : Type} {R : Simulation} {P Q : Parser → Prop} {p q : α → Prop} {r : β → Prop} {k : Nat}

namespace Agree

variable {x y : Parse α} {f g : α → Parse β}

theorem mono (h : Agree R Q q x y) (hP : ∀ s, P s → Q s) (hp : ∀ a, p a → q a) : Agree R P p x y := by
  refine ⟨h.steady, ?_⟩
  intro s s' hs hPs
  rcases h.alike hs (hP s hPs) with hlost | ⟨hpass, hsame⟩
  · exact .inl hlost
  · exact .inr ⟨fun ha => hpass (hp _ ha), hsame⟩

/-- What is known of related states may be used to get at the precondition. -/
theorem of_related (h : Agree R Q p x y) (hP : ∀ s s', R.rel s s' → P s → Q s) : Agree R P p x y :=
  ⟨h.steady, fun hs hPs => h.alike hs (hP _ _ hs hPs)⟩

theorem of_below (h : Agree R (Below k) p x y) (hP : ∀ s, P s → s.left < k) : Agree R P p x y :=
  h.mono hP fun _ ha => ha

theorem le {j : Nat} (h : Agree R (Below k) p x y) (hj : j ≤ k) : Agree R (Below j) p x y :=
  h.of_below fun _ hs => Nat.lt_of_lt_of_le hs hj

theorem never (h : Agree R P q x y) : Agree R P Never x y := h.mono (fun _ hs => hs) fun _ ha => ha.elim

/-- That a token is passed can be shown for the first run alone. -/
theorem of_passes (h : Agree R P Never x y) (hpass : ∀ s, P s → (x s).2.left < s.left) : Agree R P p x y := by
  refine ⟨h.steady, ?_⟩
  intro s s' hs hPs
  rcases h.alike hs hPs with hlost | ⟨-, hsame⟩
  · exact .inl hlost
  · exact .inr ⟨fun _ => hpass s hPs, hsame⟩

theorem pure {a : α} (ha : ¬ p a) : Agree R P p (pure a) (pure a) :=
  ⟨Forward.refl, fun hs _ => .inr ⟨fun h => absurd h ha, Forward.refl _, rfl, hs⟩⟩

/-- A step that passes no token. -/
theorem of_rel (hx : Steady x) (hy : Steady y)
    (h : ∀ s s', R.rel s s' → P s → (x s).1 = (y s').1 ∧ R.rel (x s).2 (y s').2) : Agree R P Never x y :=
  ⟨hx, fun hs hPs => .inr ⟨fun h => h.elim, hy _, h _ _ hs hPs⟩⟩

/-- A first step, and a second one that goes on with its result. After a result of the first step that satisfies `q`
the second starts with one token less. -/
theorem bind_of (hP : ∀ s, P s → s.left < k) (hx : Agree R P q x y)
    (hq : ∀ a, q a → Agree R (Below (k - 1)) Never (f a) (g a))
    (hn : ∀ a, ¬ q a → Agree R (Below k) r (f a) (g a)) : Agree R P r (x >>= f) (y >>= g) := by
  have hf : ∀ a, Steady (f a) := by
    intro a
    by_cases ha : q a
    · exact (hq a ha).steady
    · exact (hn a ha).steady
  refine ⟨fun s => (hx.steady s).trans (hf _ _), ?_⟩
  intro s s' hs hPs
  rw [bind_apply, bind_apply]
  have hle := (hf (x s).1 (x s).2).left_le
  have hlt := hP s hPs
  rcases hx.alike hs hPs with hlost | ⟨hpass, hforward, heq, hrel⟩
  · exact .inl (R.lost_of_forward (hf _ _) hlost)
  · rw [← heq]
    by_cases ha : q (x s).1
    · have hless := hpass ha
      have hbelow : Below (k - 1) (x s).2 := show (x s).2.left < k - 1 by omega
      rcases (hq _ ha).alike hrel hbelow with hlost | ⟨-, hforward', hsame⟩
      · exact .inl hlost
      · exact .inr ⟨fun _ => Nat.lt_of_le_of_lt hle hless, hforward.trans hforward', hsame⟩
    · have hbelow : Below k (x s).2 := Nat.lt_of_le_of_lt (hx.steady s).left_le hlt
      rcases (hn _ ha).alike hrel hbelow with hlost | ⟨hpass', hforward', hsame⟩
      · exact .inl hlost
      · exact .inr ⟨fun hr => Nat.lt_of_lt_of_le (hpass' hr) (hx.steady s).left_le, hforward.trans hforward', hsame⟩

theorem bind (hx : Agree R (Below k) Never x y) (hf : ∀ a, Agree R (Below k) r (f a) (g a)) :
    Agree R (Below k) r (x >>= f) (y >>= g) :=
  bind_of (fun _ h => h) hx (fun _ h => h.elim) fun a _ => hf a

theorem andThen_of (hP : ∀ s, P s → s.left < k) (hx : Agree R P Always x y)
    (hf : ∀ a, Agree R (Below (k - 1)) Never (f a) (g a)) : Agree R P r (x >>= f) (y >>= g) :=
  bind_of hP hx (fun a _ => hf a) fun _ h => absurd trivial h

theorem map {h : α → β} (hx : Agree R P Never x y) : Agree R P Never (h <$> x) (h <$> y) := by
  refine ⟨hx.steady, ?_⟩
  intro s s' hs hPs
  rcases hx.alike hs hPs with hlost | ⟨-, hforward, heq, hrel⟩
  · exact .inl hlost
  · exact .inr ⟨fun h => h.elim, hforward, congrArg h heq, hrel⟩

/-- Looking at the state first. What was seen may be used of the state that follows. -/
theorem look {h h' : Parser → α} (heq : ∀ s s', R.rel s s' → P s → h' s' = h s)
    (hf : ∀ a, Agree R (fun s => P s ∧ h s = a) r (f a) (g a)) :
    Agree R P r (Rule.look h >>= f) (Rule.look h' >>= g) := by
  refine ⟨fun s => (hf _).steady s, ?_⟩
  intro s s' hs hPs
  rw [look_bind_apply, look_bind_apply, heq s s' hs hPs]
  exact (hf (h s)).alike hs ⟨hPs, rfl⟩

/-- Looking at a number that is the same in both runs but for a fixed sum. -/
theorem look_add {h : Parser → Nat} {n : Nat} {f g : Nat → Parse β} (heq : ∀ s s', R.rel s s' → h s' = h s + n)
    (hf : ∀ a, Agree R (fun s => P s ∧ h s = a) r (f a) (g (a + n))) :
    Agree R P r (Rule.look h >>= f) (Rule.look h >>= g) := by
  refine ⟨fun s => (hf _).steady s, ?_⟩
  intro s s' hs hPs
  rw [look_bind_apply, look_bind_apply, heq s s' hs]
  exact (hf (h s)).alike hs ⟨hPs, rfl⟩

/-- What was seen of the state is not needed. -/
theorem forget {c : Parser → Prop} (h : Agree R P p x y) : Agree R (fun s => P s ∧ c s) p x y :=
  h.mono (fun _ hs => hs.1) fun _ ha => ha

theorem test {c c' : Parser → Bool} {f g : Bool → Parse β} (heq : ∀ s s', R.rel s s' → P s → c' s' = c s)
    (hf : ∀ b, Agree R (fun s => P s ∧ c s = b) r (f b) (g b)) :
    Agree R P r (Rule.test c >>= f) (Rule.test c' >>= g) := look heq hf

theorem peek {f g : Token → Parse β} (hf : ∀ t, Agree R (fun s => P s ∧ s.peek = t) r (f t) (g t)) :
    Agree R P r (Rule.peek >>= f) (Rule.peek >>= g) := look (fun _ _ hs _ => R.peek_eq hs) hf

theorem peekKind {f g : Kind → Parse β} (hf : ∀ κ, Agree R (fun s => P s ∧ s.peek.kind = κ) r (f κ) (g κ)) :
    Agree R P r (Rule.peekKind >>= f) (Rule.peekKind >>= g) :=
  look (fun _ _ hs _ => congrArg Token.kind (R.peek_eq hs)) hf

theorem atEnd {f g : Bool → Parse β} (hf : ∀ b, Agree R (fun s => P s ∧ s.atEnd = b) r (f b) (g b)) :
    Agree R P r (Rule.atEnd >>= f) (Rule.atEnd >>= g) := look (fun _ _ hs _ => R.atEnd_eq hs) hf

/-- The place where a step starts, and which it may come back to. -/
theorem start {f g : Nat → Parse β}
    (hf : ∀ n, Agree R (fun s => P s ∧ s.position = n) r (f n) (g (n + R.shift))) :
    Agree R P r (Rule.here >>= f) (Rule.here >>= g) := look_add (fun _ _ hs => R.position_eq hs) hf

theorem here {f g : Nat → Parse β} (hf : ∀ n, Agree R P r (f n) (g (n + R.shift))) :
    Agree R P r (Rule.here >>= f) (Rule.here >>= g) := start fun n => (hf n).forget

theorem depth {f g : Nat → Parse β} (hf : ∀ n, Agree R (fun s => P s ∧ s.braceDepth = n) r (f n) (g (n + R.deep))) :
    Agree R P r (Rule.depth >>= f) (Rule.depth >>= g) := look_add (fun _ _ hs => R.braceDepth_eq hs) hf

theorem passedSince {start : Nat} {f g : Nat → Parse β}
    (hf : ∀ n, Agree R (fun s => P s ∧ s.position - start = n) r (f n) (g n)) :
    Agree R P r (Rule.passedSince start >>= f) (Rule.passedSince (start + R.shift) >>= g) := by
  apply look _ hf
  intro s s' hs _
  rw [R.position_eq hs, Nat.add_sub_add_right]

theorem openBeyond {base : Nat} {f g : Nat → Parse β}
    (hf : ∀ n, Agree R (fun s => P s ∧ s.braceDepth - base = n) r (f n) (g n)) :
    Agree R P r (Rule.openBeyond base >>= f) (Rule.openBeyond (base + R.deep) >>= g) := by
  apply look _ hf
  intro s s' hs _
  rw [R.braceDepth_eq hs, Nat.add_sub_add_right]

theorem spanFrom {start : Nat} {f g : Text.Span → Parse β} (hf : ∀ span, Agree R P r (f span) (g span)) :
    Agree R P r (Rule.spanFrom start >>= f) (Rule.spanFrom (start + R.shift) >>= g) :=
  look (fun _ _ hs _ => R.spanFrom_eq hs start) fun span => (hf span).forget

/-- Passing a token that is there. -/
theorem advance {f g : Token → Parse β} (hP : ∀ s, P s → s.left < k ∧ R.May s.peek.kind)
    (hf : ∀ t, Agree R (Below (k - 1)) Never (f t) (g t)) :
    Agree R P r (Rule.advance >>= f) (Rule.advance >>= g) := by
  apply bind_of (q := Always) (k := k) (fun s hs => (hP s hs).1) _ (fun t _ => hf t) fun _ h => absurd trivial h
  refine ⟨forward_advance, ?_⟩
  intro s s' hs hPs
  obtain ⟨-, hkind, hclose⟩ := hP s hPs
  rcases R.advance hs hclose with hlost | hrel
  · exact .inl hlost
  · exact .inr ⟨fun _ => left_advance_lt hkind, forward_advance s', (R.peek_eq hs).symm, hrel⟩

theorem advance_token {t : Token} {f g : Token → Parse β} (ht : R.May t.kind)
    (hf : ∀ t, Agree R (Below (k - 1)) Never (f t) (g t)) :
    Agree R (fun s => Below k s ∧ s.peek = t) r (Rule.advance >>= f) (Rule.advance >>= g) :=
  advance (fun _ hs => ⟨hs.1, hs.2.symm ▸ ht⟩) hf

theorem advance_kind {κ : Kind} {f g : Token → Parse β} (hκ : R.May κ)
    (hf : ∀ t, Agree R (Below (k - 1)) Never (f t) (g t)) :
    Agree R (fun s => Below k s ∧ s.peek.kind = κ) r (Rule.advance >>= f) (Rule.advance >>= g) :=
  advance (fun _ hs => ⟨hs.1, hs.2.symm ▸ hκ⟩) hf

theorem record (d : Diagnostic) : Agree R P Never (Rule.record d) (Rule.record d) :=
  of_rel (forward_record d) (forward_record d) fun _ _ hs _ => ⟨rfl, R.record d hs⟩

theorem report (fault : Fault) : Agree R P Never (Rule.report fault) (Rule.report fault) := record _

/-- What is known of the place where a report is made still holds behind it. -/
theorem report_then {fault : Fault} {f g : Unit → Parse β} (hP : ∀ s t, t.toCursor = s.toCursor → P s → P t)
    (hf : Agree R P r (f ()) (g ())) : Agree R P r (Rule.report fault >>= f) (Rule.report fault >>= g) := by
  refine ⟨fun s => (forward_record _ s).trans (hf.steady _), ?_⟩
  intro s s' hs hPs
  have hcursor := toCursor_record (.ofFault fault) s
  rcases hf.alike (R.record (.ofFault fault) hs) (hP _ _ hcursor hPs) with hlost | ⟨hpass, hforward, hsame⟩
  · exact .inl hlost
  · rw [Cursor.left, hcursor, ← Cursor.left] at hpass
    exact .inr ⟨hpass, (forward_record _ s').trans hforward, hsame⟩

theorem note (e : Event) : Agree R P Never (Rule.note e) (Rule.note e) :=
  of_rel (forward_note e) (forward_note e) fun _ _ hs _ => ⟨rfl, R.note e hs⟩

theorem recordSkipped (start : Nat) (reason : String) :
    Agree R P Never (Rule.recordSkipped start reason) (Rule.recordSkipped (start + R.shift) reason) :=
  of_rel (forward_recordSkipped start reason) (forward_recordSkipped _ reason) fun _ _ hs _ =>
    ⟨rfl, R.recordSkipped start reason hs⟩

/-- Passing a token of the wanted kind, if there is one, and telling whether there was. -/
theorem accept {κ : Kind} (hκ : R.May κ) : Agree R P (· = true) (Rule.accept κ) (Rule.accept κ) := by
  refine ⟨forward_accept κ, ?_⟩
  intro s s' hs _
  rw [accept_apply, accept_apply, R.peek_eq hs]
  by_cases hk : s.peek.kind = κ
  · rw [if_pos hk, if_pos hk]
    rcases R.advance hs (fun h => hκ.2 (hk.symm.trans h)) with hlost | hrel
    · exact .inl hlost
    · exact .inr ⟨fun _ => left_advance_lt (hk.symm ▸ hκ.1), forward_advance s', rfl, hrel⟩
  · rw [if_neg hk, if_neg hk]
    exact .inr ⟨fun h => absurd h Bool.false_ne_true, Forward.refl s', rfl, hs⟩

theorem accept_bind {κ : Kind} {f g : Bool → Parse β} (hκ : R.May κ)
    (hf : ∀ found, Agree R (Below k) r (f found) (g found)) :
    Agree R (Below k) r (Rule.accept κ >>= f) (Rule.accept κ >>= g) := bind (accept hκ).never hf

theorem accept_ite {κ : Kind} {a b a' b' : Parse α} (hκ : R.May κ) (hyes : Agree R (Below (k - 1)) Never a a')
    (hno : Agree R (Below k) p b b') :
    Agree R (Below k) p (Rule.accept κ >>= fun found => if found = true then a else b)
      (Rule.accept κ >>= fun found => if found = true then a' else b') := by
  apply bind_of (fun _ h => h) (accept hκ)
  · intro found hfound
    rw [if_pos hfound, if_pos hfound]
    exact hyes
  · intro found hfound
    rw [if_neg hfound, if_neg hfound]
    exact hno

end Agree

end

end CalExport.Rule
