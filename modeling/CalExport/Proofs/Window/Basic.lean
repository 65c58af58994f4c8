import CalExport.Proofs.TrailingInput

namespace CalExport.Rule

def depthAt (token : Nat → Token) : Nat → Nat
  | 0 => 0
  | i + 1 => Cursor.depthAfter (depthAt token i) (token i).kind

structure Window where
  /-- The tokens of the first run. -/
  first : Nat → Token
  /-- The tokens of the second run, counted like those of the first. -/
  second : Nat → Token
  /-- The places inside the stretch. -/
  sees : Nat → Prop
  shift : Nat
  deep : Nat
  /-- Whether what is reported and passed over is compared, too. -/
  logs : Prop
  /-- What the second run had passed over before. -/
  earlier : Array SkippedRegion
  sees_of_le {i j} : i ≤ j → sees j → sees i
  second_eq {i} : sees i → second i = first i

structure Logged (earlier : Array SkippedRegion) (s s' : Parser) : Prop where
  diagnostics : s'.diagnostics = s.diagnostics
  capped : s'.capped = s.capped
  preferences : s'.preferences = s.preferences
  skipped : s'.skipped = earlier ++ s.skipped

/-- The same place in both runs, inside the stretch or right behind it. -/
structure Meets (W : Window) (s s' : Parser) : Prop where
  first : ∀ i, s.tokenAt i = W.first i
  second : ∀ i, s'.tokenAt (i + W.shift) = W.second i
  passed : ∀ i < s.position, W.sees i
  position : s'.position = s.position + W.shift
  braceDepth : s'.braceDepth = s.braceDepth + W.deep
  tracked : W.deep = 0 ∨ s.braceDepth = depthAt W.first s.position
  nesting : s'.nesting = s.nesting
  logged : W.logs → Logged W.earlier s s'

namespace Window

variable (W : Window)

def Edge (i : Nat) : Prop := ¬ W.sees i ∧ ∀ j < i, W.sees j

theorem Edge.eq {W : Window} {i n : Nat} (hi : W.Edge i) (hsees : ∀ j, W.sees j ↔ j < n) : i = n := by
  obtain ⟨hout, hin⟩ := hi
  rw [hsees] at hout
  apply Nat.le_antisymm _ (Nat.le_of_not_lt hout)
  apply Nat.le_of_not_lt
  intro hlt
  exact absurd ((hsees n).1 (hin n hlt)) (Nat.lt_irrefl n)

def Ahead : Prop :=
  ∀ i j, W.sees i → i ≤ j → (∀ k, i ≤ k → k < j → (W.first k).kind ≠ .rightBrace) → W.sees j

/-- Every closing brace of the stretch closes a brace of it, unless both runs stand equally deep. -/
def Sound : Prop := W.deep = 0 ∨ ∀ i, W.sees i → (W.first i).kind = .rightBrace → 0 < depthAt W.first i

end Window

namespace Meets

variable {W : Window} {s s' : Parser}

theorem edge (h : Meets W s s') (hs : ¬ W.sees s.position) : W.Edge s.position := ⟨hs, h.passed⟩

theorem sees_of_lt (h : Meets W s s') {i : Nat} (hi : i < s.position) : s'.tokenAt (i + W.shift) = s.tokenAt i := by
  rw [h.second, h.first, W.second_eq (h.passed i hi)]

theorem peek_second (h : Meets W s s') : s'.peek = W.second s.position := by
  rw [Cursor.peek, h.position, h.second]

theorem peekAhead_second (h : Meets W s s') (n : Nat) : s'.peekAhead n = W.second (s.position + n) := by
  rw [Cursor.peekAhead, h.position, Nat.add_right_comm, h.second]

theorem peekAhead_eq (h : Meets W s s') {n : Nat} (hn : W.sees (s.position + n)) : s'.peekAhead n = s.peekAhead n := by
  rw [h.peekAhead_second, W.second_eq hn, Cursor.peekAhead, h.first]

theorem peek_eq (h : Meets W s s') (hs : W.sees s.position) : s'.peek = s.peek := h.peekAhead_eq (n := 0) hs

theorem atEnd_eq (h : Meets W s s') (hs : W.sees s.position) : s'.atEnd = s.atEnd := by
  rw [Bool.eq_iff_iff, ← Cursor.kind_peek_eq_eof, ← Cursor.kind_peek_eq_eof, h.peek_eq hs]

theorem spanFrom_eq (h : Meets W s s') {start : Nat} (hstart : start < s.position) :
    s'.spanFrom (start + W.shift) = s.spanFrom start := by
  have hfirst := h.sees_of_lt hstart
  have hlast := h.sees_of_lt (show s.position - 1 < s.position by omega)
  rw [← Nat.sub_add_comm (by omega), ← h.position] at hlast
  have hposition := h.position
  rw [Cursor.spanFrom, Cursor.spanFrom, Cursor.previous, Cursor.previous, if_neg (by omega), if_neg (by omega),
    if_neg (by omega), if_neg (by omega), hfirst, hlast]

theorem tokensBetween_eq (h : Meets W s s') (start : Nat) :
    s'.tokensBetween (start + W.shift) s'.position = s.tokensBetween start s.position := by
  have hle := s.position_le
  have hle' := s'.position_le
  have hposition := h.position
  rw [Cursor.tokensBetween, Cursor.tokensBetween]
  apply congrArg Array.toList
  apply Array.ext
  · simp only [Array.size_extract]
    omega
  · intro i hi hi'
    simp only [Array.size_extract] at hi hi'
    have hsame := h.sees_of_lt (show start + i < s.position by omega)
    rw [Cursor.tokenAt, Cursor.tokenAt, Array.getElem?_eq_getElem (by omega), Array.getElem?_eq_getElem (by omega),
      Option.getD_some, Option.getD_some] at hsame
    simp only [Array.getElem_extract]
    rw [← hsame]
    congr 1
    omega

theorem tracked_advance (h : Meets W s s') (hend : s.atEnd = false) :
    W.deep = 0 ∨ (advance s).2.braceDepth = depthAt W.first (s.position + 1) := by
  have hdepth : (advance s).2.braceDepth = _ := Cursor.braceDepth_next hend
  rcases h.tracked with hdeep | htracked
  · exact .inl hdeep
  · right
    rw [hdepth, htracked, depthAt, Cursor.peek, h.first]

theorem braceDepth_advance (h : Meets W s s') (hs : W.sees s.position) (hend : s.atEnd = false)
    (hbrace : s.peek.kind = .rightBrace → W.Sound) :
    (advance s').2.braceDepth = (advance s).2.braceDepth + W.deep := by
  have hdepth : (advance s).2.braceDepth = _ := Cursor.braceDepth_next hend
  have hdepth' : (advance s').2.braceDepth = _ := Cursor.braceDepth_next ((h.atEnd_eq hs).trans hend)
  rw [hdepth, hdepth', h.peek_eq hs, h.braceDepth]
  by_cases hclose : s.peek.kind = .rightBrace
  · rw [hclose]
    show s.braceDepth + W.deep - 1 = s.braceDepth - 1 + W.deep
    rcases hbrace hclose with hdeep | hsound
    · omega
    · rcases h.tracked with hdeep | htracked
      · omega
      · rw [Cursor.peek, h.first] at hclose
        have hpos := hsound _ hs hclose
        omega
  · generalize s.peek.kind = κ at hclose
    cases κ
    case rightBrace => exact absurd rfl hclose
    case leftBrace => exact Nat.add_right_comm _ _ _
    all_goals rfl

theorem advance (h : Meets W s s') (hs : W.sees s.position) (hbrace : s.peek.kind = .rightBrace → W.Sound) :
    Meets W (Rule.advance s).2 (Rule.advance s').2 := by
  cases hend : s.atEnd with
  | true =>
      have hstay : ∀ t : Parser, t.atEnd = true → (Rule.advance t).2 = t := by
        intro t ht
        simp [Rule.advance, Cursor.next, ht]
      rw [hstay s hend, hstay s' ((h.atEnd_eq hs).trans hend)]
      exact h
  | false =>
      have hposition : (Rule.advance s).2.position = s.position + 1 := Cursor.position_next hend
      have hposition' : (Rule.advance s').2.position = s'.position + 1 :=
        Cursor.position_next ((h.atEnd_eq hs).trans hend)
      refine ⟨?_, ?_, ?_, ?_, h.braceDepth_advance hs hend hbrace, ?_, h.nesting, ?_⟩
      · intro i
        rw [tokenAt_advance, h.first]
      · intro i
        rw [tokenAt_advance, h.second]
      · intro i hi
        exact W.sees_of_le (show i ≤ s.position by omega) hs
      · rw [hposition, hposition', h.position, Nat.add_right_comm]
      · rw [hposition]
        exact h.tracked_advance hend
      · exact fun hlogs => { h.logged hlogs with }

/-- What is noted does not matter, and what is reported only where it is compared. -/
theorem of_cursor {t t' : Parser} (h : Meets W s s') (ht : t.toCursor = s.toCursor) (ht' : t'.toCursor = s'.toCursor)
    (hn : t'.nesting = t.nesting) (hl : W.logs → Logged W.earlier t t') : Meets W t t' := by
  cases t
  cases t'
  cases ht
  cases ht'
  exact { h with nesting := hn, logged := hl }

theorem record (h : Meets W s s') (d : Diagnostic) : Meets W (Rule.record d s).2 (Rule.record d s').2 := by
  apply h.of_cursor (toCursor_record d s) (toCursor_record d s')
  · rw [(forward_record d s).nesting, (forward_record d s').nesting, h.nesting]
  · intro hlogs
    have hl := h.logged hlogs
    unfold Rule.record
    rw [hl.diagnostics, hl.capped]
    split
    · exact { hl with diagnostics := rfl, capped := rfl }
    · split
      · exact hl
      · exact { hl with diagnostics := rfl, capped := rfl }

theorem recordSkipped (h : Meets W s s') (start : Nat) (reason : String) :
    Meets W (Rule.recordSkipped start reason s).2 (Rule.recordSkipped (start + W.shift) reason s').2 := by
  apply h.of_cursor (toCursor_recordSkipped _ _ s) (toCursor_recordSkipped _ _ s')
  · rw [(forward_recordSkipped _ _ s).nesting, (forward_recordSkipped _ _ s').nesting, h.nesting]
  · intro hlogs
    have hl := h.logged hlogs
    obtain ⟨events, heq⟩ := recordSkipped_snd start reason s
    obtain ⟨events', heq'⟩ := recordSkipped_snd (start + W.shift) reason s'
    have hskipped : skippedSince (start + W.shift) reason s' = W.earlier ++ skippedSince start reason s := by
      have hposition := h.position
      unfold skippedSince
      rw [hl.preferences, hl.skipped]
      by_cases hkeep : start < s.position ∧ s.preferences.recordSkipped = true
      · rw [if_pos hkeep, if_pos ⟨by omega, hkeep.2⟩, h.spanFrom_eq hkeep.1, h.tokensBetween_eq, h.position,
          Nat.add_sub_add_right, Array.append_push]
      · rw [if_neg hkeep, if_neg fun hk => hkeep ⟨by omega, hk.2⟩]
    rw [heq, heq']
    exact { hl with skipped := hskipped }

theorem note (h : Meets W s s') (e e' : Event) : Meets W (Rule.note e s).2 (Rule.note e' s').2 :=
  h.of_cursor rfl rfl h.nesting fun hlogs => { h.logged hlogs with }

theorem withNesting (h : Meets W s s') (n : Nat) : Meets W (s.withNesting n) (s'.withNesting n) :=
  h.of_cursor rfl rfl rfl fun hlogs => { h.logged hlogs with }

/-- Looking ahead sees the same as far as the first closing brace. -/
theorem peekAhead_of_ahead (h : Meets W s s') (hs : W.sees s.position) (ha : W.Ahead) (n : Nat)
    (hn : ∀ i < n, (s.peekAhead i).kind ≠ .rightBrace) : s'.peekAhead n = s.peekAhead n := by
  apply h.peekAhead_eq
  apply ha _ _ hs (Nat.le_add_right _ _)
  intro k hk hlt
  have hkind := hn (k - s.position) (by omega)
  rwa [Cursor.peekAhead, Nat.add_sub_cancel' hk, h.first] at hkind

/-- The same wherever the span begins. -/
theorem spanFrom_any (h : Meets W s s') (hs : W.sees s.position) (start : Nat) :
    s'.spanFrom (start + W.shift) = s.spanFrom start := by
  by_cases hle : s.position ≤ start
  · have hposition := h.position
    rw [Cursor.spanFrom, Cursor.spanFrom, if_pos hle, if_pos (by omega), h.peek_eq hs]
  · exact h.spanFrom_eq (Nat.lt_of_not_le hle)

/-- A step stays in the stretch or leaves it. -/
theorem step (h : Meets W s s') (hs : W.sees s.position) (hbrace : s.peek.kind = .rightBrace → W.Sound) :
    ¬ W.sees (Rule.advance s).2.position ∨
      Meets W (Rule.advance s).2 (Rule.advance s').2 ∧ W.sees (Rule.advance s).2.position := by
  by_cases hsees : W.sees (Rule.advance s).2.position
  · exact .inr ⟨h.advance hs hbrace, hsees⟩
  · exact .inl hsees

end Meets

namespace Window

variable (W : Window)

def simulation : Simulation where
  rel s s' := Meets W s s' ∧ W.sees s.position
  lost s := ¬ W.sees s.position
  closes := W.Ahead ∧ W.Sound
  ahead := W.Ahead
  shift := W.shift
  deep := W.deep
  lost_mono _ hle hlost := fun hsees => hlost (W.sees_of_le hle hsees)
  ahead_of_closes h := h.1
  peek_eq h := h.1.peek_eq h.2
  peekAhead_eq ha h := h.1.peekAhead_of_ahead h.2 ha
  position_eq h := h.1.position
  braceDepth_eq h := h.1.braceDepth
  nesting_eq h := h.1.nesting
  spanFrom_eq h := h.1.spanFrom_any h.2
  advance h hbrace := h.1.step h.2 fun hk => (hbrace hk).2
  record {s _} d h := ⟨h.1.record d, (toCursor_record d s).symm ▸ h.2⟩
  recordSkipped {s _} start reason h :=
    ⟨h.1.recordSkipped start reason, (toCursor_recordSkipped start reason s).symm ▸ h.2⟩
  note e h := ⟨h.1.note e e, h.2⟩
  withNesting n h := ⟨h.1.withNesting n, h.2⟩

end Window

end CalExport.Rule
