import CalExport.Proofs.Window.Common
import CalExport.Proofs.Window.Section

namespace CalExport.Rule

variable {l more : List Token} {s : Parser} {preferences : ParserPreferences}

/-- Whether some tokens close as many braces as are open in front of them and are opened among them, and each one behind
its opening. -/
def closesBraces : Nat → List Token → Bool
  | depth, [] => depth == 0
  | depth, t :: l =>
    match t.kind with
    | .leftBrace => closesBraces (depth + 1) l
    | .rightBrace => 0 < depth && closesBraces (depth - 1) l
    | _ => closesBraces depth l

def Balanced (l : List Token) : Prop := closesBraces 0 l = true

instance : DecidablePred Balanced := fun l => inferInstanceAs (Decidable (closesBraces 0 l = true))

theorem closesBraces_cons {depth : Nat} {t : Token} (h : closesBraces depth (t :: l) = true) :
    (t.kind = .rightBrace → 0 < depth) ∧ closesBraces (Cursor.depthAfter depth t.kind) l = true := by
  unfold closesBraces at h
  split at h
  · rename_i hkind
    rw [hkind]
    exact ⟨nofun, h⟩
  · rename_i hkind
    rw [hkind]
    rw [Bool.and_eq_true, decide_eq_true_eq] at h
    exact ⟨fun _ => h.1, h.2⟩
  · rename_i hopen hclose
    rw [depthAfter_of_ne hopen hclose]
    exact ⟨fun heq => absurd heq hclose, h⟩

/-- One behind the other. -/
theorem closesBraces_append {depth base : Nat} {m : List Token} (h : closesBraces depth l = true)
    (hm : closesBraces base m = true) : closesBraces (depth + base) (l ++ m) = true := by
  induction l generalizing depth with
  | nil =>
      obtain rfl : depth = 0 := beq_iff_eq.1 h
      rwa [Nat.zero_add]
  | cons t l ih =>
      obtain ⟨hpos, hrest⟩ := closesBraces_cons h
      rw [List.cons_append, closesBraces]
      split
      · rename_i hkind
        rw [hkind] at hrest
        rw [Nat.add_right_comm]
        exact ih hrest
      · rename_i hkind
        rw [hkind] at hrest hpos
        have hpos := hpos rfl
        rw [Nat.sub_add_comm hpos, Bool.and_eq_true, decide_eq_true_eq]
        exact ⟨Nat.add_pos_left hpos base, ih hrest⟩
      · rename_i hopen hclose
        rw [depthAfter_of_ne hopen hclose] at hrest
        exact ih hrest

/-- The end of the input is no brace. -/
theorem closesBraces_withoutEnd {depth : Nat} (h : closesBraces depth l = true) :
    closesBraces depth (withoutEnd l) = true := by
  induction l generalizing depth with
  | nil => exact h
  | cons t l ih =>
      by_cases hend : t.kind = .eof
      · rw [closesBraces, hend] at h
        rw [withoutEnd, List.filter_cons_of_neg (by simp [hend])]
        exact ih h
      · rw [withoutEnd_cons hend]
        rw [closesBraces] at h ⊢
        split at h
        · exact ih h
        · rw [Bool.and_eq_true] at h ⊢
          exact ⟨h.1, ih h.2⟩
        · exact ih h

theorem balanced_withoutEnd (h : Balanced l) : Balanced (withoutEnd l) := closesBraces_withoutEnd h

/-- The brace depth among such tokens and behind them. -/
theorem braceDepth_skip {depth base : Nat} (h : closesBraces depth l = true) (hahead : ahead s = l ++ more)
    (hdepth : s.braceDepth = base + depth) :
    (∀ i ≤ l.length, base ≤ (skip i s).braceDepth) ∧ (skip l.length s).braceDepth = base := by
  induction l generalizing s depth with
  | nil =>
      obtain rfl : depth = 0 := beq_iff_eq.1 h
      refine ⟨?_, hdepth⟩
      intro i hi
      rw [Nat.le_zero.1 hi]
      exact Nat.le_of_eq hdepth.symm
  | cons t l ih =>
      obtain ⟨hpos, hrest⟩ := closesBraces_cons h
      have hnext : (advance s).2.braceDepth = base + Cursor.depthAfter depth t.kind := by
        rw [braceDepth_advance hahead, peek_of_ahead hahead, hdepth]
        by_cases hclose : t.kind = .rightBrace
        · rw [hclose]
          exact Nat.add_sub_assoc (hpos hclose) base
        · generalize t.kind = κ at hclose
          cases κ
          case rightBrace => exact absurd rfl hclose
          all_goals rfl
      obtain ⟨hinside, hend⟩ := ih hrest (ahead_advance hahead) hnext
      refine ⟨?_, hend⟩
      intro i hi
      cases i with
      | zero => exact hdepth ▸ Nat.le_add_right base depth
      | succ i => exact hinside i (Nat.le_of_succ_le_succ hi)

theorem closesBraces_drop (preferences : ParserPreferences) (hahead : ahead s = l ++ more) (h : Balanced l) {i : Nat}
    (hi : i ≤ l.length) :
    closesBraces (depthAt (aloneOn preferences l).tokenAt i) (l.drop i) = true := by
  induction i with
  | zero => exact h
  | succ i ih =>
      have hrest := ih (Nat.le_of_succ_le hi)
      rw [List.drop_eq_getElem_cons hi] at hrest
      rw [depthAt, tokenAt_aloneOn hahead hi]
      exact (closesBraces_cons hrest).2

theorem sound_ofAhead (hahead : ahead s = l ++ more) (h : Balanced l) : (Window.ofAhead preferences hahead).Sound := by
  refine .inr fun i hi hkind => ?_
  have hi : i < l.length := hi
  have hrest := closesBraces_drop preferences hahead h (Nat.le_of_lt hi)
  rw [List.drop_eq_getElem_cons hi] at hrest
  apply (closesBraces_cons hrest).1
  rw [← tokenAt_aloneOn hahead hi]
  exact hkind

theorem depthAt_length (hahead : ahead s = l ++ more) (h : Balanced l) :
    depthAt (aloneOn preferences l).tokenAt l.length = 0 := by
  have hrest := closesBraces_drop preferences hahead h (Nat.le_refl _)
  rw [List.drop_length] at hrest
  exact beq_iff_eq.1 hrest

end CalExport.Rule
