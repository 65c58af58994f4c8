import CalExport.Proofs.Ahead
import CalExport.Proofs.TrailingInput

namespace CalExport

namespace Cursor

def after (c : Cursor) : Nat → Cursor
  | 0 => c
  | n + 1 => (c.after n).next

theorem after_add (c : Cursor) (m n : Nat) : c.after (m + n) = (c.after m).after n := by
  induction n with
  | zero => rfl
  | succ n ih => rw [← Nat.add_assoc, after, after, ih]

end Cursor

namespace Rule

theorem toCursor_skip (n : Nat) (s : Parser) : (skip n s).toCursor = s.after n := by
  induction n generalizing s with
  | zero => rfl
  | succ n ih =>
      have hnext : (advance s).2.toCursor = s.after 1 := rfl
      rw [skip, ih, hnext, ← Cursor.after_add, Nat.add_comm]

/-- From `c` on, `n` tokens are passed at depth `base` or deeper, and no closing brace among them closes more than
what was opened beyond `base`. -/
structure KeepsDepth (base : Nat) (c : Cursor) (n : Nat) : Prop where
  depth : ∀ k ≤ n, base ≤ (c.after k).braceDepth
  brace : ∀ k < n, (c.after k).peek.kind = .rightBrace → base < (c.after k).braceDepth
  position : (c.after n).position = c.position + n

namespace KeepsDepth

variable {base m n : Nat} {c : Cursor}

theorem zero (h : base ≤ c.braceDepth) : KeepsDepth base c 0 where
  depth k hk := by rwa [Nat.le_zero.1 hk]
  brace k hk := absurd hk (Nat.not_lt_zero k)
  position := rfl

theorem one (h : base ≤ c.braceDepth) (hend : c.atEnd = false)
    (hbrace : c.peek.kind = .rightBrace → base < c.braceDepth) : KeepsDepth base c 1 where
  depth k hk := by
    rcases Nat.le_one_iff_eq_zero_or_eq_one.1 hk with rfl | rfl
    · exact h
    · show base ≤ c.next.braceDepth
      rw [Cursor.braceDepth_next hend]
      by_cases hclose : c.peek.kind = .rightBrace
      · rw [hclose]
        exact Nat.le_sub_one_of_lt (hbrace hclose)
      · by_cases hopen : c.peek.kind = .leftBrace
        · rw [hopen]
          exact Nat.le_succ_of_le h
        · rwa [depthAfter_of_ne hopen hclose]
  brace k hk := by
    rw [Nat.lt_one_iff.1 hk]
    exact hbrace
  position := Cursor.position_next hend

theorem trans (h : KeepsDepth base c m) (g : KeepsDepth base (c.after m) n) : KeepsDepth base c (m + n) where
  depth k hk := by
    rcases Nat.le_total k m with hle | hle
    · exact h.depth k hle
    · obtain ⟨j, rfl⟩ := Nat.exists_eq_add_of_le hle
      rw [Cursor.after_add]
      exact g.depth j (by omega)
  brace k hk := by
    rcases Nat.lt_or_ge k m with hlt | hge
    · exact h.brace k hlt
    · obtain ⟨j, rfl⟩ := Nat.exists_eq_add_of_le hge
      rw [Cursor.after_add]
      exact g.brace j (by omega)
  position := by rw [Cursor.after_add, g.position, h.position, Nat.add_assoc]

end KeepsDepth

/-- The places where the search for the end of an item stops that began at depth `base`, so many tokens behind `c`. -/
inductive ItemStop (base : Nat) (recovery : List Kind) (c : Cursor) : Nat → Prop
  | atEnd {n : Nat} (h : (c.after n).atEnd = true) : ItemStop base recovery c n
  | enclosed {n : Nat} (h : (c.after n).peek.kind = .rightBrace) (hdepth : (c.after n).braceDepth = base) :
      ItemStop base recovery c n
  | before {n : Nat} (h : (c.after n).peek.kind ∈ recovery) (hdepth : (c.after n).braceDepth = base) :
      ItemStop base recovery c n
  | closed {n : Nat} (h : (c.after n).peek.kind = .rightBrace) (hdepth : (c.after n).braceDepth = base + 1) :
      ItemStop base recovery c (n + 1)

namespace ItemStop

variable {base m n : Nat} {recovery : List Kind} {c : Cursor}

theorem shift (h : ItemStop base recovery (c.after m) n) : ItemStop base recovery c (m + n) := by
  cases h with
  | atEnd h => exact .atEnd (by rwa [Cursor.after_add])
  | enclosed h hdepth => exact .enclosed (by rwa [Cursor.after_add]) (by rwa [Cursor.after_add])
  | before h hdepth => exact .before (by rwa [Cursor.after_add]) (by rwa [Cursor.after_add])
  | @closed n h hdepth =>
      rw [← Cursor.after_add] at h hdepth
      exact .closed h hdepth

/-- All that was opened is closed again, unless the input ends first. -/
theorem depth (h : ItemStop base recovery c n) :
    (c.after n).atEnd = true ∨ (c.after n).braceDepth = base := by
  cases h with
  | atEnd h => exact .inl h
  | enclosed h hdepth => exact .inr hdepth
  | before h hdepth => exact .inr hdepth
  | @closed n h hdepth =>
      have hend : (c.after n).atEnd = false := by
        rw [← Bool.not_eq_true, ← Cursor.kind_peek_eq_eof, h]
        exact nofun
      refine .inr ?_
      rw [Cursor.after, Cursor.braceDepth_next hend, h, hdepth]
      rfl

end ItemStop

variable {base : Nat} {recovery : List Kind} {s : Parser}

/-- What a round of the search does: it stops here, or behind the brace that closes the item, or it goes on. -/
theorem skipItemRound_cases (recovery : List Kind) (h : base ≤ s.braceDepth) :
    skipItemRound base recovery () s = (.done (), s) ∧ ItemStop base recovery s.toCursor 0 ∨
    s.atEnd = false ∧ (s.peek.kind = .rightBrace → base < s.braceDepth) ∧
      (skipItemRound base recovery () s = (.done (), (advance s).2) ∧ ItemStop base recovery s.toCursor 1 ∨
        skipItemRound base recovery () s = (.yield (), (advance s).2)) := by
  have hround : skipItemRound base recovery () s =
      (if s.peek.kind = .eof then pure (.done ())
      else if s.peek.kind = .rightBrace then
        if s.braceDepth - base = 0 then pure (.done ())
        else advance >>= fun _ => pure (if s.braceDepth - base = 1 then .done () else .yield ())
      else if s.braceDepth - base = 0 ∧ s.peek.kind ∈ recovery then pure (.done ())
      else advance >>= fun _ => pure (.yield ()) : Parse (ForInStep Unit)) s := rfl
  by_cases hend : s.peek.kind = .eof
  · rw [hround, if_pos hend]
    exact .inl ⟨rfl, .atEnd (Cursor.kind_peek_eq_eof.1 hend)⟩
  rw [if_neg hend] at hround
  by_cases hclose : s.peek.kind = .rightBrace
  · rw [if_pos hclose] at hround
    by_cases hopen : s.braceDepth - base = 0
    · rw [hround, if_pos hopen]
      exact .inl ⟨rfl, .enclosed hclose (show s.braceDepth = base by omega)⟩
    rw [if_neg hopen] at hround
    refine .inr ⟨atEnd_of_kind hend, fun _ => by omega, ?_⟩
    rw [hround]
    by_cases hlast : s.braceDepth - base = 1
    · rw [if_pos hlast]
      exact .inl ⟨rfl, .closed hclose (show s.braceDepth = base + 1 by omega)⟩
    · rw [if_neg hlast]
      exact .inr rfl
  rw [if_neg hclose] at hround
  by_cases hfound : s.braceDepth - base = 0 ∧ s.peek.kind ∈ recovery
  · rw [hround, if_pos hfound]
    exact .inl ⟨rfl, .before hfound.2 (show s.braceDepth = base by omega)⟩
  · rw [hround, if_neg hfound]
    exact .inr ⟨atEnd_of_kind hend, fun h => absurd h hclose, .inr rfl⟩

/-- The search passes tokens and does nothing else. -/
theorem skipItem_stops (recovery : List Kind) (h : base ≤ s.braceDepth) :
    ∃ n, (skipItem base recovery s).2 = skip n s ∧ KeepsDepth base s.toCursor n ∧
      ItemStop base recovery s.toCursor n := by
  have hloop := (grammarLoop_progresses (.skipItem base recovery)).unrolls ()
  induction hahead : ahead s generalizing s with
  | nil =>
      have hunroll := hloop s
      rcases skipItemRound_cases recovery h with ⟨hround, hstop⟩ | ⟨hend, -⟩
      · rw [hround] at hunroll
        exact ⟨0, congrArg Prod.snd hunroll, .zero h, hstop⟩
      · rw [ahead_eq_nil_iff.1 hahead] at hend
        cases hend
  | cons x l ih =>
      have hunroll := hloop s
      rcases skipItemRound_cases recovery h with ⟨hround, hstop⟩ | ⟨hend, hbrace, ⟨hround, hstop⟩ | hround⟩
      · rw [hround] at hunroll
        exact ⟨0, congrArg Prod.snd hunroll, .zero h, hstop⟩
      · rw [hround] at hunroll
        exact ⟨1, congrArg Prod.snd hunroll, .one h hend hbrace, hstop⟩
      · rw [hround] at hunroll
        have hone : KeepsDepth base s.toCursor 1 := .one h hend hbrace
        obtain ⟨n, hrun, hkeeps, hstop⟩ := ih (hone.depth 1 (Nat.le_refl 1)) (ahead_advance hahead)
        refine ⟨1 + n, ?_, hone.trans hkeeps, hstop.shift⟩
        rw [skip_add]
        exact (congrArg Prod.snd hunroll).trans hrun

/-- The places where an item ends that failed at `c` and began at depth `base` with `start` tokens passed: where the
search for its end stops, behind a semicolon there, or behind one token that is passed in any case. -/
inductive ItemEnd (base start : Nat) (recovery : List Kind) (c : Cursor) : Nat → Prop
  | stopped {n : Nat} (h : ItemStop base recovery c n) : ItemEnd base start recovery c n
  | semicolon {n : Nat} (h : ItemStop base recovery c n) (hkind : (c.after n).peek.kind = .semicolon) :
      ItemEnd base start recovery c (n + 1)
  | forced (hposition : c.position = start) (hdepth : c.braceDepth = base) (hkind : c.peek.kind ∈ recovery)
      (hbrace : c.peek.kind ≠ .rightBrace) : ItemEnd base start recovery c 1

theorem ItemEnd.depth {start n : Nat} {c : Cursor} (h : ItemEnd base start recovery c n)
    (hopen : start < c.position ∨ .leftBrace ∉ recovery) :
    (c.after n).atEnd = true ∨ (c.after n).braceDepth = base := by
  cases h with
  | stopped h => exact h.depth
  | @semicolon n h hkind =>
      have hend : (c.after n).atEnd = false := by
        rw [← Bool.not_eq_true, ← Cursor.kind_peek_eq_eof, hkind]
        exact nofun
      rcases h.depth with hstop | hdepth
      · rw [hend] at hstop
        cases hstop
      · refine .inr ?_
        rwa [Cursor.after, Cursor.braceDepth_next hend, hkind]
  | forced hposition hdepth hkind hbrace =>
      cases hend : c.atEnd with
      | true =>
          refine .inl ?_
          rw [Cursor.after, Cursor.after, Cursor.next, dif_pos hend, hend]
      | false =>
          have hleft : c.peek.kind ≠ .leftBrace := by
            rcases hopen with hlt | hout
            · omega
            · exact fun heq => hout (heq ▸ hkind)
          refine .inr ?_
          rwa [Cursor.after, Cursor.after, Cursor.braceDepth_next hend, depthAfter_of_ne hleft hbrace]

/-- What is passed behind a fault, before a note is made of it. -/
theorem passItem_ends (start : Nat) (recovery : List Kind) (h : base ≤ s.braceDepth) (hstart : start ≤ s.position) :
    ∃ n, (forceProgress start (accept .semicolon (skipItem base recovery s).2).2).2 = skip n s ∧
      KeepsDepth base s.toCursor n ∧ ItemEnd base start recovery s.toCursor n ∧
      (start < (skip n s).position ∨ (skip n s).atEnd = true ∨ (skip n s).peek.kind = .rightBrace) := by
  obtain ⟨n, hskip, hkeeps, hstop⟩ := skipItem_stops recovery h
  have hposition : (skip n s).position = s.position + n := by rw [toCursor_skip, hkeeps.position]
  rw [hskip, accept_apply, forceProgress_apply]
  by_cases hsemicolon : (skip n s).peek.kind = .semicolon
  · rw [if_pos hsemicolon]
    have hsemicolon' : (s.after n).peek.kind = .semicolon := by rwa [toCursor_skip] at hsemicolon
    have hend : (skip n s).atEnd = false := atEnd_of_kind (by rw [hsemicolon]; exact nofun)
    have hmoved : (advance (skip n s)).2.position = s.position + n + 1 := by
      rw [← hposition]
      exact Cursor.position_next hend
    have hone : KeepsDepth base (s.after n) 1 := by
      refine .one (hkeeps.depth n (Nat.le_refl n)) (by rwa [toCursor_skip] at hend) ?_
      rw [hsemicolon']
      exact nofun
    have hnext : skip (n + 1) s = (advance (skip n s)).2 := skip_add n 1 s
    have hfree : ¬ (advance (skip n s)).2.position - start = 0 := by omega
    rw [if_neg fun hstuck => hfree hstuck.1]
    refine ⟨n + 1, hnext.symm, hkeeps.trans hone, .semicolon hstop hsemicolon', .inl ?_⟩
    rw [hnext]
    omega
  rw [if_neg hsemicolon]
  by_cases hstuck : (skip n s).position - start = 0 ∧ (skip n s).peek.kind ≠ .eof ∧
      (skip n s).peek.kind ≠ .rightBrace
  · rw [if_pos hstuck]
    obtain ⟨hnone, heof, hbrace⟩ := hstuck
    obtain rfl : n = 0 := by omega
    have hend : s.atEnd = false := atEnd_of_kind heof
    have hone : KeepsDepth base s.toCursor 1 := .one h hend fun heq => absurd heq hbrace
    have hitem : ItemEnd base start recovery s.toCursor 1 := by
      cases hstop with
      | atEnd hstop => exact absurd (hend.symm.trans hstop) Bool.false_ne_true
      | enclosed hstop hdepth => exact absurd hstop hbrace
      | before hstop hdepth => exact .forced (by omega) hdepth hstop hbrace
    have hmoved : (skip 1 s).position = s.position + 1 := Cursor.position_next hend
    exact ⟨1, rfl, hone, hitem, .inl (by omega)⟩
  · rw [if_neg hstuck]
    refine ⟨n, rfl, hkeeps, .stopped hstop, ?_⟩
    rw [← Cursor.kind_peek_eq_eof]
    by_cases hlt : start < (skip n s).position
    · exact .inl hlt
    · grind

/-- A failed item is reported once and passed over: the brace that closes the enclosing block stays ahead, the braces
of the item are closed again, and something is passed unless the input or the enclosing block ends. -/
theorem item_recovery (recovery : List Kind) {rule : Rule α} {fault : Fault} {t : Parser}
    (h : rule s = (.error fault, t))
    (hposition : s.position ≤ t.position) (hdepth : s.braceDepth ≤ t.braceDepth)
    (hopen : s.position < t.position ∨ .leftBrace ∉ recovery) :
    ∃ u n, withRecovery recovery rule s = (none, u) ∧
      u.diagnostics = (report fault t).2.diagnostics ∧ u.capped = (report fault t).2.capped ∧
      u.toCursor = t.after n ∧
      KeepsDepth s.braceDepth t.toCursor n ∧
      ItemEnd s.braceDepth s.position recovery t.toCursor n ∧
      (u.atEnd = true ∨ u.braceDepth = s.braceDepth) ∧
      (s.position < u.position ∨ u.atEnd = true ∨ u.peek.kind = .rightBrace) := by
  have hcursor : (report fault t).2.toCursor = t.toCursor := toCursor_record _ t
  have hposition' : s.position ≤ (report fault t).2.position := by rwa [hcursor]
  have hdepth' : s.braceDepth ≤ (report fault t).2.braceDepth := by rwa [hcursor]
  obtain ⟨n, hpassed, hkeeps, hitem, hmoved⟩ := passItem_ends s.position recovery hdepth' hposition'
  rw [hcursor] at hkeeps hitem
  have hend := hitem.depth hopen
  obtain ⟨events, hnoted⟩ := recordSkipped_snd (report fault t).2.position "error recovery" (skip n (report fault t).2)
  rw [withRecovery_of_error h, recoverItem_apply, hpassed, hnoted]
  rw [← hcursor, ← toCursor_skip] at hend
  refine ⟨_, n, rfl, diagnostics_skip n _, capped_skip n _, ?_, hkeeps, hitem, hend, hmoved⟩
  rw [← hcursor]
  exact toCursor_skip n _

def bracedItem : Parser := .ofTokens
  #[⟨.leftBrace, "\x7b", .origin⟩, ⟨.integer, "1", .origin⟩, ⟨.semicolon, ";", .origin⟩, ⟨.semicolon, ";", .origin⟩,
    ⟨.identifier, "x", .origin⟩, ⟨.leftBrace, "\x7b", .origin⟩, ⟨.identifier, "x", .origin⟩,
    ⟨.rightBrace, "\x7d", .origin⟩, ⟨.rightBrace, "\x7d", .origin⟩, ⟨.leftBrace, "\x7b", .origin⟩] {}

def emptyItem : Rule Token := do
  let _ ← expect .leftBrace
  expect .semicolon

theorem item_recovery_ownBraces : ∃ u n, withRecovery [.leftBrace] emptyItem bracedItem = (none, u) ∧
    ItemEnd 0 0 [.leftBrace] (emptyItem bracedItem).2.toCursor n ∧ (u.atEnd = true ∨ u.braceDepth = 0) := by
  have hfails : emptyItem bracedItem =
      (.error (.expected (Kind.describe .semicolon) (bracedItem.peekAhead 1)), (advance bracedItem).2) := rfl
  have hitem := item_recovery [.leftBrace] hfails (by decide) (by decide) (.inl (by decide))
  obtain ⟨u, n, hrun, -, -, -, -, hend, hdepth, -⟩ := hitem
  exact ⟨u, n, hrun, hend, hdepth⟩

end Rule

end CalExport
