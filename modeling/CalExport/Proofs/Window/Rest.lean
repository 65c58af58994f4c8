import CalExport.Proofs.Ahead
import CalExport.Proofs.Window.Basic

namespace CalExport.Rule

variable {α : Type} {s s' t' r : Parser}

structure SameRest (s s' : Parser) : Prop where
  ahead : ahead s' = ahead s
  eof : s'.eof = s.eof
  braceDepth : s'.braceDepth = s.braceDepth
  nesting : s'.nesting = s.nesting
  diagnostics : s'.diagnostics = s.diagnostics
  capped : s'.capped = s.capped
  preferences : s'.preferences = s.preferences

theorem SameRest.refl (s : Parser) : SameRest s s := ⟨rfl, rfl, rfl, rfl, rfl, rfl, rfl⟩

def restOf (s : Parser) : Parser :=
  { s with
    tokens := (ahead s).toArray
    position := 0
    kind_ne_eof := fun _ hx => kind_of_mem_ahead (List.mem_toArray.1 hx)
    position_le := Nat.zero_le _
    skipped := #[] }

theorem SameRest.tokenAt_eq (h : SameRest s s') (i : Nat) : s'.tokenAt (i + s'.position) = (restOf s).tokenAt i := by
  have hget : s'.tokens[s'.position + i]? = (Rule.ahead s)[i]? := by
    rw [← h.ahead, Rule.ahead, List.getElem?_drop, Array.getElem?_toList]
  rw [Cursor.tokenAt, Nat.add_comm, hget, h.eof, Cursor.tokenAt]
  simp [restOf]

theorem SameRest.peekAhead_eq (h : SameRest s s') (n : Nat) : s'.peekAhead n = s.peekAhead n := by
  rw [Cursor.peekAhead, Cursor.peekAhead, Nat.add_comm, h.tokenAt_eq, Nat.add_comm, (SameRest.refl s).tokenAt_eq]

def Window.onward (h : SameRest s s') : Window where
  first := (restOf s).tokenAt
  second i := s'.tokenAt (i + s'.position)
  sees _ := True
  shift := s'.position
  deep := 0
  logs := True
  earlier := s'.skipped
  sees_of_le _ _ := trivial
  second_eq _ := h.tokenAt_eq _

namespace SameRest

theorem closes (h : SameRest s s') : (Window.onward h).simulation.closes := ⟨fun _ _ _ _ _ => trivial, .inl rfl⟩

theorem meets (h : SameRest s s') : Meets (Window.onward h) (restOf s) s' where
  first _ := rfl
  second _ := rfl
  passed _ hi := absurd hi (Nat.not_lt_zero _)
  position := (Nat.zero_add _).symm
  braceDepth := h.braceDepth
  tracked := .inl rfl
  nesting := h.nesting
  logged _ := ⟨h.diagnostics, h.capped, h.preferences, Array.append_empty.symm⟩

/-- A step does the same on the rest alone. -/
theorem meets_step (h : SameRest s s') {x : Parse α}
    (hx : ∀ {R : Simulation} {k : Nat}, R.closes → R.deep = 0 → Agree R (Below k) Never x x) :
    (x s').1 = (x (restOf s)).1 ∧ Meets (Window.onward h) (x (restOf s)).2 (x s').2 := by
  have hagree := hx (k := (restOf s).left + 1) h.closes rfl
  rcases hagree.alike ⟨h.meets, trivial⟩ (Nat.lt_succ_self _) with hlost | ⟨-, -, hresult, hmeets, -⟩
  · exact absurd trivial hlost
  · exact ⟨hresult.symm, hmeets⟩

theorem ahead_of_meets (h : SameRest s s') (hmeets : Meets (Window.onward h) r t') (hforward : Forward s' t') :
    Rule.ahead t' = (Rule.ahead s).drop r.position := by
  have hposition : t'.position = s'.position + r.position := hmeets.position.trans (Nat.add_comm _ _)
  rw [Rule.ahead, hforward.tokens, hposition, ← List.drop_drop, ← h.ahead, ← Rule.ahead]

/-- Behind a step the rest is the same again, and what was passed over on the way is added to both. -/
theorem step (h : SameRest s s') {x : Parse α}
    (hx : ∀ {R : Simulation} {k : Nat}, R.closes → R.deep = 0 → Agree R (Below k) Never x x) :
    (x s').1 = (x s).1 ∧ SameRest (x s).2 (x s').2 ∧ ∃ regions, (x s).2.skipped = s.skipped ++ regions ∧
      (x s').2.skipped = s'.skipped ++ regions := by
  have hsteady : Steady x := (hx (R := .same) (k := 0) trivial rfl).steady
  obtain ⟨hresult, hmeets⟩ := (SameRest.refl s).meets_step hx
  obtain ⟨hresult', hmeets'⟩ := h.meets_step hx
  have hlogged := hmeets.logged trivial
  have hlogged' := hmeets'.logged trivial
  refine ⟨hresult'.trans hresult.symm, ?_, _, hlogged.skipped, hlogged'.skipped⟩
  constructor
  · rw [h.ahead_of_meets hmeets' (hsteady s'), (SameRest.refl s).ahead_of_meets hmeets (hsteady s)]
  · rw [(hsteady s').eof, (hsteady s).eof, h.eof]
  · exact hmeets'.braceDepth.trans hmeets.braceDepth.symm
  · exact hmeets'.nesting.trans hmeets.nesting.symm
  · exact hlogged'.diagnostics.trans hlogged.diagnostics.symm
  · exact hlogged'.capped.trans hlogged.capped.symm
  · exact hlogged'.preferences.trans hlogged.preferences.symm

end SameRest

end CalExport.Rule
