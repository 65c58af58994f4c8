import CalExport.Proofs.Termination

namespace CalExport.Rule

variable {s : Parser}

def ahead (s : Parser) : List Token := s.tokens.toList.drop s.position

theorem ahead_of_cursor {t : Parser} (h : t.toCursor = s.toCursor) : ahead t = ahead s := by
  rw [ahead, h, ← ahead]

theorem length_ahead (s : Parser) : (ahead s).length = s.left := by
  rw [ahead, List.length_drop, Array.length_toList, ← Cursor.left]

theorem kind_of_mem_ahead {x : Token} (h : x ∈ ahead s) : x.kind ≠ .eof :=
  s.kind_ne_eof x (Array.mem_toList_iff.1 (List.mem_of_mem_drop h))

theorem tokenAt_of_ahead {l more : List Token} (h : ahead s = l ++ more) {i : Nat} (hi : i < l.length) :
    s.tokenAt (i + s.position) = l[i] := by
  have hget : (ahead s)[i]? = some l[i] := by
    rw [h, List.getElem?_append_left hi, List.getElem?_eq_getElem hi]
  rw [ahead, List.getElem?_drop, Array.getElem?_toList] at hget
  rw [Cursor.tokenAt, Nat.add_comm, hget, Option.getD_some]

theorem peek_of_ahead {x : Token} {l : List Token} (h : ahead s = x :: l) : s.peek = x := by
  have hget := tokenAt_of_ahead (l := [x]) h (i := 0) Nat.one_pos
  rwa [Nat.zero_add] at hget

theorem ahead_eq_nil_iff : ahead s = [] ↔ s.atEnd = true := by
  rw [Cursor.atEnd_iff_left, ← length_ahead, List.length_eq_zero_iff]

theorem atEnd_of_ahead {x : Token} {l : List Token} (h : ahead s = x :: l) : s.atEnd = false := by
  rw [← Bool.not_eq_true, ← ahead_eq_nil_iff, h]
  nofun

theorem position_advance {x : Token} {l : List Token} (h : ahead s = x :: l) :
    (advance s).2.position = s.position + 1 := Cursor.position_next (atEnd_of_ahead h)

theorem ahead_advance {x : Token} {l : List Token} (h : ahead s = x :: l) : ahead (advance s).2 = l := by
  rw [ahead, (forward_advance s).tokens, position_advance h, ← List.drop_drop, ← ahead, h, List.drop_succ_cons, List.drop_zero]

theorem ahead_of_forward {t : Parser} {l more : List Token} (h : ahead s = l ++ more) (hforward : Forward s t)
    (hposition : t.position = s.position + l.length) : ahead t = more := by
  rw [ahead, hforward.tokens, hposition, ← List.drop_drop, ← ahead, h, List.drop_left]

theorem depthAfter_of_ne {κ : Kind} (hopen : κ ≠ .leftBrace) (hclose : κ ≠ .rightBrace) (depth : Nat) :
    Cursor.depthAfter depth κ = depth := by
  unfold Cursor.depthAfter
  split
  · exact absurd rfl hopen
  · exact absurd rfl hclose
  · rfl

theorem braceDepth_advance {x : Token} {l : List Token} (h : ahead s = x :: l) :
    (advance s).2.braceDepth = Cursor.depthAfter s.braceDepth s.peek.kind := Cursor.braceDepth_next (atEnd_of_ahead h)

def skip : Nat → Parser → Parser
  | 0, s => s
  | n + 1, s => skip n (advance s).2

theorem skip_add (m n : Nat) (s : Parser) : skip (m + n) s = skip n (skip m s) := by
  induction m generalizing s with
  | zero => simp [skip]
  | succ m ih => simp [skip, Nat.succ_add, ih]

theorem skip_withNesting (n k : Nat) (s : Parser) : skip n (s.withNesting k) = (skip n s).withNesting k := by
  induction n generalizing s with
  | zero => rfl
  | succ n ih => exact ih (advance s).2

@[simp] theorem nesting_skip (n : Nat) (s : Parser) : (skip n s).nesting = s.nesting := by
  induction n generalizing s with
  | zero => rfl
  | succ n ih => exact ih (advance s).2

/-- A level that is entered in front of some tokens and left behind them. -/
theorem skip_nested (m : Nat) (s : Parser) : (skip m (s.withNesting (s.nesting + 1))).withNesting
    ((skip m (s.withNesting (s.nesting + 1))).nesting - 1) = skip m s := by
  rw [nesting_skip, Parser.nesting_withNesting, Nat.add_sub_cancel, skip_withNesting]
  show (skip m s).withNesting s.nesting = skip m s
  rw [← nesting_skip m s]
  rfl

@[simp] theorem diagnostics_skip (n : Nat) (s : Parser) : (skip n s).diagnostics = s.diagnostics := by
  induction n generalizing s with
  | zero => rfl
  | succ n ih => exact ih (advance s).2

@[simp] theorem capped_skip (n : Nat) (s : Parser) : (skip n s).capped = s.capped := by
  induction n generalizing s with
  | zero => rfl
  | succ n ih => exact ih (advance s).2

@[simp] theorem preferences_skip (n : Nat) (s : Parser) : (skip n s).preferences = s.preferences := by
  induction n generalizing s with
  | zero => rfl
  | succ n ih => exact ih (advance s).2

@[simp] theorem skipped_skip (n : Nat) (s : Parser) : (skip n s).skipped = s.skipped := by
  induction n generalizing s with
  | zero => rfl
  | succ n ih => exact ih (advance s).2

theorem ahead_skip {l more : List Token} (h : ahead s = l ++ more) : ahead (skip l.length s) = more := by
  induction l generalizing s with
  | nil => exact h
  | cons x l ih => exact ih (ahead_advance h)

@[simp] theorem tokens_skip (n : Nat) (s : Parser) : (skip n s).tokens = s.tokens := by
  induction n generalizing s with
  | zero => rfl
  | succ n ih => exact (ih (advance s).2).trans (forward_advance s).tokens

@[simp] theorem eof_skip (n : Nat) (s : Parser) : (skip n s).eof = s.eof := by
  induction n generalizing s with
  | zero => rfl
  | succ n ih => exact (ih (advance s).2).trans (forward_advance s).eof

theorem position_skip {l more : List Token} (h : ahead s = l ++ more) :
    (skip l.length s).position = s.position + l.length := by
  induction l generalizing s with
  | nil => rfl
  | cons x l ih =>
      rw [List.length_cons, skip, ih (ahead_advance h), position_advance h, Nat.add_assoc, Nat.add_comm 1]

/-- The kind of the first of some tokens; behind the last one stands the end of the input. -/
def nextKind : List Token → Kind
  | [] => .eof
  | t :: _ => t.kind

theorem kind_peek (s : Parser) : s.peek.kind = nextKind (ahead s) := by
  cases h : ahead s with
  | nil =>
      rw [ahead_eq_nil_iff, ← Cursor.kind_peek_eq_eof] at h
      exact h
  | cons x l => rw [peek_of_ahead h, nextKind]

theorem kind_peekAhead_one {x : Token} {l : List Token} (h : ahead s = x :: l) : (s.peekAhead 1).kind = nextKind l := by
  have hkind : s.peek.kind ≠ .eof := by
    rw [kind_peek, h]
    exact kind_of_mem_ahead (h ▸ List.mem_cons_self)
  have hnext := peekAhead_advance hkind 0
  rw [← hnext, ← ahead_advance h, ← kind_peek]
  rfl

end CalExport.Rule
