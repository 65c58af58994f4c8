import CalExport.Text.Span

namespace CalExport.Text

def byteCount : List Char → Nat
  | [] => 0
  | c :: cs => c.utf8Size + byteCount cs

@[simp] theorem byteCount_nil : byteCount [] = 0 := rfl

@[simp] theorem byteCount_cons (c : Char) (cs : List Char) : byteCount (c :: cs) = c.utf8Size + byteCount cs := rfl

@[simp] theorem byteCount_append (cs ds : List Char) : byteCount (cs ++ ds) = byteCount cs + byteCount ds := by
  induction cs with
  | nil => simp
  | cons c cs ih => simp [ih, Nat.add_assoc]

theorem byteCount_pos {cs : List Char} (h : cs ≠ []) : 0 < byteCount cs := by
  cases cs with
  | nil => exact absurd rfl h
  | cons c cs =>
      have hc := c.utf8Size_pos
      simp only [byteCount_cons]
      omega

/-- What stands behind a place, nothing when the place does not fit the text. -/
def behind (p : Position) (cs : List Char) : List Char := (dropBytes p.offset cs).getD []

namespace Position

theorem offset_advance (p : Position) (c : Char) : (p.advance c).offset = p.offset + c.utf8Size := by
  by_cases hc : c = '\n'
  · subst hc
    rfl
  · simp [advance, hc]

theorem offset_after (p : Position) (cs : List Char) : (p.after cs).offset = p.offset + byteCount cs := by
  induction cs generalizing p with
  | nil => simp
  | cons c cs ih => simp [ih, offset_advance, Nat.add_assoc]

/-- Only line feeds open a line. -/
theorem line_after (p : Position) (cs : List Char) : (p.after cs).line = p.line + cs.count '\n' := by
  induction cs generalizing p with
  | nil => simp
  | cons c cs ih =>
      rw [after_cons, ih]
      by_cases hc : c = '\n'
      · simp only [advance, hc, if_true, List.count_cons_self]
        omega
      · simp only [advance, hc, if_false, List.count_cons_of_ne hc]

theorem line_after_le (p : Position) (cs : List Char) : (p.after cs).line ≤ p.line + cs.length := by
  induction cs generalizing p with
  | nil => simp
  | cons c cs ih =>
      have hstep : (p.advance c).line ≤ p.line + 1 := by by_cases hc : c = '\n' <;> simp [advance, hc]
      have hrest := ih (p.advance c)
      simp only [after_cons, List.length_cons]
      omega

theorem column_after_le (p : Position) (cs : List Char) (hp : 1 ≤ p.column) :
    (p.after cs).column ≤ p.column + cs.length := by
  induction cs generalizing p with
  | nil => simp
  | cons c cs ih =>
      have hstep : 1 ≤ (p.advance c).column ∧ (p.advance c).column ≤ p.column + 1 := by
        by_cases hc : c = '\n' <;> simp [advance, hc]
      have hrest := ih (p.advance c) hstep.1
      simp only [after_cons, List.length_cons]
      omega

end Position

theorem dropBytes_cons (c : Char) (n : Nat) (cs : List Char) :
    dropBytes (c.utf8Size + n) (c :: cs) = dropBytes n cs := by
  have hpos := c.utf8Size_pos
  rw [show c.utf8Size + n = c.utf8Size - 1 + n + 1 by omega, dropBytes, if_pos (by omega)]
  congr 1
  omega

theorem charsInBytes_cons (count : Nat) (c : Char) (n : Nat) (cs : List Char) :
    charsInBytes count (c.utf8Size + n) (c :: cs) = charsInBytes (count + 1) n cs := by
  have hpos := c.utf8Size_pos
  rw [show c.utf8Size + n = c.utf8Size - 1 + n + 1 by omega, charsInBytes, if_pos (by omega)]
  congr 1
  omega

theorem dropBytes_append (cs rest : List Char) : dropBytes (byteCount cs) (cs ++ rest) = some rest := by
  induction cs with
  | nil => simp [dropBytes]
  | cons c cs ih => rw [byteCount_cons, List.cons_append, dropBytes_cons, ih]

theorem charsInBytes_append (count : Nat) (cs rest : List Char) :
    charsInBytes count (byteCount cs) (cs ++ rest) = some (count + cs.length) := by
  induction cs generalizing count with
  | nil => simp [charsInBytes]
  | cons c cs ih => simp [charsInBytes_cons, ih, Nat.add_assoc, Nat.add_comm 1]

theorem offset_start_after (cs : List Char) : (Position.start.after cs).offset = byteCount cs := by
  simp [Position.offset_after, Position.start]

theorem behind_after (cs rest : List Char) : behind (Position.start.after cs) (cs ++ rest) = rest := by
  rw [behind, offset_start_after, dropBytes_append, Option.getD_some]

theorem cut_after (before cs rest : List Char) :
    Span.cut ⟨Position.start.after before, Position.start.after (before ++ cs)⟩ (before ++ cs ++ rest) = cs := by
  simp [Span.cut, offset_start_after, dropBytes_append, charsInBytes_append]

end CalExport.Text
