import CalExport.Proofs.Lexing.Lossless

namespace CalExport

open Text

namespace Lexer

def step? (s : Lexer) : List Char → Option (Lexer × List Char)
  | [] => none
  | c :: rest =>
    if maxTokenCount ≤ s.tokens.size then none
    else
      let piece := s.mode.pieceAt c rest
      let behind := rest.drop piece.more
      match s.take piece (c :: rest.take piece.more) behind with
      | .ok next => some (next, behind)
      | .error _ => none

/-- The state behind the first pieces of a source, with what is still to be read. -/
def course (source : String) : Nat → Option (Lexer × List Char)
  | 0 => some (start source, source.toList)
  | n + 1 => (course source n).bind fun (s, cs) => s.step? cs

section

variable {s next lexed : Lexer} {c : Char} {cs rest behind : List Char}

theorem step?_cases (h : s.step? cs = some (next, behind)) :
    ∃ c rest, cs = c :: rest ∧ s.tokens.size < maxTokenCount ∧
      behind = rest.drop (s.mode.pieceAt c rest).more ∧
      s.take (s.mode.pieceAt c rest) (c :: rest.take (s.mode.pieceAt c rest).more) behind = .ok next := by
  unfold step? at h
  split at h
  · cases h
  · rename_i c rest
    dsimp only at h
    split at h
    · cases h
    · rename_i hcount
      split at h
      · rename_i htake
        cases h
        exact ⟨c, rest, rfl, Nat.lt_of_not_le hcount, rfl, htake⟩
      · cases h

theorem run_of_step? (h : s.step? cs = some (next, behind)) : s.run cs = next.run behind := by
  obtain ⟨c, rest, rfl, hcount, rfl, htake⟩ := step?_cases h
  rw [run, if_neg (Nat.not_le_of_lt hcount)]
  dsimp only
  rw [htake]

/-- Reading that succeeds takes the piece in front of it. -/
theorem step?_of_run (h : s.run (c :: rest) = (lexed, none)) :
    ∃ next, s.step? (c :: rest) = some (next, rest.drop (s.mode.pieceAt c rest).more) := by
  rw [run] at h
  split at h
  · cases h
  · rename_i hcount
    dsimp only at h
    split at h
    · rename_i next htake
      refine ⟨next, ?_⟩
      rw [step?, if_neg hcount]
      dsimp only
      rw [htake]
    · cases h

theorem course_succ {source : String} {n : Nat} (hs : course source n = some (s, cs)) :
    course source (n + 1) = s.step? cs := by
  rw [course, hs, Option.bind_some]

/-- From every state of the course the same is read in the end. -/
theorem run_of_course {source : String} {n : Nat} (h : course source n = some (s, cs)) : read source = s.run cs := by
  induction n generalizing s cs with
  | zero =>
      cases h
      rfl
  | succ n ih =>
      rw [course] at h
      obtain ⟨⟨before, text⟩, hbefore, hstep⟩ := Option.bind_eq_some_iff.mp h
      rw [ih hbefore, run_of_step? hstep]

/-- What the mode remembers is the kind of the last token. -/
theorem previous_of_course {source : String} {n : Nat} (h : course source n = some (s, cs)) :
    s.mode.previous = s.tokens.back?.map Token.kind := by
  induction n generalizing s cs with
  | zero =>
      cases h
      rfl
  | succ n ih =>
      rw [course] at h
      obtain ⟨⟨before, text⟩, hbefore, hstep⟩ := Option.bind_eq_some_iff.mp h
      obtain ⟨c, rest, rfl, _, _, htake⟩ := step?_cases hstep
      cases hkind : (before.mode.pieceAt c rest).content.kind? with
      | none =>
          obtain ⟨htokens, _, hmode⟩ := take_of_gap hkind htake
          rw [hmode, htokens]
          exact ih hbefore
      | some kind =>
          obtain ⟨htokens, _, hmode⟩ := take_of_token hkind htake
          rw [hmode, htokens, Array.back?_push]
          rfl

/-- `t` stands where `s` comes by passing `gap`: no token is added, and of the mode only the state of the line
changes. -/
structure Skips (s t : Lexer) (gap : List Char) : Prop where
  tokens : t.tokens = s.tokens
  position : t.position = s.position.after gap
  mode : t.mode = { s.mode with lineIsBlank := t.mode.lineIsBlank }

theorem skips_of_take {piece : Piece} (hkind : piece.content.kind? = none) (h : s.take piece cs rest = .ok next) :
    Skips s next cs := by
  obtain ⟨htokens, hposition, hmode⟩ := take_of_gap hkind h
  exact ⟨htokens, hposition, hmode⟩

theorem Skips.trans {t u : Lexer} {gap gap' : List Char} (hst : Skips s t gap) (htu : Skips t u gap') :
    Skips s u (gap ++ gap') := by
  refine ⟨htu.tokens.trans hst.tokens, ?_, ?_⟩
  · rw [htu.position, hst.position, ← Position.after_append]
  · rw [htu.mode, hst.mode]

theorem Skips.line_le {t : Lexer} {gap : List Char} (h : Skips s t gap) : s.position.line ≤ t.position.line := by
  rw [h.position, Position.line_after]
  exact Nat.le_add_right _ _

theorem skips_gap (hkind : (s.mode.pieceAt c rest).content.kind? = none) (h : s.run (c :: rest) = (lexed, none)) :
    ∃ t, Skips s t (c :: rest.take (s.mode.pieceAt c rest).more) ∧
      t.run (rest.drop (s.mode.pieceAt c rest).more) = (lexed, none) := by
  obtain ⟨next, hstep⟩ := step?_of_run h
  rw [run_of_step? hstep] at h
  obtain ⟨_, _, hcs, _, _, htake⟩ := step?_cases hstep
  cases hcs
  exact ⟨next, skips_of_take hkind htake, h⟩

theorem skips_blanks {blanks : List Char} (hblanks : ∀ c ∈ blanks, isBlank c = true)
    (h : s.run (blanks ++ rest) = (lexed, none)) : ∃ t, Skips s t blanks ∧ t.run rest = (lexed, none) := by
  induction blanks generalizing s with
  | nil => exact ⟨s, ⟨rfl, rfl, rfl⟩, h⟩
  | cons c blanks ih =>
      rw [List.cons_append] at h
      have hpiece : s.mode.pieceAt c (blanks ++ rest) = ⟨.blank, 0⟩ := by
        rw [Mode.pieceAt, if_pos (hblanks c List.mem_cons_self)]
      obtain ⟨t, hst, ht⟩ := skips_gap (by rw [hpiece, Piece.Content.kind?]) h
      rw [hpiece] at hst ht
      obtain ⟨u, htu, hu⟩ := ih (fun d hd => hblanks d (List.mem_cons_of_mem _ hd)) ht
      exact ⟨u, hst.trans htu, hu⟩

def ReadsNext (s lexed : Lexer) (t : Token) : Prop := ∃ back, lexed.tokens.toList = s.tokens.toList ++ t :: back

theorem Skips.readsNext {t : Lexer} {gap : List Char} {x : Token} (hst : Skips s t gap) (h : ReadsNext t lexed x) :
    ReadsNext s lexed x := by
  obtain ⟨back, hback⟩ := h
  exact ⟨back, by rw [hback, hst.tokens]⟩

theorem readsNext_end (h : s.run [] = (lexed, none)) : ReadsNext s lexed ⟨.eof, "", Span.point s.position⟩ := by
  rw [run] at h
  cases h
  exact ⟨[], s.tokens_finish⟩

theorem tokens_of_error {piece : Piece} {stopped : Lexer} {e : LexError}
    (h : s.take piece cs rest = .error (stopped, e)) : stopped.tokens = s.tokens := by
  obtain ⟨content, more⟩ := piece
  cases content with
  | blank | comment | token => cases h
  | string closed =>
      unfold take string at h
      dsimp only at h
      split at h
      · cases h
        rfl
      · cases closed <;> cases h

/-- What has been read stays, also when a limit is met later. -/
theorem tokens_prefix_run (s : Lexer) (cs : List Char) : s.tokens.toList <+: (s.run cs).1.tokens.toList := by
  fun_induction run s cs with
  | case1 s => exact ⟨_, s.tokens_finish.symm⟩
  | case2 s => exact List.prefix_rfl
  | case3 s c rest hcount piece behind next htake ih =>
      refine List.IsPrefix.trans ?_ ih
      cases hkind : piece.content.kind? with
      | none => exact ⟨[], by rw [(take_of_gap hkind htake).1, List.append_nil]⟩
      | some kind =>
          rw [(take_of_token hkind htake).1, Array.toList_push]
          exact List.prefix_append _ _
  | case4 s c rest hcount piece behind stopped e htake => exact ⟨[], by rw [tokens_of_error htake, List.append_nil]⟩

theorem tokens_run (h : s.run cs = (lexed, none)) : s.tokens.toList <+: lexed.tokens.toList := by
  have hprefix := tokens_prefix_run s cs
  rwa [h] at hprefix

theorem readsNext_of_take {piece : Piece} {kind : Kind} (hkind : piece.content.kind? = some kind)
    (htake : s.take piece cs rest = .ok next) (h : next.run rest = (lexed, none)) :
    ReadsNext s lexed ⟨kind, String.ofList cs, ⟨s.position, s.position.after cs⟩⟩ := by
  obtain ⟨back, hback⟩ := tokens_run h
  rw [(take_of_token hkind htake).1, Array.toList_push, List.append_assoc] at hback
  exact ⟨back, hback.symm⟩

theorem readsNext_token {kind : Kind} (hkind : (s.mode.pieceAt c rest).content.kind? = some kind)
    (h : s.run (c :: rest) = (lexed, none)) :
    ∃ t, ReadsNext s lexed t ∧ t.kind = kind ∧ t.span.start = s.position := by
  obtain ⟨next, hstep⟩ := step?_of_run h
  rw [run_of_step? hstep] at h
  obtain ⟨_, _, hcs, _, _, htake⟩ := step?_cases hstep
  cases hcs
  exact ⟨_, readsNext_of_take hkind htake h, rfl, rfl⟩

/-- Something is always read next, and not on an earlier line. -/
theorem exists_readsNext (h : s.run cs = (lexed, none)) :
    ∃ t, ReadsNext s lexed t ∧ s.position.line ≤ t.span.start.line := by
  fun_induction run s cs with
  | case1 s =>
      cases h
      exact ⟨_, ⟨[], s.tokens_finish⟩, Nat.le_refl _⟩
  | case2 => cases h
  | case3 s c rest hcount piece behind next =>
      rename_i htake ih
      cases hkind : piece.content.kind? with
      | none =>
          have hskips := skips_of_take hkind htake
          obtain ⟨t, ht, hline⟩ := ih h
          exact ⟨t, hskips.readsNext ht, Nat.le_trans hskips.line_le hline⟩
      | some kind => exact ⟨_, readsNext_of_take hkind htake h, Nat.le_refl _⟩
  | case4 => cases h

end

end Lexer

end CalExport
