import CalExport.Token.Lexer

namespace CalExport

open Text

inductive Comment (depth : Nat) : List Char → List Char → Prop where
  | line {body rest : List Char} (hbody : '\n' ∉ body) (hrest : ∀ c ∈ rest.head?, c = '\n') :
      Comment depth ('/' :: '/' :: body) rest
  | block {body rest : List Char} (hbody : ¬ ['*', ')'] <:+: body ++ ['*']) :
      Comment depth ('(' :: '*' :: (body ++ ['*', ')'])) rest
  | openBlock {body : List Char} (hbody : ¬ ['*', ')'] <:+: body) : Comment depth ('(' :: '*' :: body) []
  | brace {body rest : List Char} (hdepth : 0 < depth) (hbody : '\x7d' ∉ body) :
      Comment depth ('\x7b' :: (body ++ ['\x7d'])) rest
  | openBrace {body : List Char} (hdepth : 0 < depth) (hbody : '\x7d' ∉ body) : Comment depth ('\x7b' :: body) []

inductive Gap (depth : Nat) : List Char → List Char → Prop where
  | nil {rest : List Char} : Gap depth [] rest
  | blank {c : Char} {cs rest : List Char} (hc : isBlank c = true) (hcs : Gap depth cs rest) : Gap depth (c :: cs) rest
  | comment {cs ds rest : List Char} (hcs : Comment depth cs (ds ++ rest)) (hds : Gap depth ds rest) :
      Gap depth (cs ++ ds) rest

theorem Gap.append {depth : Nat} {cs ds rest : List Char} (hcs : Gap depth cs (ds ++ rest)) (hds : Gap depth ds rest) :
    Gap depth (cs ++ ds) rest := by
  generalize hmore : ds ++ rest = more at hcs
  induction hcs with
  | nil => exact hds
  | blank hc _ ih => exact .blank hc (ih hmore)
  | comment hcomment _ ih =>
      subst hmore
      rw [List.append_assoc]
      rw [← List.append_assoc] at hcomment
      exact .comment hcomment (ih rfl)

namespace Lexeme

/-- Up to the first `*)`, or the whole text when there is none. -/
theorem blockComment_spec (count : Nat) (cs : List Char) :
    (∃ body rest, cs = body ++ '*' :: ')' :: rest ∧ ¬ ['*', ')'] <:+: body ++ ['*'] ∧
      blockComment count cs = (count + body.length + 2, true)) ∨
    (¬ ['*', ')'] <:+: cs ∧ blockComment count cs = (count + cs.length, false)) := by
  fun_induction blockComment count cs with
  | case1 count rest => exact .inl ⟨[], rest, rfl, by decide, rfl⟩
  | case2 count c rest hopen ih =>
      rcases ih with ⟨body, behind, rfl, hbody, hlength⟩ | ⟨hnone, hlength⟩
      · refine .inl ⟨c :: body, behind, rfl, ?_, ?_⟩
        · rw [List.cons_append, List.infix_cons_iff, not_or]
          refine ⟨?_, hbody⟩
          -- a `*)` right here would have closed the comment
          cases body with
          | nil => simp
          | cons d body =>
              simp only [List.cons_append, List.cons_prefix_cons, not_and]
              rintro rfl rfl
              exact absurd rfl (hopen (body ++ '*' :: ')' :: behind) rfl)
        · rw [hlength, List.length_cons]
          congr 1
          omega
      · refine .inr ⟨?_, ?_⟩
        · rw [List.infix_cons_iff, not_or]
          refine ⟨?_, hnone⟩
          cases rest with
          | nil => simp
          | cons d rest =>
              simp only [List.cons_prefix_cons, not_and]
              rintro rfl rfl
              exact absurd rfl (hopen rest rfl)
        · rw [hlength, List.length_cons]
          congr 1
          omega
  | case3 count => exact .inr ⟨by decide, rfl⟩

/-- Up to the first closing brace, or the whole text when there is none. -/
theorem braceComment_spec (count : Nat) (cs : List Char) :
    (∃ body rest, cs = body ++ '\x7d' :: rest ∧ '\x7d' ∉ body ∧
      braceComment count cs = (count + body.length + 1, true)) ∨
    ('\x7d' ∉ cs ∧ braceComment count cs = (count + cs.length, false)) := by
  fun_induction braceComment count cs with
  | case1 count rest => exact .inl ⟨[], rest, rfl, by decide, rfl⟩
  | case2 count c rest hopen ih =>
      rcases ih with ⟨body, behind, rfl, hbody, hlength⟩ | ⟨hnone, hlength⟩
      · refine .inl ⟨c :: body, behind, rfl, ?_, ?_⟩
        · simp [hbody, Ne.symm hopen]
        · rw [hlength, List.length_cons]
          congr 1
          omega
      · refine .inr ⟨?_, ?_⟩
        · simp [hnone, Ne.symm hopen]
        · rw [hlength, List.length_cons]
          congr 1
          omega
  | case3 count => exact .inr ⟨by decide, rfl⟩

theorem suffix_ne_eof (cs : List Char) : (suffix cs).1 ≠ .eof := by
  fun_cases suffix cs <;> nofun

theorem number_ne_eof (rest : List Char) : (number rest).1 ≠ .eof := by
  fun_cases number rest with
  | case1 | case2 => nofun
  | case3 _ _ kind length hsuffix =>
      have hkind := suffix_ne_eof (rest.drop (digits rest))
      rwa [hsuffix] at hkind

theorem symbol_ne_eof (c : Char) (next : Option Char) : (symbol c next).1 ≠ .eof := by
  fun_cases symbol c next <;> nofun

end Lexeme

theorem comment_line (depth : Nat) {rest : List Char} (h : rest.head? = some '/') :
    Comment depth ('/' :: rest.take (rest.takeWhile (· != '\n')).length)
      (rest.drop (rest.takeWhile (· != '\n')).length) := by
  obtain ⟨more, rfl⟩ := List.head?_eq_some_iff.mp h
  have hbody := List.all_takeWhile (p := (· != '\n')) (l := more)
  have hrest := List.head?_dropWhile_not (· != '\n') more
  have hsplit := List.takeWhile_append_dropWhile (p := (· != '\n')) (l := more)
  rw [List.takeWhile_cons_of_pos (by decide), List.length_cons, List.take_succ_cons, List.drop_succ_cons]
  generalize more.takeWhile (· != '\n') = body at *
  generalize more.dropWhile (· != '\n') = behind at *
  subst hsplit
  rw [List.take_left, List.drop_left]
  refine .line ?_ ?_
  · intro hmem
    simpa using List.all_eq_true.mp hbody _ hmem
  · intro c hc
    rw [Option.mem_def.mp hc] at hrest
    simpa using hrest

theorem comment_block (depth : Nat) {rest : List Char} (h : rest.head? = some '*') :
    Comment depth ('(' :: rest.take ((Lexeme.blockComment 0 rest.tail).1 + 1))
      (rest.drop ((Lexeme.blockComment 0 rest.tail).1 + 1)) := by
  obtain ⟨more, rfl⟩ := List.head?_eq_some_iff.mp h
  rw [List.tail_cons, List.take_succ_cons, List.drop_succ_cons]
  rcases Lexeme.blockComment_spec 0 more with ⟨body, behind, rfl, hbody, hlength⟩ | ⟨hnone, hlength⟩
  · have hsplit : body ++ '*' :: ')' :: behind = (body ++ ['*', ')']) ++ behind := by simp
    rw [hlength, hsplit, List.take_left' (by simp), List.drop_left' (by simp)]
    exact .block hbody
  · rw [hlength, Nat.zero_add, List.take_length, List.drop_length]
    exact .openBlock hnone

theorem comment_brace {depth : Nat} (rest : List Char) (hdepth : 0 < depth) :
    Comment depth ('\x7b' :: rest.take (Lexeme.braceComment 0 rest).1) (rest.drop (Lexeme.braceComment 0 rest).1) := by
  rcases Lexeme.braceComment_spec 0 rest with ⟨body, behind, rfl, hbody, hlength⟩ | ⟨hnone, hlength⟩
  · have hsplit : body ++ '\x7d' :: behind = (body ++ ['\x7d']) ++ behind := by simp
    rw [hlength, hsplit, List.take_left' (by simp), List.drop_left' (by simp)]
    exact .brace hdepth hbody
  · rw [hlength, Nat.zero_add, List.take_length, List.drop_length]
    exact .openBrace hdepth hnone

def Piece.Content.kind? : Piece.Content → Option Kind
  | .blank | .comment .. => none
  | .token kind => some kind
  | .string _ => some .string

namespace Mode

variable {m : Mode} {c : Char} {rest : List Char}

theorem gap_of_pieceAt (h : (m.pieceAt c rest).content.kind? = none) :
    Gap m.codeDepth (c :: rest.take (m.pieceAt c rest).more) (rest.drop (m.pieceAt c rest).more) := by
  have single : ∀ {cs more : List Char}, Comment m.codeDepth cs more → Gap m.codeDepth cs more := by
    intro cs more hcs
    have hgap : Gap m.codeDepth (cs ++ []) more := .comment hcs .nil
    rwa [List.append_nil] at hgap
  revert h
  fun_cases Mode.pieceAt m c rest with
  | case1 hblank =>
      intro _
      exact .blank hblank .nil
  | case2 _ hslash =>
      obtain ⟨rfl, hrest⟩ := hslash
      intro _
      exact single (comment_line _ hrest)
  | case3 _ _ hparen length closed hlength =>
      obtain ⟨rfl, hrest⟩ := hparen
      intro _
      have hcomment := comment_block m.codeDepth hrest
      rw [hlength] at hcomment
      exact single hcomment
  | case4 _ _ _ hbrace length closed hlength =>
      obtain ⟨rfl, hdepth⟩ := hbrace
      intro _
      have hcomment := comment_brace rest hdepth
      rw [hlength] at hcomment
      exact single hcomment
  | case5 | case6 | case7 | case8 | case9 | case10 => nofun

theorem kind_of_pieceAt {kind : Kind} (h : (m.pieceAt c rest).content.kind? = some kind) : kind ≠ .eof := by
  revert h
  fun_cases Mode.pieceAt m c rest with
  | case1 | case2 | case3 | case4 => nofun
  | case5 | case6 | case7 =>
      rintro ⟨⟩
      nofun
  | case8 _ _ _ _ _ _ _ _ κ length hnumber =>
      rintro ⟨⟩
      have hkind := Lexeme.number_ne_eof rest
      rwa [hnumber] at hkind
  | case9 _ _ _ _ _ _ _ _ _ length word =>
      rintro ⟨⟩
      cases Keyword.ofWord? word <;> nofun
  | case10 _ _ _ _ _ _ _ _ _ κ length hsymbol =>
      rintro ⟨⟩
      have hkind := Lexeme.symbol_ne_eof c rest.head?
      rwa [hsymbol] at hkind

end Mode

end CalExport
