import CalExport.Proofs.Lexing.Course
import CalExport.Proofs.Lexing.Line
import CalExport.Proofs.Ahead
import CalExport.Object.Rule

namespace CalExport

open Text

def StartsBody (line : Nat) (t : Token) : Prop :=
  t.kind = .eof ∨ t.kind = .keyword .end_ ∨ line < t.span.start.line

namespace Lexer

variable {s lexed : Lexer} {cs more : List Char} {c : Char}

/-- Behind a line feed the next token stands on another line. -/
theorem startsBody_of_line (blanks : List Char) (hblanks : ∀ c ∈ blanks, isBlank c = true)
    (hline : '\n' ∈ blanks ∨ more = []) (h : s.run (blanks ++ more) = (lexed, none)) :
    ∃ t, ReadsNext s lexed t ∧ StartsBody s.position.line t := by
  obtain ⟨next, hskips, hrun⟩ := skips_blanks hblanks h
  rcases hline with hline | rfl
  · obtain ⟨t, ht, hle⟩ := exists_readsNext hrun
    refine ⟨t, hskips.readsNext ht, .inr (.inr (Nat.lt_of_lt_of_le ?_ hle))⟩
    rw [hskips.position, Position.line_after]
    exact Nat.lt_add_of_pos_right (List.count_pos_iff.mpr hline)
  · exact ⟨_, hskips.readsNext (readsNext_end hrun), .inl rfl⟩

theorem Skips.startsBody {next : Lexer} {gap : List Char} (hskips : Skips s next gap)
    (h : ∃ t, ReadsNext next lexed t ∧ StartsBody next.position.line t) :
    ∃ t, ReadsNext s lexed t ∧ StartsBody s.position.line t := by
  obtain ⟨t, ht, hbody⟩ := h
  exact ⟨t, hskips.readsNext ht, hbody.imp_right (Or.imp_right (Nat.lt_of_le_of_lt hskips.line_le))⟩

/-- A line comment leaves the next token to another line. -/
theorem startsBody_of_lineComment (hcomment : startsLineComment cs = true) (h : s.run cs = (lexed, none)) :
    ∃ t, ReadsNext s lexed t ∧ StartsBody s.position.line t := by
  obtain ⟨more, rfl⟩ := startsLineComment_iff.mp hcomment
  have hpiece : s.mode.pieceAt '/' ('/' :: more) =
      ⟨.comment false true, (('/' :: more).takeWhile (· != '\n')).length⟩ := by
    rw [Mode.pieceAt, if_neg (by decide), if_pos ⟨rfl, rfl⟩]
  obtain ⟨next, hskips, hrun⟩ := skips_gap (by rw [hpiece, Piece.Content.kind?]) h
  rw [hpiece] at hskips hrun
  refine hskips.startsBody ?_
  have hsplit := List.takeWhile_append_dropWhile (p := (· != '\n')) (l := '/' :: more)
  have hline := List.head?_dropWhile_not (· != '\n') ('/' :: more)
  dsimp only at hrun
  generalize ('/' :: more).takeWhile (· != '\n') = body at *
  generalize ('/' :: more).dropWhile (· != '\n') = behind at *
  rw [← hsplit, List.drop_left] at hrun
  cases behind with
  | nil => exact startsBody_of_line [] (List.forall_mem_nil _) (.inr rfl) hrun
  | cons d behind =>
      obtain rfl : d = '\n' := by simpa using hline
      exact startsBody_of_line ['\n'] (List.forall_mem_singleton.mpr rfl) (.inl List.mem_cons_self) hrun

/-- What is neither white space nor a comment is the next token, on the same line. -/
theorem startsBody_of_text (hc : isBlank c = false) (hline : startsLineComment (c :: more) = false)
    (hblock : startsBlockComment (c :: more) = false)
    (hcode : startsEnd (c :: more) = true → s.mode.inSkeleton = false)
    (hskeleton : startsEnd (c :: more) = false → s.mode.codeDepth = 0) (h : s.run (c :: more) = (lexed, none)) :
    ∃ t, ReadsNext s lexed t ∧ (startsEnd (c :: more) = true ↔ StartsBody s.position.line t) := by
  cases hend : startsEnd (c :: more) with
  | true =>
      obtain ⟨t, ht, hkind, _⟩ := readsNext_token (Mode.pieceAt_of_startsEnd hend (hcode hend)) h
      exact ⟨t, ht, fun _ => .inr (.inl hkind), fun _ => rfl⟩
  | false =>
      obtain ⟨kind, hpiece⟩ := Mode.exists_kind_of_pieceAt hc hline hblock (hskeleton hend)
      obtain ⟨t, ht, hkind, hstart⟩ := readsNext_token hpiece h
      refine ⟨t, ht, nofun, ?_⟩
      rintro (heof | hends | hlater)
      · exact absurd (hkind.symm.trans heof) (Mode.kind_of_pieceAt hpiece)
      · rw [← hkind, hends] at hpiece
        rw [← hend, Mode.startsEnd_of_pieceAt hpiece]
      · rw [hstart] at hlater
        exact absurd hlater (Nat.lt_irrefl _)

/-- The first thing on the rest of the line is a line comment, a block comment or a token. -/
theorem opens_iff_of_text (hc : isBlank c = false)
    (hcode : (startsLineComment (c :: more) || startsEnd (c :: more)) = true → s.mode.inSkeleton = false)
    (hskeleton : (startsLineComment (c :: more) || startsEnd (c :: more)) = false → s.mode.codeDepth = 0)
    (h : s.run (c :: more) = (lexed, none)) :
    ∃ t, ReadsNext s lexed t ∧ ((startsLineComment (c :: more) || startsEnd (c :: more)) = true ↔
      StartsBody s.position.line t ∧ startsBlockComment (c :: more) = false) := by
  cases hline : startsLineComment (c :: more) with
  | true =>
      obtain ⟨t, ht, hbody⟩ := startsBody_of_lineComment hline h
      obtain ⟨body, hcs⟩ := startsLineComment_iff.mp hline
      cases hcs
      exact ⟨t, ht, fun _ => ⟨hbody, rfl⟩, fun _ => rfl⟩
  | false =>
      rw [hline] at hcode hskeleton
      cases hblock : startsBlockComment (c :: more) with
      | true =>
          obtain ⟨t, ht, _⟩ := exists_readsNext h
          have hend := not_startsEnd_of_blockComment hblock
          refine ⟨t, ht, ?_⟩
          simp [hend]
      | false =>
          obtain ⟨t, ht, hiff⟩ := startsBody_of_text hc hline hblock hcode hskeleton h
          exact ⟨t, ht, hiff.trans (and_iff_left rfl).symm⟩

/-- The lexer's answer behind a BEGIN, against the next token that it reads. -/
theorem opensTrigger_iff (hcode : Mode.opensTrigger cs = true → s.mode.inSkeleton = false)
    (hskeleton : Mode.opensTrigger cs = false → s.mode.codeDepth = 0) (h : s.run cs = (lexed, none)) :
    ∃ t, ReadsNext s lexed t ∧
      (Mode.opensTrigger cs = true ↔ StartsBody s.position.line t ∧ blockCommentFollows cs = false) := by
  rcases restOfLine_cases cs with ⟨blanks, more, rfl, hblanks, hline, hrest⟩ |
    ⟨blanks, c, more, rfl, hblanks, hline, hc, hrest⟩
  · obtain ⟨t, ht, hbody⟩ := startsBody_of_line blanks hblanks hline h
    have hblock : blockCommentFollows (blanks ++ more) = false := by
      rw [blockCommentFollows, hrest]
      rfl
    exact ⟨t, ht, fun _ => ⟨hbody, hblock⟩, fun _ => Mode.opensTrigger_of_blank hrest⟩
  · obtain ⟨next, hskips, hrun⟩ := skips_blanks hblanks h
    have hsame : next.position.line = s.position.line := by
      rw [hskips.position, Position.line_after, List.count_eq_zero_of_not_mem hline, Nat.add_zero]
    have hmode : next.mode.inSkeleton = s.mode.inSkeleton ∧ next.mode.codeDepth = s.mode.codeDepth := by
      rw [hskips.mode]
      exact ⟨rfl, rfl⟩
    rw [← hmode.1] at hcode
    rw [← hmode.2] at hskeleton
    rw [Mode.opensTrigger_of_text hc hrest] at hcode hskeleton ⊢
    rw [blockCommentFollows_of_text hrest, ← hsame]
    obtain ⟨t, ht, hiff⟩ := opens_iff_of_text hc hcode hskeleton hrun
    exact ⟨t, hskips.readsNext ht, hiff⟩

end Lexer

theorem Mode.codeDepth_pass_begin {m : Mode} {behind : List Char} (hequal : m.previous = some .equal)
    (hdepth : m.codeDepth = 0) (hsection : m.codeSection = none) (hbody : m.awaitsBody = false) :
    (m.pass (.keyword .begin_) behind).codeDepth = if opensTrigger behind then 1 else 0 := by
  have hopens : m.beginOpensCode behind = opensTrigger behind := by
    simp [beginOpensCode, hequal, hdepth, hsection, hbody]
  rw [pass, track, hopens]
  cases opensTrigger behind <;> simp [hdepth]

/-- A step that adds a token stands behind it, in the mode that the token leaves. -/
theorem Lexer.step?_token {s next : Lexer} {cs behind : List Char} {t : Token}
    (h : s.step? cs = some (next, behind)) (ht : next.tokens = s.tokens.push t) :
    t.span.stop = next.position ∧ next.mode = { s.mode.pass t.kind behind with lineIsBlank := next.mode.lineIsBlank } := by
  obtain ⟨c, rest, rfl, _, _, htake⟩ := step?_cases h
  cases hkind : (s.mode.pieceAt c rest).content.kind? with
  | none =>
      rw [(take_of_gap hkind htake).1] at ht
      have hsize := congrArg Array.size ht
      rw [Array.size_push] at hsize
      omega
  | some kind =>
      obtain ⟨htokens, hposition, hmode⟩ := take_of_token hkind htake
      obtain ⟨rfl, -⟩ := Array.push_eq_push.mp (htokens.symm.trans ht)
      exact ⟨hposition.symm, hmode⟩

namespace Rule

open Lexer

variable {p : Parser} {tokens : Array Token} {front back : List Token} {t next : Token}

theorem triggerStarts_iff (hpeek : p.peek = t) (hkind : t.kind = .keyword .begin_) :
    triggerStarts p = true ↔ StartsBody t.span.stop.line (p.peekAhead 1) := by
  simp [triggerStarts, StartsBody, hpeek, hkind, or_assoc]

/-- A parser has every token at its place, and the end of the input where that was read. -/
theorem tokenAt_of_read {last : Token} (htokens : tokens.toList = front ++ [last]) (hlast : last.kind = .eof)
    (hfront : ∀ x ∈ front, x.kind ≠ .eof) (hp : p.tokens = (Cursor.ofTokens tokens).tokens) {i : Nat} {x : Token}
    (hx : tokens.toList[i]? = some x) : p.tokenAt i = x ∨ x.kind = .eof ∧ (p.tokenAt i).kind = .eof := by
  have hget : p.tokens[i]? = front[i]? := by
    rw [hp, ← Array.getElem?_toList, Cursor.tokens_ofTokens htokens hlast hfront]
  rw [Cursor.tokenAt, hget]
  rw [htokens] at hx
  rcases Nat.lt_or_ge i front.length with hi | hi
  · rw [List.getElem?_append_left hi] at hx
    exact .inl (by rw [hx, Option.getD_some])
  · rw [List.getElem?_append_right hi] at hx
    have hxlast : x ∈ [last] := List.mem_of_getElem? hx
    rw [List.mem_singleton.mp hxlast, List.getElem?_eq_none hi, Option.getD_none]
    exact .inr ⟨hlast, p.kind_eof⟩

/-- While `source` is read to `tokens`, the lexer in the state `s` meets the BEGIN `t` behind an equals sign, outside all
code, and leaves it in the state `next` with `behind` still to read. -/
structure MeetsBegin (source : String) (tokens : Array Token) (s next : Lexer) (behind : List Char) (t : Token) :
    Prop where
  read : ∃ metrics, tokenize source = .ok (tokens, metrics)
  met : ∃ n cs, course source n = some (s, cs) ∧ course source (n + 1) = some (next, behind)
  token : next.tokens = s.tokens.push t
  kind : t.kind = .keyword .begin_
  equal : s.tokens.back?.map Token.kind = some .equal
  codeDepth : s.mode.codeDepth = 0
  codeSection : s.mode.codeSection = none
  awaitsBody : s.mode.awaitsBody = false

/-- Whether a BEGIN is met as piece `n` of a source can be computed. -/
theorem meetsBegin_get {source : String} {n : Nat} (hread : (tokenize source).toOption.isSome = true)
    (hs : (course source n).isSome = true) (hnext : (course source (n + 1)).isSome = true)
    (htoken : ((course source (n + 1)).get hnext).1.tokens = ((course source n).get hs).1.tokens.push t)
    (hkind : t.kind = .keyword .begin_)
    (hmode : ((course source n).get hs).1.tokens.back?.map Token.kind = some .equal ∧
      ((course source n).get hs).1.mode.codeDepth = 0 ∧ ((course source n).get hs).1.mode.codeSection = none ∧
      ((course source n).get hs).1.mode.awaitsBody = false) :
    MeetsBegin source ((tokenize source).toOption.get hread).1 ((course source n).get hs).1
      ((course source (n + 1)).get hnext).1 ((course source (n + 1)).get hnext).2 t := by
  refine ⟨⟨((tokenize source).toOption.get hread).2, ?_⟩,
    ⟨n, _, (Option.some_get hs).symm, (Option.some_get hnext).symm⟩, htoken, hkind, hmode.1, hmode.2.1, hmode.2.2.1,
    hmode.2.2.2⟩
  generalize tokenize source = lexed at *
  cases lexed with
  | error e => cases hread
  | ok lexed => rfl

/-- Lexer and property rule agree on what opens a trigger body, but for the BEGIN with a block comment right behind it,
which the lexer never takes for one. -/
theorem trigger_body_agreement {source : String} {s next : Lexer} {behind : List Char}
    (h : MeetsBegin source tokens s next behind t) (hp : p.tokens = (Cursor.ofTokens tokens).tokens)
    (hposition : p.position = s.tokens.size) :
    p.peek = t ∧ (0 < next.mode.codeDepth ↔ triggerStarts p = true ∧ blockCommentFollows behind = false) := by
  obtain ⟨metrics, htokenize⟩ := h.read
  obtain ⟨n, cs, hs, hnext⟩ := h.met
  obtain ⟨lexed, hread, rfl⟩ := tokenize_eq_ok htokenize
  obtain ⟨front, hfront, hkinds, _⟩ := tiled_of_tokenize htokenize
  have hrun : next.run behind = (lexed, none) := by rw [← run_of_course hnext, hread]
  rw [course_succ hs] at hnext
  obtain ⟨hstop, hmode⟩ := step?_token hnext h.token
  have hopens : next.mode.codeDepth = if Mode.opensTrigger behind then 1 else 0 := by
    rw [hmode, h.kind]
    exact Mode.codeDepth_pass_begin ((previous_of_course hs).trans h.equal) h.codeDepth h.codeSection h.awaitsBody
  obtain ⟨u, ⟨back, hback⟩, hiff⟩ := opensTrigger_iff
    (fun ho => by simp [Mode.inSkeleton, hopens, ho]) (fun ho => by simp [hopens, ho]) hrun
  rw [h.token, Array.toList_push, List.append_assoc] at hback
  have hpeek : p.peek = t := by
    have hplace : lexed.tokens.toList[p.position]? = some t := by simp [hback, hposition]
    rcases tokenAt_of_read hfront rfl hkinds hp hplace with hpeek | ⟨heof, _⟩
    · exact hpeek
    · rw [h.kind] at heof
      cases heof
  have hseen : StartsBody t.span.stop.line (p.peekAhead 1) ↔ StartsBody t.span.stop.line u := by
    have hplace : lexed.tokens.toList[p.position + 1]? = some u := by simp [hback, hposition]
    rcases tokenAt_of_read hfront rfl hkinds hp hplace with hnext | ⟨heof, hnext⟩
    · rw [Cursor.peekAhead, hnext]
    · exact ⟨fun _ => .inl heof, fun _ => .inl hnext⟩
  refine ⟨hpeek, ?_⟩
  rw [triggerStarts_iff hpeek h.kind, hseen, hstop, ← hiff, hopens]
  cases Mode.opensTrigger behind <;> simp

theorem trigger_body_agreement_lineComment :
    ∃ tokens s next behind t, ∃ p : Parser, MeetsBegin "a=Begin // b\nEND" tokens s next behind t ∧
      p.tokens = (Cursor.ofTokens tokens).tokens ∧ p.position = s.tokens.size ∧ p.peek = t ∧
      0 < next.mode.codeDepth ∧ triggerStarts p = true ∧ blockCommentFollows behind = false := by
  have h : MeetsBegin "a=Begin // b\nEND" _ _ _ _ ⟨.keyword .begin_, "Begin", ⟨⟨2, 1, 3⟩, ⟨7, 1, 8⟩⟩⟩ :=
    meetsBegin_get (n := 2) (by decide +kernel) (by decide +kernel) (by decide +kernel) (by decide +kernel) rfl
      (by decide +kernel)
  have hp := tokens_skip 2 (Parser.ofTokens ((tokenize "a=Begin // b\nEND").toOption.get (by decide +kernel)).1 {})
  obtain ⟨hpeek, hiff⟩ := trigger_body_agreement h hp (by decide +kernel)
  have hopens := hiff.mp (by decide +kernel)
  exact ⟨_, _, _, _, _, _, h, hp, by decide +kernel, hpeek, hiff.mpr hopens, hopens⟩

/-- Behind a block comment that ends its line the rule sees a trigger where the lexer has opened no code. -/
theorem trigger_body_blockComment :
    ∃ tokens s next behind t, ∃ p : Parser,
      MeetsBegin "OnRun=BEGIN (* c *)\n  \x7b note \x7d END;" tokens s next behind t ∧
      p.tokens = (Cursor.ofTokens tokens).tokens ∧ p.position = s.tokens.size ∧
      ¬ (0 < next.mode.codeDepth ↔ triggerStarts p = true) := by
  have h : MeetsBegin "OnRun=BEGIN (* c *)\n  \x7b note \x7d END;" _ _ _ _
      ⟨.keyword .begin_, "BEGIN", ⟨⟨6, 1, 7⟩, ⟨11, 1, 12⟩⟩⟩ :=
    meetsBegin_get (n := 2) (by decide +kernel) (by decide +kernel) (by decide +kernel) (by decide +kernel) rfl
      (by decide +kernel)
  have hp := tokens_skip 2 (Parser.ofTokens
    ((tokenize "OnRun=BEGIN (* c *)\n  \x7b note \x7d END;").toOption.get (by decide +kernel)).1 {})
  exact ⟨_, _, _, _, _, _, h, hp, by decide +kernel, by decide +kernel⟩

end Rule

end CalExport
