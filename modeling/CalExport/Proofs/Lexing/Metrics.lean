import CalExport.Proofs.Lexing.StringLiteral

namespace CalExport

open Text

def Kind.isKeyword : Kind → Bool
  | .keyword _ => true
  | _ => false

def Kind.isName (kind : Kind) : Bool := kind == .identifier || kind == .quotedIdentifier

def Token.oddString (t : Token) : Bool := t.kind == .string && t.text.toList.count '\'' % 2 == 1

/-- The counts are those of the tokens; the end of the input is not among them. -/
structure Metrics.Counts (m : Metrics) (read : List Token) : Prop where
  tokens : m.tokens = read.length
  keywords : m.keywords = read.countP (·.kind.isKeyword)
  identifiers : m.identifiers = read.countP (·.kind.isName)
  unknown : m.unknown = read.countP (·.kind == .unknown)
  openStrings : m.openStrings = read.countP Token.oddString

structure Metrics.OneOpenComment (m : Metrics) (rest : List Char) : Prop where
  counted : m.openComments ≤ m.comments
  last : m.openComments = 0 ∨ m.openComments = 1 ∧ rest = []

variable {m : Metrics} {mode : Mode} {c : Char} {kind : Kind} {cs rest : List Char} {read : List Token} {t : Token}

theorem count_doubled (body : List Char) : (doubled body).count '\'' = 2 * body.count '\'' := by
  induction body with
  | nil => rfl
  | cons c body ih =>
      rw [doubled]
      split
      · rename_i hquote
        rw [hquote, List.count_cons_self, List.count_cons_self, List.count_cons_self, ih]
        omega
      · rename_i hquote
        rw [List.count_cons_of_ne hquote, List.count_cons_of_ne hquote, ih]

theorem count_delimited (closed : Bool) (body : List Char) :
    (delimited closed (doubled body)).count '\'' = 2 * body.count '\'' + if closed then 2 else 1 := by
  rw [delimited, List.count_cons_self, List.count_append, count_doubled]
  cases closed <;> rfl

/-- The number of apostrophes is odd just when the last one is missing. -/
theorem oddString_of_string {more : List Char} {closed : Bool} (hkind : t.kind = .string)
    (htext : t.text.toList = '\'' :: more) (hmore : Lexeme.string 0 more = (more.length, closed)) :
    t.oddString = !closed := by
  obtain ⟨body, -, hbody⟩ := Lexeme.doubled_of_string 0 (by rwa [Nat.zero_add])
  have hdelimited : t.text.toList = delimited closed (doubled body) := by rw [htext, hbody, delimited]
  rw [Token.oddString, hkind, hdelimited, count_delimited, beq_self_eq_true, Bool.true_and]
  cases closed with
  | true => rw [if_pos rfl, beq_eq_false_iff_ne.2 (by omega), Bool.not_true]
  | false => rw [if_neg Bool.false_ne_true, beq_iff_eq.2 (by omega), Bool.not_false]

theorem openStrings_of_pieceAt (hkind : (mode.pieceAt c rest).content.kind? = some t.kind)
    (htext : t.text.toList = c :: rest.take (mode.pieceAt c rest).more) :
    (mode.pieceAt c rest).content.openStrings = t.oddString.toNat := by
  by_cases hstring : t.kind = .string
  · rw [hstring] at hkind
    obtain ⟨more, closed, hcs, hcontent, hmore⟩ := string_of_pieceAt hkind
    rw [oddString_of_string hstring (htext.trans hcs) hmore, hcontent]
    cases closed <;> rfl
  · have hnone : t.oddString = false := by rw [Token.oddString, beq_eq_false_iff_ne.2 hstring, Bool.false_and]
    rw [hnone]
    cases hcontent : (mode.pieceAt c rest).content with
    | blank | comment | token => rfl
    | string closed =>
        rw [hcontent] at hkind
        exact absurd (Option.some.inj hkind).symm hstring

/-- A comment that is left open takes the whole text. -/
theorem drop_of_openComment {inBraces : Bool} (h : (mode.pieceAt c rest).content = .comment inBraces false) :
    rest.drop (mode.pieceAt c rest).more = [] := by
  revert h
  fun_cases Mode.pieceAt mode c rest with
  | case1 | case2 | case5 | case6 | case7 | case8 | case9 | case10 => rintro ⟨⟩
  | case3 _ _ hparen length closed hlength =>
      rintro ⟨⟩
      obtain ⟨more, rfl⟩ := List.head?_eq_some_iff.1 hparen.2
      rcases Lexeme.blockComment_spec 0 more with ⟨_, _, _, _, hclosed⟩ | ⟨_, hopen⟩
      · rw [List.tail_cons, hclosed] at hlength
        cases hlength
      · rw [List.tail_cons, hopen] at hlength
        cases hlength
        rw [List.drop_succ_cons, Nat.zero_add, List.drop_length]
  | case4 _ _ _ hbrace length closed hlength =>
      rintro ⟨⟩
      rcases Lexeme.braceComment_spec 0 rest with ⟨_, _, _, _, hclosed⟩ | ⟨_, hopen⟩
      · rw [hclosed] at hlength
        cases hlength
      · rw [hopen] at hlength
        cases hlength
        rw [Nat.zero_add, List.drop_length]

theorem Metrics.count_eq (m : Metrics) (kind : Kind) : m.count kind =
    { m with
      tokens := m.tokens + 1
      keywords := m.keywords + kind.isKeyword.toNat
      identifiers := m.identifiers + kind.isName.toNat
      unknown := m.unknown + (kind == .unknown).toNat } := by
  cases kind <;> rfl

theorem countP_concat (p : Token → Bool) (read : List Token) (t : Token) :
    (read ++ [t]).countP p = read.countP p + (p t).toNat := by
  rw [List.countP_append, List.countP_singleton]
  cases p t <;> rfl

/-- One token more. -/
theorem Metrics.Counts.push (hm : m.Counts read) (t : Token) :
    ({ m with openStrings := m.openStrings + t.oddString.toNat }.count t.kind).Counts (read ++ [t]) := by
  obtain ⟨htokens, hkeywords, hidentifiers, hunknown, hstrings⟩ := hm
  rw [Metrics.count_eq]
  refine ⟨?_, ?_, ?_, ?_, ?_⟩
  · rw [List.length_append, List.length_singleton, htokens]
  · rw [countP_concat, hkeywords]
  · rw [countP_concat, hidentifiers]
  · rw [countP_concat, hunknown]
  · rw [countP_concat, hstrings]

/-- Comments are counted apart from the tokens. -/
theorem Metrics.Counts.withComments (hm : m.Counts read) (comments openComments : Nat) :
    { m with comments, openComments }.Counts read :=
  ⟨hm.tokens, hm.keywords, hm.identifiers, hm.unknown, hm.openStrings⟩

/-- While there is something to read, no comment has been left open. -/
theorem Metrics.OneOpenComment.openComments_eq (hm : m.OneOpenComment (c :: cs)) : m.openComments = 0 := by
  rcases hm.last with hnone | ⟨-, hnil⟩
  · exact hnone
  · cases hnil

/-- One comment more. -/
theorem Metrics.OneOpenComment.push {closed : Bool} (hm : m.OneOpenComment (c :: cs))
    (hopen : closed = false → rest = []) :
    { m with
      comments := m.comments + 1
      openComments := m.openComments + (!closed).toNat }.OneOpenComment rest := by
  rw [hm.openComments_eq]
  cases closed with
  | true => exact ⟨Nat.zero_le _, .inl rfl⟩
  | false => exact ⟨Nat.succ_le_succ (Nat.zero_le _), .inr ⟨rfl, hopen rfl⟩⟩

namespace Lexer

variable {s next : Lexer}

theorem metrics_of_comment {inBraces closed : Bool} {more : Nat}
    (h : s.take ⟨.comment inBraces closed, more⟩ cs rest = .ok next) :
    next.metrics = { s.metrics with
      comments := s.metrics.comments + 1
      openComments := s.metrics.openComments + (!closed).toNat } := by
  cases h
  cases closed <;> rfl

structure Counted (s : Lexer) (rest : List Char) : Prop where
  tokens : s.metrics.Counts s.tokens.toList
  comments : s.metrics.OneOpenComment rest

theorem counted_start (source : String) : (start source).Counted source.toList :=
  ⟨⟨rfl, rfl, rfl, rfl, rfl⟩, Nat.le_refl 0, .inl rfl⟩

theorem Counted.gap_step (hs : s.Counted (c :: rest)) (hkind : (s.mode.pieceAt c rest).content.kind? = none)
    (h : s.take (s.mode.pieceAt c rest) cs (rest.drop (s.mode.pieceAt c rest).more) = .ok next) :
    next.Counted (rest.drop (s.mode.pieceAt c rest).more) := by
  have htokens := (take_of_gap hkind h).1
  have hopen : ∀ inBraces, (s.mode.pieceAt c rest).content = .comment inBraces false →
      rest.drop (s.mode.pieceAt c rest).more = [] := fun _ => drop_of_openComment
  generalize s.mode.pieceAt c rest = piece at *
  obtain ⟨content, more⟩ := piece
  cases content with
  | blank =>
      cases h
      exact ⟨hs.tokens, hs.comments.counted, .inl hs.comments.openComments_eq⟩
  | comment inBraces closed =>
      have hmetrics := metrics_of_comment h
      refine ⟨?_, ?_⟩
      · rw [hmetrics, htokens]
        exact hs.tokens.withComments _ _
      · rw [hmetrics]
        refine hs.comments.push ?_
        rintro rfl
        exact hopen inBraces rfl
  | token | string => cases hkind

theorem Counted.token_step (hs : s.Counted (c :: rest)) (hkind : (s.mode.pieceAt c rest).content.kind? = some kind)
    (h : s.take (s.mode.pieceAt c rest) (c :: rest.take (s.mode.pieceAt c rest).more)
      (rest.drop (s.mode.pieceAt c rest).more) = .ok next) :
    next.Counted (rest.drop (s.mode.pieceAt c rest).more) := by
  have hmetrics := metrics_of_token hkind h
  have htokens := (take_of_token hkind h).1
  generalize ht : (⟨kind, _, _⟩ : Token) = t at htokens
  have hopen : (s.mode.pieceAt c rest).content.openStrings = t.oddString.toNat :=
    openStrings_of_pieceAt (by rw [hkind, ← ht]) (by rw [← ht, String.toList_ofList])
  have hcount : next.metrics =
      { s.metrics with openStrings := s.metrics.openStrings + t.oddString.toNat }.count t.kind := by
    rw [hmetrics, hopen, ← ht]
  refine ⟨?_, ?_⟩
  · rw [hcount, htokens, Array.toList_push]
    exact hs.tokens.push t
  · rw [hcount, Metrics.count_eq]
    exact ⟨hs.comments.counted, .inl hs.comments.openComments_eq⟩

theorem kept_counted : Kept Counted := by
  intro s c rest next _ hs htake
  cases hkind : (s.mode.pieceAt c rest).content.kind? with
  | none => exact hs.gap_step hkind htake
  | some kind => exact hs.token_step hkind htake

end Lexer

/-- Whatever the source, the counts of a lexical analysis that comes to its end are those of the tokens in front of the
end of the input: of all, of keywords, names and unknown characters, and of strings whose text has an odd number of
apostrophes, which are the ones that were left open. At most one comment was left open, and it is one of the comments
counted. -/
theorem metrics_agree (source : String) {tokens : Array Token} {metrics : Metrics}
    (h : tokenize source = .ok (tokens, metrics)) :
    ∃ read, tokens.toList = read ++ [⟨.eof, "", Span.point (Position.start.after source.toList)⟩] ∧
      (∀ t ∈ read, t.kind ≠ .eof) ∧ metrics.Counts read ∧
      metrics.openComments ≤ 1 ∧ metrics.openComments ≤ metrics.comments := by
  obtain ⟨front, heof, hkinds, -⟩ := tiled_of_tokenize h
  unfold tokenize at h
  split at h
  · rename_i lexed hread
    cases h
    obtain ⟨last, ⟨hcounts, hcomments⟩, rfl⟩ := Lexer.kept_counted.run (Lexer.counted_start source) hread
    have hone : last.metrics.openComments ≤ 1 := by
      rcases hcomments.last with hnone | ⟨hone, -⟩ <;> omega
    obtain ⟨rfl, -⟩ := List.append_inj' (heof.symm.trans last.tokens_finish) rfl
    exact ⟨last.tokens.toList, heof, hkinds, hcounts, hone, hcomments.counted⟩
  · cases h

/-- Two strings that break off at the end of their lines, one of them behind an escape, and a comment that nothing
ends. -/
theorem metrics_agree_left_open :
    ∃ tokens metrics, tokenize "IF x='it''s\r'y''' & //c\n\"q'\n'z''\n(*'" = .ok (tokens, metrics) ∧
      metrics = { tokens := 8, keywords := 1, identifiers := 2, comments := 2, openStrings := 2, openComments := 1,
                  unknown := 1 } ∧
      ∃ read, (∃ last, tokens.toList = read ++ [last]) ∧ metrics.Counts read ∧
        metrics.openComments ≤ 1 ∧ metrics.openComments ≤ metrics.comments := by
  have hmetrics : (tokenize "IF x='it''s\r'y''' & //c\n\"q'\n'z''\n(*'").toOption.map Prod.snd =
      some ⟨8, 1, 2, 2, 2, 1, 1⟩ := by decide +kernel
  cases h : tokenize "IF x='it''s\r'y''' & //c\n\"q'\n'z''\n(*'" with
  | error e =>
      rw [h] at hmetrics
      cases hmetrics
  | ok lexed =>
      rw [h] at hmetrics
      obtain ⟨read, htokens, -, hcounts, hone, hcounted⟩ := metrics_agree _ h
      exact ⟨lexed.1, lexed.2, rfl, Option.some.inj hmetrics, read, ⟨_, htokens⟩, hcounts, hone, hcounted⟩

end CalExport
