import CalExport.Proofs.Lexing.SpacedPrint

namespace CalExport

open Text

/-- A string in the form that a source has it in; one that is not closed lacks the last apostrophe. -/
def delimited (closed : Bool) (body : List Char) : List Char := '\'' :: (body ++ if closed then ['\''] else [])

def stringLiteral (s : String) : String := String.ofList (delimited true (doubled s.toList))

variable {body cs rest : List Char} {closed : Bool}

theorem doubled_append (cs ds : List Char) : doubled (cs ++ ds) = doubled cs ++ doubled ds := by
  induction cs with
  | nil => rfl
  | cons c cs ih =>
      rw [List.cons_append, doubled, doubled, ih]
      split <;> rfl

/-- What is doubled is read up to its end, whatever stands behind it. -/
theorem undouble_doubled_append (front body rest : List Char) :
    undouble front (doubled body ++ rest) = undouble (body.reverse ++ front) rest := by
  induction body generalizing front with
  | nil => rfl
  | cons c body ih =>
      have hbehind : (c :: body).reverse ++ front = body.reverse ++ c :: front := by simp
      rw [doubled, hbehind, ← ih]
      by_cases hc : c = '\''
      · subst hc
        rw [if_pos rfl, List.cons_append, List.cons_append, undouble]
      · rw [if_neg hc, List.cons_append, undouble]
        exact fun _ hquote => absurd hquote hc

theorem undouble_doubled (body : List Char) : undouble [] (doubled body) = body := by
  have hread := undouble_doubled_append [] body []
  rwa [List.append_nil, List.append_nil, undouble, List.reverse_reverse] at hread

/-- One half of the last apostrophe is enough. -/
theorem undouble_dropLast (h : (doubled body).getLast? = some '\'') : undouble [] (doubled body).dropLast = body := by
  rcases List.eq_nil_or_concat body with rfl | ⟨front, c, rfl⟩
  · cases h
  · rw [List.concat_eq_append, doubled_append] at h ⊢
    have hc : c = '\'' := by
      apply Classical.byContradiction
      intro hc
      rw [doubled, if_neg hc, doubled, List.getLast?_concat, Option.some.injEq] at h
      exact hc h
    subst hc
    have hhalf : (doubled front ++ doubled ['\'']).dropLast = doubled front ++ ['\''] :=
      List.dropLast_append_of_ne_nil (by rintro ⟨⟩)
    rw [hhalf, undouble_doubled_append, List.append_nil, undouble, undouble, List.reverse_cons, List.reverse_reverse]
    rintro _ _ ⟨⟩

/-- Taking off the delimiters gives the string, also when there is but one delimiter and the string ends with an
apostrophe. -/
theorem undouble_stripDelimiters (closed : Bool) (body : List Char) :
    undouble [] (stripDelimiters '\'' (delimited closed (doubled body))) = body := by
  rw [delimited, stripDelimiters, List.head?_cons, if_pos rfl, List.tail_cons]
  cases closed with
  | true =>
      rw [if_pos rfl, List.getLast?_concat, if_pos rfl, List.dropLast_concat]
      exact undouble_doubled body
  | false =>
      rw [if_neg Bool.false_ne_true, List.append_nil]
      split
      · rename_i hlast
        exact undouble_dropLast hlast
      · exact undouble_doubled body

theorem value_of_delimited {t : Token} (hkind : t.kind = .string)
    (htext : t.text.toList = delimited closed (doubled body)) : t.value = String.ofList body := by
  rw [Token.value, hkind]
  dsimp only
  rw [htext, undouble_stripDelimiters]

/-- What the lexer takes for the rest of a string is doubled, with the closing apostrophe if it found one. -/
theorem Lexeme.doubled_of_string (count : Nat) (h : string count cs = (count + cs.length, closed)) :
    ∃ body, body.all (!endsLine ·) = true ∧ cs = doubled body ++ if closed then ['\''] else [] := by
  fun_induction string count cs with
  | case1 count rest ih =>
      obtain ⟨body, hline, rfl⟩ := ih (by rw [h, List.length_cons, List.length_cons]; congr 1; omega)
      exact ⟨'\'' :: body, by rwa [List.all_cons], by rw [doubled, if_pos rfl]; rfl⟩
  | case2 count rest hrest =>
      obtain ⟨hlength, rfl⟩ := Prod.mk.inj h
      have hnil : rest = [] := List.eq_nil_of_length_eq_zero (by rw [List.length_cons] at hlength; omega)
      exact ⟨[], rfl, by rw [hnil]; rfl⟩
  | case3 count c rest =>
      have hlength := (Prod.mk.inj h).1
      rw [List.length_cons] at hlength
      omega
  | case4 count c rest _ hquote hline ih =>
      obtain ⟨body, hbody, rfl⟩ := ih (by rw [h, List.length_cons]; congr 1; omega)
      refine ⟨c :: body, ?_, ?_⟩
      · rw [List.all_cons, hbody, Bool.and_true, Bool.not_eq_true', ← Bool.not_eq_true]
        exact hline
      · rw [doubled, if_neg hquote]
        rfl
  | case5 count =>
      obtain ⟨-, rfl⟩ := Prod.mk.inj h
      exact ⟨[], rfl, rfl⟩

/-- The text of a string token is its value written with or without the closing apostrophe. -/
theorem delimited_of_faithful {t : Token} (ht : Faithful t) (hkind : t.kind = .string) :
    ∃ closed, Lexeme.string 0 t.text.toList.tail = (t.text.toList.tail.length, closed) ∧
      t.text.toList = delimited closed (doubled t.value.toList) := by
  obtain ⟨-, more, closed, htext, hmore⟩ := ht.string hkind
  obtain ⟨body, -, hbody⟩ := Lexeme.doubled_of_string 0 (by rwa [Nat.zero_add])
  rw [hbody] at htext
  refine ⟨closed, by rw [htext, ← hbody]; exact hmore, ?_⟩
  rw [value_of_delimited hkind htext, String.toList_ofList]
  exact htext

namespace Lexer

/-- A literal at the front of a source is the first token that is read. -/
theorem first_of_literal {source rest : String} (hbody : body.all (!Lexeme.endsLine ·) = true)
    (hsource : source.toList = delimited true (doubled body) ++ rest.toList)
    (hsize : byteCount (delimited true (doubled body)) ≤ maxStringSize) (hrest : rest.toList.head? ≠ some '\'') :
    ∃ t, (read source).1.tokens[0]? = some t ∧ t.kind = .string ∧
      t.text.toList = delimited true (doubled body) := by
  have hpiece : (start source).mode.pieceAt '\'' (doubled body ++ ['\''] ++ rest.toList) =
      ⟨.string true, (doubled body ++ ['\'']).length⟩ :=
    pieceAt_literal hbody fun c hc => by rintro rfl; exact hrest hc
  obtain ⟨next, htake⟩ : ∃ next, (start source).take ⟨.string true, (doubled body ++ ['\'']).length⟩
      ('\'' :: (doubled body ++ ['\''])) rest.toList = .ok next := exists_take rfl fun _ => hsize
  have hroom : (start source).tokens.size < maxTokenCount := show 0 < maxTokenCount by decide
  have hstep := step?_of_piece hroom hpiece htake
  have hrun : (read source).1 = (next.run rest.toList).1 := by
    rw [read, hsource]
    exact congrArg Prod.fst (run_of_step? hstep)
  obtain ⟨back, hback⟩ := tokens_prefix_run next rest.toList
  rw [(take_of_token rfl htake).1, Array.toList_push, ← hrun] at hback
  refine ⟨⟨.string, String.ofList (delimited true (doubled body)), ⟨Position.start, Position.start.after
    (delimited true (doubled body))⟩⟩, ?_, rfl, String.toList_ofList⟩
  rw [← Array.getElem?_toList, ← hback]
  rfl

end Lexer

theorem byteCount_toList (s : String) : byteCount s.toList = s.utf8ByteSize := by
  have hsize : ∀ cs : List Char, byteCount cs = (String.ofList cs).utf8ByteSize := by
    intro cs
    induction cs with
    | nil => rfl
    | cons c cs ih =>
        rw [byteCount_cons, ih, String.ofList_cons, String.utf8ByteSize_append, String.utf8ByteSize_singleton]
  rw [hsize, String.ofList_toList]

/-- A string without a line end that is not too large, written as a literal in front of anything but an apostrophe, is
read first, whatever becomes of the rest of the source, and its value is the string. And of every source that can be
read, each string token stands for what is between its delimiters, with every doubled apostrophe read as one, whether
the lexer found it closed or not; between the delimiters stands nothing but that value with its apostrophes doubled. -/
theorem string_literals_read_back :
    (∀ s rest : String, s.toList.all (!Lexeme.endsLine ·) = true →
      (stringLiteral s).utf8ByteSize ≤ maxStringSize → rest.toList.head? ≠ some '\'' →
      ∃ t, (Lexer.read (stringLiteral s ++ rest)).1.tokens[0]? = some t ∧
        t.kind = .string ∧ t.text = stringLiteral s ∧ t.value = s ∧
        ∀ tokens metrics, tokenize (stringLiteral s ++ rest) = .ok (tokens, metrics) → tokens[0]? = some t) ∧
    ∀ source tokens metrics, tokenize source = .ok (tokens, metrics) → ∀ t ∈ tokens, t.kind = .string →
      ∃ body closed, t.text.toList = delimited closed body ∧
        Lexeme.string 0 t.text.toList.tail = (t.text.toList.tail.length, closed) ∧
        t.value = String.ofList (undouble [] body) ∧ body = doubled t.value.toList := by
  refine ⟨?_, ?_⟩
  · intro s rest hline hsize hrest
    have hsource : (stringLiteral s ++ rest).toList = delimited true (doubled s.toList) ++ rest.toList := by
      rw [String.toList_append, stringLiteral, String.toList_ofList]
    rw [← byteCount_toList, stringLiteral, String.toList_ofList] at hsize
    obtain ⟨t, hfirst, hkind, htext⟩ := Lexer.first_of_literal hline hsource hsize hrest
    have hvalue := value_of_delimited hkind htext
    rw [String.ofList_toList] at hvalue
    refine ⟨t, hfirst, hkind, ?_, hvalue, ?_⟩
    · rw [stringLiteral, ← htext, String.ofList_toList]
    · intro tokens metrics h
      obtain ⟨lexed, hread, rfl⟩ := tokenize_eq_ok h
      rwa [hread] at hfirst
  · intro source tokens metrics h t ht hkind
    have hfaithful := (faithful_of_tokenize h).1 t (Array.mem_toList_iff.2 ht)
    obtain ⟨closed, hclosed, htext⟩ := delimited_of_faithful hfaithful hkind
    refine ⟨doubled t.value.toList, closed, htext, hclosed, ?_, rfl⟩
    rw [undouble_doubled, String.ofList_toList]

/-- A literal that begins with an apostrophe, and a line that breaks off behind a doubled one. -/
theorem string_literals_read_back_apostrophes :
    (∃ t, (Lexer.read (stringLiteral "'it's" ++ ";")).1.tokens[0]? = some t ∧ t.text = "'''it''s'" ∧
        t.value = "'it's") ∧
      ∃ tokens metrics, tokenize "x:='a''\n'b'" = .ok (tokens, metrics) ∧
        tokens.toList.map Token.value = ["x", ":=", "a'", "b", ""] ∧
        ∀ t ∈ tokens, t.kind = .string → ∃ body closed, t.text.toList = delimited closed body ∧
          t.value = String.ofList (undouble [] body) := by
  refine ⟨?_, ?_⟩
  · obtain ⟨t, hfirst, -, htext, hvalue, -⟩ :=
      string_literals_read_back.1 "'it's" ";" (by decide) (by decide +kernel) (by decide)
    exact ⟨t, hfirst, htext.trans (by decide +kernel), hvalue⟩
  · have hvalues : (tokenize "x:='a''\n'b'").toOption.map (fun r => r.1.toList.map Token.value) =
        some ["x", ":=", "a'", "b", ""] := by decide +kernel
    cases h : tokenize "x:='a''\n'b'" with
    | error e =>
        rw [h] at hvalues
        cases hvalues
    | ok lexed =>
        rw [h] at hvalues
        refine ⟨lexed.1, lexed.2, rfl, Option.some.inj hvalues, ?_⟩
        intro t ht hkind
        obtain ⟨body, closed, htext, -, hvalue, -⟩ := string_literals_read_back.2 _ _ _ h t ht hkind
        exact ⟨body, closed, htext, hvalue⟩

end CalExport
