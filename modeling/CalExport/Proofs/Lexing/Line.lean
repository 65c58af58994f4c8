import CalExport.Proofs.Lexing.Gap

namespace CalExport

open Text

def blankCodes : List Nat :=
  [9, 10, 11, 12, 13, 0x20, 0x85, 0xa0, 0x1680, 0x2000, 0x2001, 0x2002, 0x2003, 0x2004, 0x2005, 0x2006, 0x2007,
    0x2008, 0x2009, 0x200a, 0x2028, 0x2029, 0x202f, 0x205f, 0x3000]

theorem mem_blankCodes {c : Char} (h : isBlank c = true) : c.toNat ∈ blankCodes := by
  simp only [isBlank, Bool.or_eq_true, Bool.and_eq_true, beq_iff_eq, decide_eq_true_eq] at h
  simp only [blankCodes, List.mem_cons, List.not_mem_nil, or_false]
  omega

def avoidsBlanks (table : List (Nat × Nat)) : Bool :=
  table.all fun range => blankCodes.all fun n => Nat.blt n range.1 || Nat.blt range.2 n

theorem not_inRanges_of_avoidsBlanks {table : Array (Nat × Nat)} (h : avoidsBlanks table.toList = true) {n : Nat}
    (hn : n ∈ blankCodes) : inRanges table n = false := by
  rw [inRanges, Array.any_eq_false']
  intro range hrange hin
  have hout := List.all_eq_true.mp (List.all_eq_true.mp h range (Array.mem_toList_iff.mpr hrange)) n hn
  simp only [Bool.or_eq_true, Bool.and_eq_true, decide_eq_true_eq, Nat.blt_eq] at hin hout
  omega

theorem not_isWordChar_of_isBlank {c : Char} (h : isBlank c = true) : isWordChar c = false := by
  have hcode := mem_blankCodes h
  have hletters : inRanges alphabeticRanges c.toNat = false := not_inRanges_of_avoidsBlanks (by decide +kernel) hcode
  have hnumbers : inRanges numericRanges c.toNat = false := not_inRanges_of_avoidsBlanks (by decide +kernel) hcode
  have hascii : ∀ n ∈ blankCodes, (Char.ofNat n).isAlpha = false ∧ (Char.ofNat n).isDigit = false ∧
      Char.ofNat n ≠ '_' := by decide
  have hc := hascii _ hcode
  rw [Char.ofNat_toNat] at hc
  simp [isWordChar, isLetter, isNumeric, hletters, hnumbers, hc]

theorem toUpper_of_isBlank {c : Char} (h : isBlank c = true) : c.toUpper = c := by
  have hcodes : ∀ n ∈ blankCodes, (Char.ofNat n).toUpper = Char.ofNat n := by decide
  have hc := hcodes _ (mem_blankCodes h)
  rwa [Char.ofNat_toNat] at hc

def restOfLine (cs : List Char) : List Char := trimLeft (cs.takeWhile (· != '\n'))

def startsLineComment : List Char → Bool
  | c :: d :: _ => c == '/' && d == '/'
  | _ => false

def startsBlockComment : List Char → Bool
  | c :: d :: _ => c == '(' && d == '*'
  | _ => false

/-- A block comment is the first thing on the rest of the line. -/
def blockCommentFollows (cs : List Char) : Bool := startsBlockComment (restOfLine cs)

def startsEnd : List Char → Bool
  | e :: n :: d :: more => e.toUpper = 'E' && n.toUpper = 'N' && d.toUpper = 'D' && !Lexeme.startsWord more
  | _ => false

/-- The rest of a line is white space only, or something stands on it. -/
theorem restOfLine_cases (cs : List Char) :
    (∃ blanks more, cs = blanks ++ more ∧ (∀ c ∈ blanks, isBlank c = true) ∧ ('\n' ∈ blanks ∨ more = []) ∧
      restOfLine cs = []) ∨
    ∃ blanks c more, cs = blanks ++ c :: more ∧ (∀ d ∈ blanks, isBlank d = true) ∧ '\n' ∉ blanks ∧
      isBlank c = false ∧ restOfLine cs = c :: more.takeWhile (· != '\n') := by
  induction cs with
  | nil => exact .inl ⟨[], [], rfl, nofun, .inr rfl, rfl⟩
  | cons c cs ih =>
      by_cases hline : c = '\n'
      · subst hline
        exact .inl ⟨['\n'], cs, rfl, List.forall_mem_singleton.mpr rfl, .inl List.mem_cons_self, rfl⟩
      have htake : (c :: cs).takeWhile (· != '\n') = c :: cs.takeWhile (· != '\n') := by simp [hline]
      by_cases hblank : isBlank c = true
      · have hrest : restOfLine (c :: cs) = restOfLine cs := by
          rw [restOfLine, htake, trimLeft, List.dropWhile_cons_of_pos hblank]
          rfl
        rw [hrest]
        rcases ih with ⟨blanks, more, rfl, hblanks, hend, hempty⟩ | ⟨blanks, d, more, rfl, hblanks, hlines, hd, hfull⟩
        · refine .inl ⟨c :: blanks, more, rfl, ?_, hend.imp_left (List.mem_cons_of_mem _), hempty⟩
          exact List.forall_mem_cons.mpr ⟨hblank, hblanks⟩
        · refine .inr ⟨c :: blanks, d, more, rfl, List.forall_mem_cons.mpr ⟨hblank, hblanks⟩, ?_, hd, hfull⟩
          simp [hlines, Ne.symm hline]
      · refine .inr ⟨[], c, cs, rfl, nofun, nofun, by simpa using hblank, ?_⟩
        rw [restOfLine, htake, trimLeft, List.dropWhile_cons_of_neg hblank]

/-- Cutting white space off the end of a line leaves a front of the text, with white space behind it. -/
theorem trimRight_line (cs : List Char) :
    ∃ behind, cs = trimRight (cs.takeWhile (· != '\n')) ++ behind ∧ ∀ c ∈ behind.head?, isBlank c = true := by
  have hsplit := List.takeWhile_append_dropWhile (p := (· != '\n')) (l := cs)
  have hline := List.head?_dropWhile_not (· != '\n') cs
  generalize cs.takeWhile (· != '\n') = line at *
  generalize cs.dropWhile (· != '\n') = lines at *
  have hblanks := List.all_takeWhile (p := isBlank) (l := line.reverse)
  have htrim : line = trimRight line ++ (line.reverse.takeWhile isBlank).reverse := by
    have hreverse := List.takeWhile_append_dropWhile (p := isBlank) (l := line.reverse)
    rw [trimRight, ← List.reverse_append, hreverse, List.reverse_reverse]
  generalize line.reverse.takeWhile isBlank = blanks at *
  refine ⟨blanks.reverse ++ lines, by rw [← List.append_assoc, ← htrim, hsplit], ?_⟩
  intro c hc
  rw [List.head?_append] at hc
  cases hhead : blanks.reverse.head? with
  | some d =>
      rw [hhead, Option.some_or, Option.mem_some_iff] at hc
      subst hc
      exact List.all_eq_true.mp hblanks _ (List.mem_reverse.mp (List.mem_of_head? hhead))
  | none =>
      rw [hhead, Option.none_or, Option.mem_def] at hc
      rw [hc] at hline
      obtain rfl : c = '\n' := by simpa using hline
      decide

theorem toUpper_ne_of_isBlank {c d : Char} (hc : isBlank c = true) (hd : isWordChar d = true) : c.toUpper ≠ d := by
  rintro rfl
  rw [toUpper_of_isBlank hc, not_isWordChar_of_isBlank hc] at hd
  cases hd

theorem startsEnd_append (cs : List Char) {behind : List Char} (h : ∀ c ∈ behind.head?, isBlank c = true) :
    startsEnd (cs ++ behind) = startsEnd cs := by
  cases behind with
  | nil => rw [List.append_nil]
  | cons b behind =>
      have hb : isBlank b = true := h b rfl
      have hletter {d : Char} (hd : isWordChar d = true) : b.toUpper ≠ d := toUpper_ne_of_isBlank hb hd
      match cs with
      | [] => cases behind with
        | nil => rfl
        | cons d behind => cases behind <;> simp [startsEnd, hletter (d := 'E') (by decide)]
      | [e] => cases behind <;> simp [startsEnd, hletter (d := 'N') (by decide)]
      | [e, n] => simp [startsEnd, hletter (d := 'D') (by decide)]
      | [e, n, d] => simp [startsEnd, Lexeme.startsWord, not_isWordChar_of_isBlank hb]
      | e :: n :: d :: x :: cs => rfl

theorem startsLineComment_iff {cs : List Char} : startsLineComment cs = true ↔ ∃ more, cs = '/' :: '/' :: more := by
  match cs with
  | [] | [_] | _ :: _ :: _ => simp [startsLineComment]

theorem startsLineComment_append {cs behind : List Char} (hcs : cs ≠ []) (h : ∀ c ∈ behind.head?, isBlank c = true) :
    startsLineComment (cs ++ behind) = startsLineComment cs := by
  cases behind with
  | nil => rw [List.append_nil]
  | cons b behind =>
      have hb : b ≠ '/' := by
        rintro rfl
        exact absurd (h _ rfl) (by decide)
      match cs with
      | [] => exact absurd rfl hcs
      | [c] => simp [startsLineComment, hb]
      | c :: d :: cs => rfl

namespace Mode

theorem opensTrigger_of_blank {cs : List Char} (h : restOfLine cs = []) : opensTrigger cs = true := by
  have htrim : trim (cs.takeWhile (· != '\n')) = [] := by
    rw [trim, ← restOfLine, h]
    rfl
  rw [opensTrigger, htrim]

theorem opensTrigger_of_text {c : Char} {cs more : List Char} (hc : isBlank c = false)
    (h : restOfLine cs = c :: more.takeWhile (· != '\n')) :
    opensTrigger cs = (startsLineComment (c :: more) || startsEnd (c :: more)) := by
  have hline : c ≠ '\n' := by
    rintro rfl
    exact absurd hc (by decide)
  have htrim : trim (cs.takeWhile (· != '\n')) = trimRight ((c :: more).takeWhile (· != '\n')) := by
    rw [trim, ← restOfLine, h, List.takeWhile_cons_of_pos (by simpa using hline)]
  obtain ⟨behind, hsplit, hbehind⟩ := trimRight_line (c :: more)
  rw [opensTrigger, htrim]
  generalize trimRight ((c :: more).takeWhile (· != '\n')) = text at *
  have htext : text ≠ [] := by
    rintro rfl
    rw [List.nil_append] at hsplit
    rw [← hsplit] at hbehind
    rw [hbehind c rfl] at hc
    cases hc
  -- the white space that was cut off touches neither a comment nor END
  rw [hsplit, startsLineComment_append htext hbehind, startsEnd_append text hbehind]
  cases hcomment : startsLineComment text with
  | true =>
      obtain ⟨body, rfl⟩ := startsLineComment_iff.mp hcomment
      rfl
  | false =>
      split
      · exact absurd rfl htext
      · cases hcomment
      · rfl
      · rename_i hthree
        match text with
        | [] | [_] | [_, _] => rfl
        | e :: n :: d :: more => exact absurd rfl (hthree e n d more)

end Mode

theorem startsEnd_iff {cs : List Char} :
    startsEnd cs = true ↔ ∃ e n d more, cs = e :: n :: d :: more ∧ [e, n, d].map Char.toUpper = ['E', 'N', 'D'] ∧
      Lexeme.startsWord more = false := by
  match cs with
  | [] | [_] | [_, _] => simp [startsEnd]
  | e :: n :: d :: more => simp [startsEnd, and_assoc]

theorem toList_upperAscii (cs : List Char) : (upperAscii (String.ofList cs)).toList = cs.map Char.toUpper := by
  simp [upperAscii]

theorem ofWord?_end {cs : List Char} :
    Keyword.ofWord? (String.ofList cs) = some .end_ ↔ cs.map Char.toUpper = ['E', 'N', 'D'] := by
  constructor
  · intro h
    have hspelling := List.find?_some h
    rw [beq_iff_eq] at hspelling
    rw [← toList_upperAscii, ← hspelling]
    rfl
  · intro h
    have hcapitals : upperAscii (String.ofList cs) = "END" := by
      rw [← String.toList_inj, toList_upperAscii, h]
      rfl
    rw [Keyword.ofWord?, hcapitals]
    rfl

/-- Capitals come from themselves and from their small letters only. -/
theorem eq_of_toUpper {c u : Char} (h : c.toUpper = u) : c = u ∨ c = Char.ofNat (u.toNat + 32) := by
  subst h
  by_cases hc : c.toNat < 128
  · have hcodes : ∀ n < 128, Char.ofNat n = (Char.ofNat n).toUpper ∨
        Char.ofNat n = Char.ofNat ((Char.ofNat n).toUpper.toNat + 32) := by decide +kernel
    have hcode := hcodes _ hc
    rwa [Char.ofNat_toNat] at hcode
  · have hbig : ¬ ('a'.val ≤ c.val ∧ c.val ≤ 'z'.val) := by
      rintro ⟨-, hz⟩
      have hnat : c.toNat ≤ 122 := hz
      omega
    have hself : c.toUpper = c := dif_neg hbig
    exact .inl hself.symm

namespace Lexeme

theorem number_ne_end (rest : List Char) : (number rest).1 ≠ .keyword .end_ := by
  fun_cases number rest with
  | case1 | case2 => rintro ⟨⟩
  | case3 _ _ kind length hsuffix =>
      have hkind : (suffix (rest.drop (digits rest))).1 ≠ .keyword .end_ := by
        fun_cases suffix (rest.drop (digits rest)) <;> rintro ⟨⟩
      rwa [hsuffix] at hkind

theorem symbol_ne_end (c : Char) (next : Option Char) : (symbol c next).1 ≠ .keyword .end_ := by
  fun_cases symbol c next <;> rintro ⟨⟩

end Lexeme

/-- A word that is END ends where words end. -/
theorem startsEnd_of_word {skeleton : Bool} {c : Char} {rest : List Char}
    (h : (c :: rest.take (Lexeme.word skeleton rest)).map Char.toUpper = ['E', 'N', 'D']) :
    startsEnd (c :: rest) = true := by
  let inWord : Char → Bool := fun d => isWordChar d || (skeleton && d == '\'')
  have hword : rest.take (Lexeme.word skeleton rest) = rest.takeWhile inWord :=
    (List.prefix_iff_eq_take.mp (List.takeWhile_prefix inWord)).symm
  have hsplit := List.takeWhile_append_dropWhile (p := inWord) (l := rest)
  have hstop := List.head?_dropWhile_not inWord rest
  rw [hword] at h
  generalize rest.takeWhile inWord = word at *
  generalize rest.dropWhile inWord = more at *
  subst hsplit
  match word with
  | [] | [_] | _ :: _ :: _ :: _ => simp at h
  | [n, d] =>
      refine startsEnd_iff.mpr ⟨c, n, d, more, rfl, h, ?_⟩
      cases more with
      | nil => rfl
      | cons x more =>
          have hx : inWord x = false := by simpa using hstop
          exact (Bool.or_eq_false_iff.mp hx).1

namespace Mode

variable {m : Mode} {c : Char} {rest : List Char}

theorem startsEnd_of_pieceAt (h : (m.pieceAt c rest).content.kind? = some (.keyword .end_)) :
    startsEnd (c :: rest) = true := by
  revert h
  fun_cases pieceAt m c rest with
  | case1 | case2 | case3 | case4 | case5 | case6 | case7 => rintro ⟨⟩
  | case8 _ _ _ _ _ _ _ _ κ length hnumber =>
      rintro ⟨⟩
      have hkind := Lexeme.number_ne_end rest
      rw [hnumber] at hkind
      exact absurd rfl hkind
  | case9 _ _ _ _ _ _ _ _ _ length word =>
      intro h
      have hword : Keyword.ofWord? word = some .end_ := by
        cases hfound : Keyword.ofWord? word with
        | none =>
            rw [hfound] at h
            cases h
        | some keyword =>
            rw [hfound] at h
            cases h
            rfl
      rw [ofWord?_end] at hword
      exact startsEnd_of_word hword
  | case10 _ _ _ _ _ _ _ _ _ κ length hsymbol =>
      rintro ⟨⟩
      have hkind := Lexeme.symbol_ne_end c rest.head?
      rw [hsymbol] at hkind
      exact absurd rfl hkind

theorem not_isDigit_of_isWordStart (h : isWordStart c = true) : c.isDigit = false := by
  cases hdigit : c.isDigit with
  | false => rfl
  | true =>
      have hcodes : ∀ n < 58, 48 ≤ n → isWordStart (Char.ofNat n) = false := by decide
      have hrange : 48 ≤ c.val ∧ c.val ≤ 57 := by simpa [Char.isDigit] using hdigit
      have hcode := hcodes c.toNat (Nat.lt_succ_of_le hrange.2) hrange.1
      rw [Char.ofNat_toNat, h] at hcode
      cases hcode

theorem pieceAt_word (h : isWordStart c = true) :
    m.pieceAt c rest =
      ⟨.token (((Keyword.ofWord? (String.ofList (c :: rest.take (Lexeme.word m.inSkeleton rest)))).map
        Kind.keyword).getD .identifier), Lexeme.word m.inSkeleton rest⟩ := by
  have hne {d : Char} (hd : isWordStart d = false) : c ≠ d := by
    rintro rfl
    rw [h] at hd
    cases hd
  have hblank : ¬ isBlank c = true := by
    intro hblank
    have hword := isWordChar_of_isWordStart h
    rw [not_isWordChar_of_isBlank hblank] at hword
    cases hword
  have hdigit : ¬ c.isDigit = true := by simp [not_isDigit_of_isWordStart h]
  have hslash : c ≠ '/' := hne (by decide)
  have hparen : c ≠ '(' := hne (by decide)
  have hbrace : c ≠ '\x7b' := hne (by decide)
  have hstring : c ≠ '\'' := hne (by decide)
  have hquote : c ≠ '"' := hne (by decide)
  have hhash : c ≠ '#' := hne (by decide)
  simp only [pieceAt, hblank, hslash, hparen, hbrace, hstring, hquote, hhash, hdigit, h, false_and, if_false, if_true,
    Bool.false_eq_true]

theorem pieceAt_of_startsEnd (h : startsEnd (c :: rest) = true) (hm : m.inSkeleton = false) :
    (m.pieceAt c rest).content.kind? = some (.keyword .end_) := by
  obtain ⟨_, n, d, more, hcs, hupper, hmore⟩ := startsEnd_iff.mp h
  cases hcs
  have hkeyword := ofWord?_end.mpr hupper
  simp only [List.map_cons, List.map_nil, List.cons.injEq, and_true] at hupper
  obtain ⟨he, hn, hd⟩ := hupper
  -- an apostrophe behind END is no part of the word: inside code it never is
  have hword : Lexeme.word m.inSkeleton (n :: d :: more) = 2 := by
    have hn : isWordChar n = true := by rcases eq_of_toUpper hn with rfl | rfl <;> decide
    have hd : isWordChar d = true := by rcases eq_of_toUpper hd with rfl | rfl <;> decide
    have hstop : more.takeWhile isWordChar = [] := by
      cases more with
      | nil => rfl
      | cons x more => exact List.takeWhile_cons_of_neg (by simpa [Lexeme.startsWord] using hmore)
    simp [Lexeme.word, hm, hn, hd, hstop]
  have hstart : isWordStart c = true := by rcases eq_of_toUpper he with rfl | rfl <;> decide
  have htaken : (n :: d :: more).take 2 = [n, d] := rfl
  rw [pieceAt_word hstart, hword, htaken, hkeyword]
  rfl

/-- What is neither white space nor a comment is a token. -/
theorem exists_kind_of_pieceAt (hblank : isBlank c = false) (hline : startsLineComment (c :: rest) = false)
    (hblock : startsBlockComment (c :: rest) = false) (hm : m.codeDepth = 0) :
    ∃ kind, (m.pieceAt c rest).content.kind? = some kind := by
  fun_cases pieceAt m c rest with
  | case1 h =>
      rw [h] at hblank
      cases hblank
  | case2 _ h =>
      obtain ⟨more, rfl⟩ := List.head?_eq_some_iff.mp h.2
      rw [h.1] at hline
      cases hline
  | case3 _ _ h =>
      obtain ⟨more, rfl⟩ := List.head?_eq_some_iff.mp h.2
      rw [h.1] at hblock
      cases hblock
  | case4 _ _ _ h => exact absurd h.2 (by omega)
  | case5 | case6 | case7 | case8 | case9 | case10 => exact ⟨_, rfl⟩

end Mode

theorem blockCommentFollows_of_text {c : Char} {cs more : List Char}
    (h : restOfLine cs = c :: more.takeWhile (· != '\n')) :
    blockCommentFollows cs = startsBlockComment (c :: more) := by
  rw [blockCommentFollows, h]
  cases more with
  | nil => rfl
  | cons d more =>
      by_cases hd : d = '\n' <;> simp [startsBlockComment, hd]

theorem not_startsEnd_of_blockComment {cs : List Char} (h : startsBlockComment cs = true) : startsEnd cs = false := by
  match cs with
  | [] | [_] | [_, _] => rfl
  | c :: _ :: _ :: _ =>
      obtain ⟨rfl, _⟩ : c = '(' ∧ _ := by simpa [startsBlockComment] using h
      rfl

end CalExport
