import CalExport.Proofs.Lexing.Spelling

namespace CalExport

open Text

def doubled : List Char → List Char
  | [] => []
  | c :: cs => if c = '\'' then '\'' :: '\'' :: doubled cs else c :: doubled cs

def isDigits (cs : List Char) : Bool := !cs.isEmpty && cs.all Char.isDigit

/-- `cs` is a text of a token of this kind. The opening brace has none: inside code it begins a comment. -/
inductive Kind.HasText : Kind → List Char → Prop where
  | identifier {cs : List Char} (hcs : isWord cs = true)
      (hnone : ∀ k : Keyword, upperAscii (String.ofList cs) ≠ k.spelling) : HasText .identifier cs
  | keyword {k : Keyword} {cs : List Char} (hcs : upperAscii (String.ofList cs) = k.spelling) : HasText (.keyword k) cs
  | quotedIdentifier {body : List Char} (hbody : body.all (fun c => c != '"' && !Lexeme.endsLine c) = true) :
      HasText .quotedIdentifier ('"' :: (body ++ ['"']))
  | string {body : List Char} (hbody : body.all (!Lexeme.endsLine ·) = true)
      (hsize : byteCount ('\'' :: (doubled body ++ ['\''])) ≤ maxStringSize) :
      HasText .string ('\'' :: (doubled body ++ ['\'']))
  | integer {cs : List Char} (hcs : isDigits cs = true) : HasText .integer cs
  | decimal {cs ds : List Char} (hcs : isDigits cs = true) (hds : isDigits ds = true) :
      HasText .decimal (cs ++ '.' :: ds)
  | date {cs : List Char} {d : Char} (hcs : isDigits cs = true) (hd : d.toUpper = 'D') : HasText .date (cs ++ [d])
  | time {cs : List Char} {t : Char} (hcs : isDigits cs = true) (ht : t.toUpper = 'T') : HasText .time (cs ++ [t])
  | dateTime {cs : List Char} {d t : Char} (hcs : isDigits cs = true) (hd : d.toUpper = 'D') (ht : t.toUpper = 'T') :
      HasText .dateTime (cs ++ [d, t])
  | symbol {kind : Kind} {text : String} (hkind : kind ≠ .leftBrace) (htext : kind.symbol? = some text) :
      HasText kind text.toList

/-- A token in print, with the white space behind it. -/
structure Printed where
  kind : Kind
  text : String
  gap : String

namespace Printed

def face (t : Printed) : Kind × String := (t.kind, t.text)

/-- The text is one of the kind, and there is nothing but white space behind it. -/
structure Legible (t : Printed) : Prop where
  text : t.kind.HasText t.text.toList
  gap : ∀ c ∈ t.gap.toList, isBlank c = true

def print : List Printed → List Char
  | [] => []
  | t :: l => t.text.toList ++ (t.gap.toList ++ print l)

/-- No word that holds an apostrophe stands inside code, the text being read from the mode `m` on. -/
def apostrophesOutside (m : Mode) : List Printed → Bool
  | [] => true
  | t :: l => (t.kind != .identifier || !t.text.toList.contains '\'' || m.inSkeleton) &&
      apostrophesOutside (m.pass t.kind (t.gap.toList ++ print l)) l

end Printed

/-- Nothing was met that is no token or was left open. -/
structure Metrics.Untroubled (m : Metrics) : Prop where
  comments : m.comments = 0
  openStrings : m.openStrings = 0
  openComments : m.openComments = 0
  unknown : m.unknown = 0

variable {m : Mode} {kind : Kind} {cs ds rest : List Char}

theorem Printed.legible {text gap : String} (htext : kind.HasText text.toList)
    (hgap : gap.toList.all isBlank = true) : (Printed.mk kind text gap).Legible :=
  ⟨htext, List.all_eq_true.1 hgap⟩

theorem legible_word {text gap : String} (hword : isWord text.toList = true)
    (hnone : Keyword.all.all (fun k => k.spelling.toList != text.toList.map Char.toUpper) = true)
    (hgap : gap.toList.all isBlank = true) : (Printed.mk .identifier text gap).Legible := by
  refine Printed.legible (.identifier hword ?_) hgap
  intro k hk
  have hmem : k ∈ Keyword.all := by cases k <;> decide
  have hother := List.all_eq_true.1 hnone k hmem
  rw [← hk, toList_upperAscii, bne_self_eq_false] at hother
  cases hother

theorem legible_keyword {k : Keyword} {text gap : String} (hword : text.toList.map Char.toUpper = k.spelling.toList)
    (hgap : gap.toList.all isBlank = true) : (Printed.mk (.keyword k) text gap).Legible := by
  refine Printed.legible (.keyword ?_) hgap
  rw [← String.toList_inj, toList_upperAscii, hword]

theorem exists_cons_of_isDigits (h : isDigits cs = true) :
    ∃ c more, cs = c :: more ∧ c.isDigit = true ∧ ∀ d ∈ more, d.isDigit = true := by
  cases cs with
  | nil => cases h
  | cons c more =>
      simp only [isDigits, List.isEmpty_cons, Bool.not_false, Bool.true_and, List.all_cons, Bool.and_eq_true,
        List.all_eq_true] at h
      exact ⟨c, more, rfl, h⟩

/-- What a capital is made of is a letter. -/
theorem isWordStart_of_toUpper {c : Char} (h : c.toUpper.isUpper = true) : isWordStart c = true := by
  have hletters : ∀ n < 91, 65 ≤ n → isWordStart (Char.ofNat n) = true ∧ isWordStart (Char.ofNat (n + 32)) = true := by
    decide
  have hrange : 65 ≤ c.toUpper.val ∧ c.toUpper.val ≤ 90 := of_decide_eq_true h
  have hboth := hletters c.toUpper.toNat (Nat.lt_succ_of_le hrange.2) hrange.1
  rcases eq_of_toUpper (u := c.toUpper) rfl with hself | hsmall
  · rw [hself, ← Char.ofNat_toNat c.toUpper]
    exact hboth.1
  · rw [hsmall]
    exact hboth.2

/-- The text ends behind the last token, and white space stands behind every other. -/
theorem Printed.Legible.blank_behind {t : Printed} {l : List Printed} (ht : t.Legible) (h : l = [] ∨ t.gap ≠ "") :
    ∀ c ∈ (t.gap.toList ++ Printed.print l).head?, isBlank c = true := by
  intro c hc
  apply ht.gap
  cases hgap : t.gap.toList with
  | nil =>
      rcases h with rfl | h
      · rw [hgap] at hc
        cases hc
      · exact absurd (String.toList_eq_nil_iff.1 hgap) h
  | cons d more =>
      rw [hgap, List.cons_append, List.head?_cons, Option.mem_some_iff] at hc
      rw [← hc]
      exact List.mem_cons_self

theorem ne_of_isBlank {c d : Char} (hc : isBlank c = true) (hd : isBlank d = false) : c ≠ d := by
  rintro rfl
  rw [hc] at hd
  cases hd

theorem not_goesOnWord_of_isBlank {c : Char} (h : isBlank c = true) : goesOnWord c = false := by
  rw [goesOnWord, not_isWordChar_of_isBlank h, Bool.false_or, beq_eq_false_iff_ne]
  exact ne_of_isBlank h rfl

theorem endsDigits_of_isBlank {c : Char} (h : isBlank c = true) : endsDigits c = true := by
  have hdot : c ≠ '.' := ne_of_isBlank h rfl
  have hD : c.toUpper ≠ 'D' := toUpper_ne_of_isBlank h (by decide)
  have hT : c.toUpper ≠ 'T' := toUpper_ne_of_isBlank h (by decide)
  simp [endsDigits, not_isDigit_of_isBlank h, hdot, hD, hT]

namespace Lexeme

theorem not_startsWord_of_blank (hrest : ∀ c ∈ rest.head?, isBlank c = true) : startsWord rest = false := by
  cases rest with
  | nil => rfl
  | cons c rest => exact not_isWordChar_of_isBlank (hrest c rfl)

theorem symbol_before_blank {next : Option Char} (h : ∀ c ∈ next, isBlank c = true) (c : Char) :
    symbol c next = symbol c none := by
  cases next with
  | none => rfl
  | some d =>
      apply symbol_before_other
      intro hmem
      have hsigns : ['=', ':', '>', '.'].all (!isBlank ·) = true := by decide
      have hsign := List.all_eq_true.1 hsigns d hmem
      rw [h d rfl] at hsign
      cases hsign

theorem quotedIdentifier_closed (count : Nat) {body : List Char}
    (hbody : body.all (fun c => c != '"' && !endsLine c) = true) :
    quotedIdentifier count (body ++ '"' :: rest) = count + body.length + 1 := by
  induction body generalizing count with
  | nil => rfl
  | cons c body ih =>
      rw [List.all_cons, Bool.and_eq_true, Bool.and_eq_true, bne_iff_ne, Bool.not_eq_true'] at hbody
      obtain ⟨⟨hquote, hline⟩, hbody⟩ := hbody
      rw [List.cons_append, quotedIdentifier, hline, if_neg Bool.false_ne_true, ih _ hbody, List.length_cons]
      · omega
      · exact hquote

theorem string_doubled (count : Nat) {body : List Char} (hbody : body.all (!endsLine ·) = true)
    (hrest : ∀ c ∈ rest.head?, c ≠ '\'') :
    string count (doubled body ++ '\'' :: rest) = (count + (doubled body).length + 1, true) := by
  induction body generalizing count with
  | nil =>
      rw [doubled, List.nil_append, string]
      · rfl
      · rintro more rfl
        exact hrest _ rfl rfl
  | cons c body ih =>
      rw [List.all_cons, Bool.and_eq_true, Bool.not_eq_true'] at hbody
      obtain ⟨hline, hbody⟩ := hbody
      rw [doubled]
      split
      · rw [List.cons_append, List.cons_append, string, ih _ hbody]
        simp only [List.length_cons, Prod.mk.injEq, and_true]
        omega
      · rename_i hc
        rw [List.cons_append, string_other hc, hline, if_neg Bool.false_ne_true, ih _ hbody]
        simp only [List.length_cons, Prod.mk.injEq, and_true]
        omega

theorem number_decimal (hcs : ∀ c ∈ cs, c.isDigit = true) (hds : isDigits ds = true)
    (hrest : ∀ c ∈ rest.head?, isBlank c = true) :
    number (cs ++ ('.' :: ds ++ rest)) = (.decimal, cs.length + ('.' :: ds).length) := by
  obtain ⟨d, more, rfl, hd, hmore⟩ := exists_cons_of_isDigits hds
  have hwhole : digits (cs ++ ('.' :: d :: more ++ rest)) = cs.length := digits_exact hcs (by simp)
  have hpart : digits (more ++ rest) = more.length :=
    digits_exact hmore fun c hc => not_isDigit_of_isBlank (hrest c hc)
  rw [number]
  dsimp only
  rw [hwhole, List.drop_left]
  simp only [List.cons_append, hd, if_true, hpart, List.length_cons, Prod.mk.injEq, true_and]
  omega

/-- A letter behind the digits can only be the suffix. -/
theorem number_letter {c : Char} (hcs : ∀ c ∈ cs, c.isDigit = true) (hc : c.toUpper.isUpper = true) :
    number (cs ++ c :: rest) = ((suffix (c :: rest)).1, cs.length + (suffix (c :: rest)).2) := by
  have hletter := isWordStart_of_toUpper hc
  have hdigit : c.isDigit = false := Mode.not_isDigit_of_isWordStart hletter
  have hwhole : digits (cs ++ c :: rest) = cs.length := digits_exact hcs (by simpa using hdigit)
  rw [number]
  dsimp only
  rw [hwhole, List.drop_left]
  split
  · rename_i hpoint
    obtain rfl : c = '.' := (List.cons.inj hpoint).1
    exact absurd hletter (by decide)
  · rfl

theorem suffix_date {d : Char} (hd : d.toUpper = 'D') (hrest : ∀ c ∈ rest.head?, isBlank c = true) :
    suffix (d :: rest) = (.date, 1) := by
  have htime : rest.head?.map Char.toUpper ≠ some 'T' := by
    intro hhead
    obtain ⟨c, hc, hupper⟩ := Option.map_eq_some_iff.1 hhead
    exact toUpper_ne_of_isBlank (hrest c hc) (by decide) hupper
  simp [suffix, hd, htime, not_startsWord_of_blank hrest]

theorem suffix_time {t : Char} (ht : t.toUpper = 'T') (hrest : ∀ c ∈ rest.head?, isBlank c = true) :
    suffix (t :: rest) = (.time, 1) := by
  simp [suffix, ht, not_startsWord_of_blank hrest]

theorem suffix_dateTime {d t : Char} (hd : d.toUpper = 'D') (ht : t.toUpper = 'T')
    (hrest : ∀ c ∈ rest.head?, isBlank c = true) : suffix (d :: t :: rest) = (.dateTime, 2) := by
  simp [suffix, hd, ht, not_startsWord_of_blank hrest]

end Lexeme

theorem Keyword.ofWord?_eq_some {k : Keyword} (h : upperAscii (String.ofList cs) = k.spelling) :
    Keyword.ofWord? (String.ofList cs) = some k := by
  rw [Keyword.ofWord?, h]
  cases k <;> rfl

theorem Keyword.ofWord?_eq_none (h : ∀ k : Keyword, upperAscii (String.ofList cs) ≠ k.spelling) :
    Keyword.ofWord? (String.ofList cs) = none := by
  rw [Keyword.ofWord?, List.find?_eq_none]
  intro k _
  rw [beq_iff_eq]
  exact fun hk => h k hk.symm

theorem Keyword.spelling_capitals (k : Keyword) :
    k.spelling.toList ≠ [] ∧ k.spelling.toList.all Char.isUpper = true := by
  cases k <;> decide

/-- In any letter case a keyword is a word without apostrophes. -/
theorem isWord_of_keyword {k : Keyword} (h : upperAscii (String.ofList cs) = k.spelling) :
    isWord cs = true ∧ '\'' ∉ cs := by
  have hspelling : cs.map Char.toUpper = k.spelling.toList := by rw [← h, toList_upperAscii]
  obtain ⟨hsome, hcapitals⟩ := k.spelling_capitals
  rw [← hspelling] at hsome hcapitals
  have hletters : ∀ c ∈ cs, isWordStart c = true := by
    intro c hc
    exact isWordStart_of_toUpper (List.all_eq_true.1 hcapitals _ (List.mem_map_of_mem hc))
  refine ⟨?_, ?_⟩
  · cases cs with
    | nil => exact absurd rfl hsome
    | cons c more =>
        rw [List.forall_mem_cons] at hletters
        rw [isWord, hletters.1, Bool.true_and, List.all_eq_true]
        intro d hd
        rw [goesOnWord, isWordChar_of_isWordStart (hletters.2 d hd), Bool.true_or]
  · intro hmem
    exact absurd (hletters _ hmem) (by decide)

def Piece.Content.openStrings : Piece.Content → Nat
  | .string false => 1
  | _ => 0

def Kind.content : Kind → Piece.Content
  | .string => .string true
  | kind => .token kind

theorem Kind.kind?_content (kind : Kind) : kind.content.kind? = some kind := by
  cases kind <;> rfl

def symbolStarts : List Char := ":+-*/<>=.,;()[]\x7d@?".toList

theorem pieceAt_symbol {c : Char} (hc : c ∈ symbolStarts) (hslash : rest.head? ≠ some '/')
    (hstar : rest.head? ≠ some '*') :
    m.pieceAt c rest = ⟨.token (Lexeme.symbol c rest.head?).1, (Lexeme.symbol c rest.head?).2⟩ := by
  have hstarts : symbolStarts.all (fun d => !isBlank d && !d.isDigit && !isWordStart d &&
      !(['\x7b', '\'', '"', '#'].contains d)) = true := by decide
  have hstart := List.all_eq_true.1 hstarts c hc
  simp only [Bool.and_eq_true, Bool.not_eq_true', List.contains_eq_mem, decide_eq_false_iff_not, List.mem_cons,
    List.not_mem_nil, or_false, not_or] at hstart
  obtain ⟨⟨⟨hblank, hdigit⟩, hword⟩, hbrace, hstring, hquote, hhash⟩ := hstart
  simp only [Mode.pieceAt, hblank, hslash, hstar, hbrace, hstring, hquote, hhash, hdigit, hword, and_false, false_and,
    if_false, Bool.false_eq_true]

/-- Neither sign of an operator makes it a comment. -/
theorem symbol_of_text {text : String} (hkind : kind ≠ .leftBrace) (htext : kind.symbol? = some text) :
    ∃ c more, text.toList = c :: more ∧ c ∈ symbolStarts ∧ more.head? ≠ some '/' ∧ more.head? ≠ some '*' ∧
      Lexeme.symbol c more.head? = (kind, more.length) ∧ kind.content = .token kind := by
  cases kind <;> cases htext <;> first
    | exact absurd rfl hkind
    | exact ⟨_, _, rfl, by decide, by decide, by decide, rfl, rfl⟩

/-- White space behind an operator cannot make it longer. -/
theorem pieceAt_operator {text : String} (hkind : kind ≠ .leftBrace) (htext : kind.symbol? = some text)
    (hrest : ∀ c ∈ rest.head?, isBlank c = true) :
    ∃ c more, text.toList = c :: more ∧ m.pieceAt c (more ++ rest) = ⟨kind.content, more.length⟩ := by
  obtain ⟨c, more, htext, hc, hslash, hstar, hsymbol, hcontent⟩ := symbol_of_text hkind htext
  refine ⟨c, more, htext, ?_⟩
  cases more with
  | nil =>
      have hnext : ∀ e, isBlank e = false → rest.head? ≠ some e :=
        fun e he hhead => ne_of_isBlank (hrest e hhead) he rfl
      rw [List.head?_nil] at hsymbol
      rw [List.nil_append, pieceAt_symbol hc (hnext _ rfl) (hnext _ rfl), Lexeme.symbol_before_blank hrest, hsymbol,
        hcontent]
  | cons d more =>
      have hpiece : m.pieceAt c (d :: more ++ rest) = ⟨.token (Lexeme.symbol c (some d)).1, _⟩ :=
        pieceAt_symbol hc hslash hstar
      rw [List.head?_cons] at hsymbol
      rw [hpiece, List.cons_append, List.head?_cons, hsymbol, hcontent]

theorem pieceAt_literal {body : List Char} (hbody : body.all (!Lexeme.endsLine ·) = true)
    (hrest : ∀ c ∈ rest.head?, c ≠ '\'') :
    m.pieceAt '\'' (doubled body ++ ['\''] ++ rest) = ⟨.string true, (doubled body ++ ['\'']).length⟩ := by
  have hlength : Lexeme.string 0 (doubled body ++ '\'' :: rest) = (0 + (doubled body).length + 1, true) :=
    Lexeme.string_doubled 0 hbody hrest
  rw [List.append_assoc, List.length_append, List.singleton_append, pieceAt_apostrophe, hlength, Nat.zero_add]
  rfl

theorem pieceAt_quote : m.pieceAt '"' rest = ⟨.token .quotedIdentifier, Lexeme.quotedIdentifier 0 rest⟩ := rfl

/-- Digits with something behind them that belongs to the number. -/
theorem pieceAt_number {tail : List Char} (hcs : isDigits cs = true)
    (hnumber : ∀ more : List Char, (∀ c ∈ more, c.isDigit = true) →
      Lexeme.number (more ++ (tail ++ rest)) = (kind, more.length + tail.length)) :
    ∃ c more, cs ++ tail = c :: more ∧ m.pieceAt c (more ++ rest) = ⟨.token kind, more.length⟩ := by
  obtain ⟨c, more, rfl, hc, hmore⟩ := exists_cons_of_isDigits hcs
  refine ⟨c, more ++ tail, rfl, ?_⟩
  rw [pieceAt_digit hc, List.append_assoc, hnumber more hmore, List.length_append]

/-- In print a token is one piece of the text, from any mode on. -/
theorem Kind.HasText.pieceAt (h : kind.HasText cs)
    (hm : kind = .identifier → '\'' ∈ cs → m.inSkeleton = true) (hrest : ∀ c ∈ rest.head?, isBlank c = true) :
    ∃ c more, cs = c :: more ∧ m.pieceAt c (more ++ rest) = ⟨kind.content, more.length⟩ := by
  have hword : ∀ c ∈ rest.head?, goesOnWord c = false := fun c hc => not_goesOnWord_of_isBlank (hrest c hc)
  cases h with
  | @identifier cs hcs hnone =>
      cases cs with
      | nil => cases hcs
      | cons c more =>
          refine ⟨c, more, rfl, ?_⟩
          rw [pieceAt_wholeWord hcs (fun hmem => hm rfl (List.mem_cons_of_mem c hmem)) hword, wordKind,
            Keyword.ofWord?_eq_none hnone]
          rfl
  | @keyword k cs hcs =>
      obtain ⟨hletters, hplain⟩ := isWord_of_keyword hcs
      cases cs with
      | nil => cases hletters
      | cons c more =>
          refine ⟨c, more, rfl, ?_⟩
          rw [pieceAt_wholeWord hletters (fun hmem => absurd (List.mem_cons_of_mem c hmem) hplain) hword, wordKind,
            Keyword.ofWord?_eq_some hcs]
          rfl
  | @quotedIdentifier body hbody =>
      refine ⟨'"', body ++ ['"'], rfl, ?_⟩
      have hlength : Lexeme.quotedIdentifier 0 (body ++ '"' :: rest) = 0 + body.length + 1 :=
        Lexeme.quotedIdentifier_closed 0 hbody
      rw [List.append_assoc, List.length_append, List.singleton_append, pieceAt_quote, hlength, Nat.zero_add]
      rfl
  | @string body hbody hsize =>
      exact ⟨'\'', doubled body ++ ['\''], rfl, pieceAt_literal hbody fun c hc => ne_of_isBlank (hrest c hc) rfl⟩
  | integer hcs =>
      obtain ⟨c, more, rfl, hc, hmore⟩ := exists_cons_of_isDigits hcs
      refine ⟨c, more, rfl, ?_⟩
      rw [pieceAt_digit hc, number_of_digits hmore fun c hc => endsDigits_of_isBlank (hrest c hc)]
      rfl
  | decimal hcs hds => exact pieceAt_number hcs fun more hmore => Lexeme.number_decimal hmore hds hrest
  | @date cs d hcs hd =>
      refine pieceAt_number hcs fun more hmore => ?_
      have hletter : d.toUpper.isUpper = true := by rw [hd]; rfl
      rw [List.cons_append, List.nil_append, Lexeme.number_letter hmore hletter, Lexeme.suffix_date hd hrest]
      rfl
  | @time cs t hcs ht =>
      refine pieceAt_number hcs fun more hmore => ?_
      have hletter : t.toUpper.isUpper = true := by rw [ht]; rfl
      rw [List.cons_append, List.nil_append, Lexeme.number_letter hmore hletter, Lexeme.suffix_time ht hrest]
      rfl
  | @dateTime cs d t hcs hd ht =>
      refine pieceAt_number hcs fun more hmore => ?_
      have hletter : d.toUpper.isUpper = true := by rw [hd]; rfl
      rw [List.cons_append, List.cons_append, List.nil_append, Lexeme.number_letter hmore hletter,
        Lexeme.suffix_dateTime hd ht hrest]
      rfl
  | symbol hkind htext => exact pieceAt_operator hkind htext hrest

theorem Kind.HasText.ne_unknown (h : kind.HasText cs) : kind ≠ .unknown := by
  rintro rfl
  cases h with
  | symbol _ htext => cases htext

theorem Kind.HasText.size_le (h : kind.HasText cs) : kind = .string → byteCount cs ≤ maxStringSize := by
  rintro rfl
  cases h with
  | string _ hsize => exact hsize
  | symbol _ htext => cases htext

theorem Metrics.Untroubled.count {counts : Metrics} (h : counts.Untroubled) (hkind : kind ≠ .unknown) :
    (counts.count kind).Untroubled := by
  obtain ⟨hcomments, hstrings, hblocks, hunknown⟩ := h
  unfold Metrics.count
  dsimp only
  split
  · exact ⟨hcomments, hstrings, hblocks, hunknown⟩
  · exact ⟨hcomments, hstrings, hblocks, hunknown⟩
  · exact ⟨hcomments, hstrings, hblocks, hunknown⟩
  · exact absurd rfl hkind
  · exact ⟨hcomments, hstrings, hblocks, hunknown⟩

namespace Lexer

variable {s next : Lexer}

theorem metrics_token (kind : Kind) (text : String) (span : Span) :
    (s.token kind text span).metrics = s.metrics.count kind := by
  unfold token
  split
  · split <;> rfl
  · rfl
  · rfl

theorem metrics_of_token {piece : Piece} (hkind : piece.content.kind? = some kind)
    (h : s.take piece cs rest = .ok next) :
    next.metrics =
      { s.metrics with openStrings := s.metrics.openStrings + piece.content.openStrings }.count kind := by
  obtain ⟨content, more⟩ := piece
  cases content with
  | blank | comment => cases hkind
  | token κ =>
      cases hkind
      cases h
      exact metrics_token _ _ _
  | string closed =>
      cases hkind
      unfold take string at h
      dsimp only at h
      split at h
      · cases h
      · cases closed <;> cases h <;> rfl

theorem metrics_take {more : Nat} (h : s.take ⟨kind.content, more⟩ cs rest = .ok next) :
    next.metrics = s.metrics.count kind := by
  have hclosed : kind.content.openStrings = 0 := by cases kind <;> rfl
  have hmetrics := metrics_of_token kind.kind?_content h
  rwa [hclosed, Nat.add_zero] at hmetrics

/-- Passing white space counts nothing. -/
theorem run_of_blanks {blanks : List Char} (hblanks : ∀ c ∈ blanks, isBlank c = true)
    (hcount : s.tokens.size < maxTokenCount) :
    ∃ t, Skips s t blanks ∧ t.metrics = s.metrics ∧ s.run (blanks ++ rest) = t.run rest := by
  induction blanks generalizing s with
  | nil => exact ⟨s, ⟨rfl, rfl, rfl⟩, rfl, rfl⟩
  | cons c blanks ih =>
      obtain ⟨hc, hblanks⟩ := List.forall_mem_cons.1 hblanks
      have hpiece : s.mode.pieceAt c ([] ++ (blanks ++ rest)) = ⟨.blank, 0⟩ := if_pos hc
      obtain ⟨next, htake, hkept⟩ : ∃ next, s.take ⟨.blank, 0⟩ [c] (blanks ++ rest) = .ok next ∧
          next.metrics = s.metrics := ⟨_, rfl, rfl⟩
      have hfirst := skips_of_take rfl htake
      obtain ⟨t, hskips, hmetrics, hrun⟩ := ih hblanks (s := next) (by rwa [hfirst.tokens])
      have hstep := run_of_step? (step?_of_piece hcount hpiece htake)
      exact ⟨t, hfirst.trans hskips, hmetrics.trans hkept, hstep.trans hrun⟩

/-- Reading one printed token, with the white space behind it. -/
theorem run_of_printed {t : Printed} (ht : t.Legible) (hcount : s.tokens.size + 1 < maxTokenCount)
    (hm : t.kind = .identifier → '\'' ∈ t.text.toList → s.mode.inSkeleton = true)
    (hrest : ∀ c ∈ (t.gap.toList ++ rest).head?, isBlank c = true) :
    ∃ next : Lexer, s.run (t.text.toList ++ (t.gap.toList ++ rest)) = next.run rest ∧
      next.tokens.size = s.tokens.size + 1 ∧
      next.tokens.toList.map Token.face = s.tokens.toList.map Token.face ++ [t.face] ∧
      next.mode = { s.mode.pass t.kind (t.gap.toList ++ rest) with lineIsBlank := next.mode.lineIsBlank } ∧
      next.metrics = s.metrics.count t.kind := by
  obtain ⟨c, more, htext, hpiece⟩ := ht.text.pieceAt hm hrest
  obtain ⟨taken, htake⟩ : ∃ taken, s.take ⟨t.kind.content, more.length⟩ t.text.toList (t.gap.toList ++ rest) =
      .ok taken := exists_take t.kind.kind?_content ht.text.size_le
  obtain ⟨htokens, -, hmode⟩ := take_of_token t.kind.kind?_content htake
  have hmetrics := metrics_take htake
  rw [htext] at htake
  have hstep := step?_of_piece (by omega) hpiece htake
  have hsize : taken.tokens.size = s.tokens.size + 1 := by rw [htokens, Array.size_push]
  obtain ⟨next, hskips, hkept, hrun⟩ : ∃ next, Skips taken next t.gap.toList ∧ next.metrics = taken.metrics ∧
      taken.run (t.gap.toList ++ rest) = next.run rest := run_of_blanks ht.gap (by omega)
  refine ⟨next, ?_, ?_, ?_, ?_, ?_⟩
  · rw [htext, run_of_step? hstep, hrun]
  · rw [hskips.tokens, hsize]
  · rw [hskips.tokens, htokens, Array.toList_push, List.map_append, String.ofList_toList]
    rfl
  · rw [hskips.mode, hmode]
  · rw [hkept, hmetrics]

theorem run_of_print {l : List Printed} (hl : ∀ t ∈ l, t.Legible) (hapart : ∀ t ∈ l.dropLast, t.gap ≠ "")
    (hm : s.mode = { m with lineIsBlank := s.mode.lineIsBlank }) (hcode : Printed.apostrophesOutside m l = true)
    (hroom : s.tokens.size + l.length < maxTokenCount) (hs : s.metrics.Untroubled) :
    ∃ lexed : Lexer, s.run (Printed.print l) = (lexed, none) ∧
      lexed.tokens.toList.map Token.face = s.tokens.toList.map Token.face ++ l.map Printed.face ++ [(.eof, "")] ∧
      lexed.metrics.Untroubled := by
  induction l generalizing s m with
  | nil =>
      refine ⟨s.finish, by rw [Printed.print, run], ?_, hs⟩
      rw [s.tokens_finish, List.map_append, List.map_nil, List.append_nil]
      rfl
  | cons t l ih =>
      obtain ⟨ht, hl⟩ := List.forall_mem_cons.1 hl
      rw [Printed.apostrophesOutside, Bool.and_eq_true] at hcode
      obtain ⟨hword, hcode⟩ := hcode
      rw [List.length_cons] at hroom
      have houtside : t.kind = .identifier → '\'' ∈ t.text.toList → s.mode.inSkeleton = true := by
        intro hkind hmem
        rw [hm]
        simpa [hkind, hmem, Mode.inSkeleton] using hword
      obtain ⟨hgap, hapart⟩ : (l = [] ∨ t.gap ≠ "") ∧ ∀ u ∈ l.dropLast, u.gap ≠ "" := by
        cases l with
        | nil => exact ⟨.inl rfl, by simp⟩
        | cons u l =>
            rw [List.dropLast_cons_cons, List.forall_mem_cons] at hapart
            exact ⟨.inr hapart.1, hapart.2⟩
      have hblank := ht.blank_behind hgap
      obtain ⟨next, hrun, hsize, hfaces, hmode, hmetrics⟩ := run_of_printed ht (by omega) houtside hblank
      have hnext : next.mode = { m.pass t.kind (t.gap.toList ++ Printed.print l) with
          lineIsBlank := next.mode.lineIsBlank } := by
        rw [hmode, hm, Mode.pass_lineIsBlank]
      obtain ⟨lexed, hlexed, htokens, hclean⟩ := ih hl hapart hnext hcode (by omega)
        (hmetrics ▸ hs.count ht.text.ne_unknown)
      refine ⟨lexed, ?_, ?_, hclean⟩
      · rw [Printed.print, hrun, hlexed]
      · rw [htokens, hfaces, List.map_cons]
        simp only [List.append_assoc, List.cons_append, List.nil_append]

end Lexer

/-- What is printed with white space between the tokens is read back token by token, and nothing else is met. -/
theorem spaced_print_lexing {l : List Printed} (hl : ∀ t ∈ l, t.Legible) (hapart : ∀ t ∈ l.dropLast, t.gap ≠ "")
    (hcode : Printed.apostrophesOutside {} l = true) (hcount : l.length < maxTokenCount) :
    ∃ tokens metrics, tokenize (String.ofList (Printed.print l)) = .ok (tokens, metrics) ∧
      tokens.toList.map Token.face = l.map Printed.face ++ [(.eof, "")] ∧ metrics.Untroubled := by
  let source := String.ofList (Printed.print l)
  obtain ⟨lexed, hrun, htokens, hclean⟩ := Lexer.run_of_print (s := Lexer.start source) hl hapart rfl hcode
    (by simpa [Lexer.start, Lexer.note] using hcount) ⟨rfl, rfl, rfl, rfl⟩
  refine ⟨lexed.tokens, lexed.metrics, ?_, htokens, hclean⟩
  rw [tokenize, Lexer.read, String.toList_ofList, hrun]

def quotingTrigger : List Printed :=
  [⟨.identifier, "Customer's", "\t"⟩, ⟨.equal, "=", " "⟩, ⟨.keyword .begin_, "Begin", "\n  "⟩,
    ⟨.string, "'it''s'", " "⟩, ⟨.rightBrace, "\x7d", " "⟩, ⟨.dateTime, "0dt", "\n"⟩, ⟨.keyword .end_, "END", "\n"⟩,
    ⟨.identifier, "it's", ""⟩]

theorem spaced_print_lexing_trigger : ∃ tokens metrics,
    tokenize (String.ofList (Printed.print quotingTrigger)) = .ok (tokens, metrics) ∧
      tokens.toList.map Token.face = quotingTrigger.map Printed.face ++ [(.eof, "")] ∧ metrics.Untroubled := by
  apply spaced_print_lexing
  · simp only [quotingTrigger, List.forall_mem_cons]
    refine ⟨legible_word (by decide) (by decide +kernel) (by decide),
      Printed.legible (.symbol (by decide) rfl) (by decide), legible_keyword (by decide) (by decide),
      Printed.legible ?_ (by decide),
      Printed.legible (.symbol (by decide) rfl) (by decide), Printed.legible ?_ (by decide),
      legible_keyword (by decide) (by decide), legible_word (by decide) (by decide +kernel) (by decide), by simp⟩
    · exact @Kind.HasText.string "it's".toList (by decide) (by decide)
    · exact @Kind.HasText.dateTime ['0'] 'd' 't' (by decide) (by decide) (by decide)
  · decide
  · decide +kernel
  · decide

def wordInCode : List Printed :=
  [⟨.equal, "=", " "⟩, ⟨.keyword .begin_, "BEGIN", "\n"⟩, ⟨.identifier, "it's", ""⟩]

/-- Inside code a word ends at its apostrophe, and a string begins there that nothing closes. -/
theorem apostrophe_splits_word : (∀ t ∈ wordInCode, t.Legible) ∧ (∀ t ∈ wordInCode.dropLast, t.gap ≠ "") ∧
    wordInCode.length < maxTokenCount ∧
    (tokenize (String.ofList (Printed.print wordInCode))).toOption.map
        (fun r => (r.1.toList.map Token.face, r.2.openStrings)) =
      some ([(.equal, "="), (.keyword .begin_, "BEGIN"), (.identifier, "it"), (.string, "'s"), (.eof, "")], 1) := by
  refine ⟨?_, by decide, by decide, by decide +kernel⟩
  simp only [wordInCode, List.forall_mem_cons]
  exact ⟨Printed.legible (.symbol (by decide) rfl) (by decide), legible_keyword (by decide) (by decide),
    legible_word (by decide) (by decide +kernel) (by decide), by simp⟩

end CalExport
