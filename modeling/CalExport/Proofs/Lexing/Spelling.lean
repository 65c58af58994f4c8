import CalExport.Proofs.Lexing.Course
import CalExport.Proofs.Lexing.Line
import CalExport.Proofs.LetterCase.Lexing

namespace CalExport

open Text

def Token.face (t : Token) : Kind × String := (t.kind, t.text)

def Kind.quiet : Kind → Bool
  | .keyword .begin_ | .keyword .case_ | .keyword .end_ | .keyword .var | .leftBrace | .rightBrace => false
  | _ => true

def ReadsAs (cs rest : List Char) (content : Piece.Content) : Prop :=
  ∃ c more, cs = c :: more ∧ ∀ m : Mode, m.inSkeleton = true → m.pieceAt c (more ++ rest) = ⟨content, more.length⟩

inductive Spelled : List Char → List (Kind × String) → Prop
  | nil : Spelled [] []
  | blank {cs : List Char} {l : List (Kind × String)} (hl : l ≠ []) (h : Spelled cs l) : Spelled (' ' :: cs) l
  | piece {cs rest : List Char} {content : Piece.Content} {kind : Kind} {l : List (Kind × String)}
      (hcs : ReadsAs cs rest content) (hkind : content.kind? = some kind) (hquiet : kind.quiet = true)
      (hsize : kind = .string → byteCount cs ≤ maxStringSize) (h : Spelled rest l) :
      Spelled (cs ++ rest) ((kind, String.ofList cs) :: l)

variable {m : Mode} {cs rest : List Char} {l : List (Kind × String)}

theorem track_of_quiet {kind : Kind} (h : kind.quiet = true) : m.track kind rest = m := by
  unfold Mode.track
  split <;> first | cases h | rfl

theorem Spelled.kind_ne_eof (h : Spelled cs l) : ∀ face ∈ l, face.1 ≠ .eof := by
  induction h with
  | nil => nofun
  | blank _ _ ih => exact ih
  | @piece cs rest content kind l hcs hkind hquiet hsize h ih =>
      obtain ⟨c, more, -, hpiece⟩ := hcs
      have hcontent : (({} : Mode).pieceAt c (more ++ rest)).content.kind? = some kind := by rwa [hpiece {} rfl]
      exact List.forall_mem_cons.2 ⟨Mode.kind_of_pieceAt hcontent, ih⟩

namespace Lexer

variable {s : Lexer}

theorem exists_take {piece : Piece} {kind : Kind} (hkind : piece.content.kind? = some kind)
    (hsize : kind = .string → byteCount cs ≤ maxStringSize) : ∃ next, s.take piece cs rest = .ok next := by
  obtain ⟨content, more⟩ := piece
  cases content with
  | blank | comment => cases hkind
  | token κ => exact ⟨_, rfl⟩
  | string closed =>
      cases hkind
      have hlength : (⟨s.position, s.position.after cs⟩ : Span).length = byteCount cs := by
        simp [Span.length, Position.offset_after]
      have hfits : ¬ maxStringSize < (⟨s.position, s.position.after cs⟩ : Span).length := by
        have hle := hsize rfl
        omega
      unfold take string
      dsimp only
      rw [if_neg hfits]
      cases closed <;> exact ⟨_, rfl⟩

theorem step?_of_piece {c : Char} {more : List Char} {content : Piece.Content} {next : Lexer}
    (hcount : s.tokens.size < maxTokenCount) (hpiece : s.mode.pieceAt c (more ++ rest) = ⟨content, more.length⟩)
    (htake : s.take ⟨content, more.length⟩ (c :: more) rest = .ok next) :
    s.step? (c :: more ++ rest) = some (next, rest) := by
  rw [List.cons_append, step?, if_neg (Nat.not_le_of_lt hcount)]
  dsimp only
  rw [hpiece, List.take_left, List.drop_left, htake]

theorem run_of_spelled (h : Spelled cs l) (hm : s.mode.inSkeleton = true)
    (hroom : s.tokens.size + l.length ≤ maxTokenCount) :
    ∃ lexed, s.run cs = (lexed, none) ∧
      lexed.tokens.toList.map Token.face = s.tokens.toList.map Token.face ++ l ++ [(.eof, "")] := by
  induction h generalizing s with
  | nil =>
      refine ⟨s.finish, by rw [run], ?_⟩
      rw [s.tokens_finish, List.map_append, List.append_nil]
      rfl
  | @blank cs l hl h ih =>
      have hsome := List.length_pos_iff.2 hl
      have hpiece : s.mode.pieceAt ' ' ([] ++ cs) = ⟨.blank, 0⟩ := if_pos rfl
      have hstep := step?_of_piece (by omega) hpiece rfl
      show ∃ lexed, s.run ([' '] ++ cs) = (lexed, none) ∧ _
      rw [run_of_step? hstep]
      exact ih hm hroom
  | @piece cs rest content kind l hcs hkind hquiet hsize h ih =>
      obtain ⟨c, more, rfl, hpiece⟩ := hcs
      rw [List.length_cons] at hroom
      have htaken : ∃ next, s.take ⟨content, more.length⟩ (c :: more) rest = .ok next := exists_take hkind hsize
      obtain ⟨next, htake⟩ := htaken
      have hstep := step?_of_piece (by omega) (hpiece s.mode hm) htake
      obtain ⟨htokens, -, hmode⟩ := take_of_token hkind htake
      have hnext : next.mode.inSkeleton = true := by
        rw [hmode, Mode.pass, track_of_quiet hquiet]
        exact hm
      obtain ⟨lexed, hrun, hlexed⟩ := ih hnext (by rw [htokens, Array.size_push]; omega)
      refine ⟨lexed, (run_of_step? hstep).trans hrun, ?_⟩
      rw [hlexed, htokens, Array.toList_push, List.map_append]
      simp [Token.face]

end Lexer

theorem tokenize_of_spelled {text : String} (h : Spelled text.toList l) (hroom : l.length ≤ maxTokenCount) :
    ∃ tokens metrics, tokenize text = .ok (tokens, metrics) ∧
      tokens.toList.map Token.face = l ++ [(.eof, "")] := by
  obtain ⟨lexed, hrun, htokens⟩ := Lexer.run_of_spelled (s := Lexer.start text) h rfl
    (by simpa [Lexer.start, Lexer.note] using hroom)
  refine ⟨lexed.tokens, lexed.metrics, ?_, htokens⟩
  rw [tokenize, Lexer.read, hrun]

def goesOnWord (c : Char) : Bool := isWordChar c || c == '\''

def isWord : List Char → Bool
  | [] => false
  | c :: more => isWordStart c && more.all goesOnWord

def wordKind (cs : List Char) : Kind := ((Keyword.ofWord? (String.ofList cs)).map Kind.keyword).getD .identifier

/-- What is taken ends where the first other element stands. -/
theorem takeWhile_exact {p : Char → Bool} (hcs : ∀ c ∈ cs, p c = true) (hrest : ∀ c ∈ rest.head?, p c = false) :
    (cs ++ rest).takeWhile p = cs := by
  have hstop : rest.takeWhile p = [] := by
    cases rest with
    | nil => rfl
    | cons d rest => exact List.takeWhile_cons_of_neg (by rw [hrest d rfl]; rintro ⟨⟩)
  rw [List.takeWhile_append_of_pos hcs, hstop, List.append_nil]

/-- Inside code a word must hold no apostrophe to be read whole. -/
theorem pieceAt_wholeWord {c : Char} {more : List Char} (hcs : isWord (c :: more) = true)
    (hm : '\'' ∈ more → m.inSkeleton = true) (hrest : ∀ c ∈ rest.head?, goesOnWord c = false) :
    m.pieceAt c (more ++ rest) = ⟨.token (wordKind (c :: more)), more.length⟩ := by
  rw [isWord, Bool.and_eq_true] at hcs
  have hword : Lexeme.word m.inSkeleton (more ++ rest) = more.length := by
    refine congrArg List.length (takeWhile_exact ?_ ?_)
    · intro d hd
      have hgoes : isWordChar d = true ∨ d = '\'' := by
        simpa [goesOnWord] using List.all_eq_true.1 hcs.2 d hd
      rcases hgoes with hchar | rfl
      · rw [hchar, Bool.true_or]
      · rw [hm hd]
        rfl
    · intro d hd
      have hstop : isWordChar d = false ∧ d ≠ '\'' := by simpa [goesOnWord] using hrest d hd
      simp [hstop]
  rw [Mode.pieceAt_word hcs.1, hword, List.take_left]
  rfl

theorem readsAs_word (hcs : isWord cs = true) (hrest : ∀ c ∈ rest.head?, goesOnWord c = false) :
    ReadsAs cs rest (.token (wordKind cs)) := by
  cases cs with
  | nil => cases hcs
  | cons c more =>
      refine ⟨c, more, rfl, ?_⟩
      intro m hm
      exact pieceAt_wholeWord hcs (fun _ => hm) hrest

theorem readsAs_sign {c : Char} {kind : Kind}
    (h : (c, kind) ∈ [('[', Kind.leftBracket), (']', .rightBracket), (',', .comma)]) :
    ReadsAs [c] rest (.token kind) := by
  refine ⟨c, [], rfl, ?_⟩
  intro m _
  simp only [List.mem_cons, List.not_mem_nil, or_false, Prod.mk.injEq] at h
  rcases h with ⟨rfl, rfl⟩ | ⟨rfl, rfl⟩ | ⟨rfl, rfl⟩ <;> simp [Mode.pieceAt] <;> rfl

def endsNumber : List Char → Bool
  | [] => true
  | c :: _ => c == ']' || c == ','

def endsDigits (c : Char) : Bool := !c.isDigit && c != '.' && c.toUpper != 'D' && c.toUpper != 'T'

theorem endsDigits_of_endsNumber (hrest : endsNumber rest = true) : ∀ c ∈ rest.head?, endsDigits c = true := by
  intro c hc
  obtain ⟨more, rfl⟩ := List.head?_eq_some_iff.1 hc
  rw [endsNumber, Bool.or_eq_true, beq_iff_eq, beq_iff_eq] at hrest
  rcases hrest with rfl | rfl <;> decide

theorem digits_exact (hcs : ∀ c ∈ cs, c.isDigit = true) (hrest : ∀ c ∈ rest.head?, c.isDigit = false) :
    Lexeme.digits (cs ++ rest) = cs.length :=
  congrArg List.length (takeWhile_exact hcs hrest)

theorem number_of_digits {more : List Char} (hmore : ∀ c ∈ more, c.isDigit = true)
    (hrest : ∀ c ∈ rest.head?, endsDigits c = true) : Lexeme.number (more ++ rest) = (.integer, more.length) := by
  have hdigits : Lexeme.digits (more ++ rest) = more.length := by
    refine digits_exact hmore ?_
    intro c hc
    have hend := hrest c hc
    simp only [endsDigits, Bool.and_eq_true, Bool.not_eq_true'] at hend
    exact hend.1.1.1
  unfold Lexeme.number
  dsimp only
  rw [hdigits, List.drop_left]
  cases rest with
  | nil => rfl
  | cons c rest =>
      have hend := hrest c rfl
      simp only [endsDigits, Bool.and_eq_true, Bool.not_eq_true', bne_iff_ne] at hend
      obtain ⟨⟨⟨-, hdot⟩, hD⟩, hT⟩ := hend
      split
      · rename_i hpoint
        exact absurd (List.cons.inj hpoint).1 hdot
      · simp [Lexeme.suffix, hD, hT]

theorem not_isDigit_of_isBlank {c : Char} (h : isBlank c = true) : c.isDigit = false := by
  have hword := not_isWordChar_of_isBlank h
  cases hdigit : c.isDigit with
  | false => rfl
  | true =>
      have hascii : c.toNat < 128 := by
        have hrange : 48 ≤ c.val ∧ c.val ≤ 57 := by simpa [Char.isDigit] using hdigit
        exact Nat.lt_of_le_of_lt hrange.2 (by decide)
      simp [isWordChar, isNumeric, hascii, hdigit] at hword

theorem pieceAt_digit {c : Char} (h : c.isDigit = true) : m.pieceAt c rest =
    ⟨.token (Lexeme.number rest).1, (Lexeme.number rest).2⟩ := by
  have hne {d : Char} (hd : d.isDigit = false) : c ≠ d := by
    rintro rfl
    rw [h] at hd
    cases hd
  have hblank : ¬ isBlank c = true := by
    intro hblank
    rw [not_isDigit_of_isBlank hblank] at h
    cases h
  have hslash : c ≠ '/' := hne (by decide)
  have hparen : c ≠ '(' := hne (by decide)
  have hbrace : c ≠ '\x7b' := hne (by decide)
  have hstring : c ≠ '\'' := hne (by decide)
  have hquote : c ≠ '"' := hne (by decide)
  have hhash : c ≠ '#' := hne (by decide)
  simp only [Mode.pieceAt, hblank, hslash, hparen, hbrace, hstring, hquote, hhash, h, false_and, if_false, if_true,
    Bool.false_eq_true]

theorem readsAs_number (n : Nat) (hrest : endsNumber rest = true) :
    ReadsAs (toString n).toList rest (.token .integer) := by
  have hdigits : ∀ c ∈ (toString n).toList, c.isDigit = true := by
    intro c hc
    rw [Nat.toString_eq_repr, Nat.toList_repr] at hc
    exact Nat.isDigit_of_mem_toDigits (by decide) (by decide) hc
  have hsome : (toString n).toList ≠ [] := by
    rw [Nat.toString_eq_repr, Nat.toList_repr]
    exact Nat.toDigits_ne_nil
  obtain ⟨c, more, hcs⟩ := List.exists_cons_of_ne_nil hsome
  rw [hcs, List.forall_mem_cons] at hdigits
  refine ⟨c, more, hcs, ?_⟩
  intro m _
  rw [pieceAt_digit hdigits.1, number_of_digits hdigits.2 (endsDigits_of_endsNumber hrest)]

theorem pieceAt_apostrophe :
    m.pieceAt '\'' rest = ⟨.string (Lexeme.string 0 rest).2, (Lexeme.string 0 rest).1⟩ := rfl

theorem readsAs_string {more : List Char} {closed : Bool} (h : Lexeme.string 0 more = (more.length, closed)) :
    ReadsAs ('\'' :: more) [] (.string closed) := by
  refine ⟨'\'', more, rfl, ?_⟩
  intro m _
  rw [List.append_nil, pieceAt_apostrophe, h]

namespace Spelled

theorem word {text : String} {kind : Kind} (hword : isWord text.toList = true) (hkind : wordKind text.toList = kind)
    (hquiet : kind.quiet = true) (hrest : ∀ c ∈ rest.head?, goesOnWord c = false) (h : Spelled rest l) :
    Spelled (text.toList ++ rest) ((kind, text) :: l) := by
  have hpiece := Spelled.piece (readsAs_word hword hrest) (congrArg some hkind) hquiet ?_ h
  · rwa [String.ofList_toList] at hpiece
  · rintro rfl
    unfold wordKind at hkind
    cases hfound : Keyword.ofWord? (String.ofList text.toList) <;> rw [hfound] at hkind <;> cases hkind

theorem wordAlone {text : String} {kind : Kind} (hword : isWord text.toList = true)
    (hkind : wordKind text.toList = kind) (hquiet : kind.quiet = true) : Spelled text.toList [(kind, text)] := by
  have hspelled := word hword hkind hquiet (by simp) .nil
  rwa [List.append_nil] at hspelled

theorem number (n : Nat) (hrest : endsNumber rest = true) (h : Spelled rest l) :
    Spelled ((toString n).toList ++ rest) ((.integer, toString n) :: l) := by
  have hpiece := Spelled.piece (readsAs_number n hrest) rfl rfl nofun h
  rwa [String.ofList_toList] at hpiece

theorem openingBracket (h : Spelled rest l) : Spelled ('[' :: rest) ((.leftBracket, "[") :: l) :=
  .piece (readsAs_sign (by decide)) rfl rfl nofun h

theorem closingBracket (h : Spelled rest l) : Spelled (']' :: rest) ((.rightBracket, "]") :: l) :=
  .piece (readsAs_sign (by decide)) rfl rfl nofun h

theorem comma (h : Spelled rest l) : Spelled (',' :: rest) ((.comma, ",") :: l) :=
  .piece (readsAs_sign (by decide)) rfl rfl nofun h

end Spelled

def namesWord : Kind → Bool
  | .identifier | .keyword _ => true
  | _ => false

def lettered (κ : Kind) : Bool := namesWord κ || κ == .string

theorem lettered_number (rest : List Char) : lettered (Lexeme.number rest).1 = false := by
  fun_cases Lexeme.number rest with
  | case1 | case2 => rfl
  | case3 _ _ kind length hsuffix =>
      have hkind : lettered (Lexeme.suffix (rest.drop (Lexeme.digits rest))).1 = false := by
        fun_cases Lexeme.suffix (rest.drop (Lexeme.digits rest)) <;> rfl
      rwa [hsuffix] at hkind

theorem lettered_symbol (c : Char) (next : Option Char) : lettered (Lexeme.symbol c next).1 = false := by
  fun_cases Lexeme.symbol c next <;> rfl

theorem isWord_take {c : Char} {rest : List Char} (h : isWordStart c = true) (skeleton : Bool) :
    isWord (c :: rest.take (Lexeme.word skeleton rest)) = true := by
  let inWord : Char → Bool := fun d => isWordChar d || (skeleton && d == '\'')
  have hword : rest.take (Lexeme.word skeleton rest) = rest.takeWhile inWord :=
    (List.prefix_iff_eq_take.mp (List.takeWhile_prefix inWord)).symm
  have hall := List.all_takeWhile (p := inWord) (l := rest)
  rw [isWord, h, Bool.true_and, hword, List.all_eq_true]
  intro d hd
  have hin : inWord d = true := List.all_eq_true.1 hall d hd
  simp only [inWord, goesOnWord, Bool.or_eq_true, Bool.and_eq_true] at hin ⊢
  exact hin.imp_right And.right

theorem isWord_of_pieceAt {c : Char} {kind : Kind} (hkind : (m.pieceAt c rest).content.kind? = some kind)
    (hword : namesWord kind = true) :
    isWord (c :: rest.take (m.pieceAt c rest).more) = true ∧
      wordKind (c :: rest.take (m.pieceAt c rest).more) = kind := by
  revert hkind
  fun_cases Mode.pieceAt m c rest with
  | case1 | case2 | case3 | case4 => rintro ⟨⟩
  | case5 | case6 | case7 =>
      rintro ⟨⟩
      cases hword
  | case8 _ _ _ _ _ _ _ _ κ length hnumber =>
      rintro ⟨⟩
      have hkind := lettered_number rest
      rw [hnumber, lettered, hword] at hkind
      cases hkind
  | case9 _ _ _ _ _ _ _ _ hstart length word =>
      rintro ⟨⟩
      exact ⟨isWord_take hstart _, rfl⟩
  | case10 _ _ _ _ _ _ _ _ _ κ length hsymbol =>
      rintro ⟨⟩
      have hkind := lettered_symbol c rest.head?
      rw [hsymbol, lettered, hword] at hkind
      cases hkind

theorem string_spec (count : Nat) (cs : List Char) : ∃ body behind, cs = body ++ behind ∧
    (Lexeme.string count cs).1 = count + body.length ∧ Lexeme.string count body = Lexeme.string count cs := by
  fun_induction Lexeme.string count cs with
  | case1 count rest ih =>
      obtain ⟨body, behind, rfl, hlength, hbody⟩ := ih
      refine ⟨'\'' :: '\'' :: body, behind, rfl, ?_, ?_⟩
      · rw [hlength, List.length_cons, List.length_cons]
        omega
      · rw [Lexeme.string, hbody]
  | case2 count rest hrest =>
      exact ⟨['\''], rest, rfl, rfl, rfl⟩
  | case3 count c rest hquote hquote' hline => exact ⟨[], c :: rest, rfl, rfl, rfl⟩
  | case4 count c rest hquote hquote' hline ih =>
      obtain ⟨body, behind, rfl, hlength, hbody⟩ := ih
      refine ⟨c :: body, behind, rfl, ?_, ?_⟩
      · rw [hlength, List.length_cons]
        omega
      · rw [Lexeme.string, if_neg hline, hbody]
        · exact fun _ hc => absurd hc hquote'
        · exact hquote'
  | case5 count => exact ⟨[], [], rfl, rfl, rfl⟩

structure Faithful (t : Token) : Prop where
  word : namesWord t.kind = true → isWord t.text.toList = true ∧ wordKind t.text.toList = t.kind
  string : t.kind = .string → byteCount t.text.toList ≤ maxStringSize ∧
    ∃ more closed, t.text.toList = '\'' :: more ∧ Lexeme.string 0 more = (more.length, closed)

theorem faithful_end (span : Span) : Faithful ⟨.eof, "", span⟩ where
  word h := by cases h
  string h := by cases h

theorem string_of_pieceAt {c : Char} (hkind : (m.pieceAt c rest).content.kind? = some .string) :
    ∃ more closed, c :: rest.take (m.pieceAt c rest).more = '\'' :: more ∧
      (m.pieceAt c rest).content = .string closed ∧ Lexeme.string 0 more = (more.length, closed) := by
  revert hkind
  fun_cases Mode.pieceAt m c rest with
  | case1 | case2 | case3 | case4 | case6 | case7 => rintro ⟨⟩
  | case5 _ _ _ _ hquote length closed hstring =>
      intro _
      obtain ⟨body, behind, hrest, hlength, hbody⟩ := string_spec 0 rest
      rw [hstring] at hlength hbody
      obtain rfl : length = body.length := hlength.trans (Nat.zero_add _)
      refine ⟨body, closed, ?_, rfl, hbody⟩
      rw [hquote, hrest, List.take_left]
  | case8 _ _ _ _ _ _ _ _ κ length hnumber =>
      rintro ⟨⟩
      have hkind := lettered_number rest
      rw [hnumber] at hkind
      cases hkind
  | case9 _ _ _ _ _ _ _ _ hstart length word =>
      intro hkind
      cases hfound : Keyword.ofWord? word <;> rw [hfound] at hkind <;> cases hkind
  | case10 _ _ _ _ _ _ _ _ _ κ length hsymbol =>
      rintro ⟨⟩
      have hkind := lettered_symbol c rest.head?
      rw [hsymbol] at hkind
      cases hkind

namespace Lexer

theorem byteCount_of_take {s next : Lexer} {piece : Piece} {closed : Bool} (hpiece : piece.content = .string closed)
    (htake : s.take piece cs rest = .ok next) : byteCount cs ≤ maxStringSize := by
  obtain ⟨content, more⟩ := piece
  obtain rfl : content = .string closed := hpiece
  have hlength : (⟨s.position, s.position.after cs⟩ : Span).length = byteCount cs := by
    simp [Span.length, Position.offset_after]
  rw [← hlength]
  apply Nat.le_of_not_lt
  intro hbeyond
  unfold take string at htake
  dsimp only at htake
  rw [if_pos hbeyond] at htake
  cases htake

theorem faithful_of_take {s next : Lexer} {c : Char} {kind : Kind}
    (hkind : (s.mode.pieceAt c rest).content.kind? = some kind)
    (htake : s.take (s.mode.pieceAt c rest) (c :: rest.take (s.mode.pieceAt c rest).more)
      (rest.drop (s.mode.pieceAt c rest).more) = .ok next) :
    ∃ t, next.tokens = s.tokens.push t ∧ Faithful t := by
  refine ⟨_, (take_of_token hkind htake).1, ?_, ?_⟩
  · intro hword
    rw [String.toList_ofList]
    exact isWord_of_pieceAt hkind hword
  · intro hstring
    obtain rfl : kind = .string := hstring
    obtain ⟨more, closed, htext, hcontent, hmore⟩ := string_of_pieceAt hkind
    rw [String.toList_ofList]
    exact ⟨byteCount_of_take hcontent htake, more, closed, htext, hmore⟩

theorem kept_faithful :
    Kept fun s _ => (∀ t ∈ s.tokens.toList, Faithful t) ∧ s.tokens.size ≤ maxTokenCount := by
  rintro s c rest next hroom ⟨hs, hcount⟩ htake
  cases hkind : (s.mode.pieceAt c rest).content.kind? with
  | none =>
      rw [(take_of_gap hkind htake).1]
      exact ⟨hs, hcount⟩
  | some kind =>
      obtain ⟨t, htokens, ht⟩ := faithful_of_take hkind htake
      rw [htokens, Array.toList_push, Array.size_push]
      exact ⟨List.forall_mem_append.2 ⟨hs, List.forall_mem_singleton.2 ht⟩, hroom⟩

theorem faithful_of_run {s lexed : Lexer} {cs : List Char} (hs : ∀ t ∈ s.tokens.toList, Faithful t)
    (hcount : s.tokens.size ≤ maxTokenCount) (h : s.run cs = (lexed, none)) :
    (∀ t ∈ lexed.tokens.toList, Faithful t) ∧ lexed.tokens.size ≤ maxTokenCount + 1 := by
  obtain ⟨last, ⟨hlast, hsize⟩, rfl⟩ := kept_faithful.run ⟨hs, hcount⟩ h
  rw [← Array.length_toList, last.tokens_finish, List.length_append, Array.length_toList]
  exact ⟨List.forall_mem_append.2 ⟨hlast, List.forall_mem_singleton.2 (faithful_end _)⟩, Nat.succ_le_succ hsize⟩

end Lexer

/-- All tokens of a source are faithful, and there are not too many. -/
theorem faithful_of_tokenize {source : String} {tokens : Array Token} {metrics : Metrics}
    (h : tokenize source = .ok (tokens, metrics)) :
    (∀ t ∈ tokens.toList, Faithful t) ∧ tokens.size ≤ maxTokenCount + 1 := by
  obtain ⟨lexed, hread, rfl⟩ := tokenize_eq_ok h
  have hstart : ∀ t ∈ (Lexer.start source).tokens.toList, Faithful t := fun t ht => absurd ht (List.not_mem_nil)
  exact Lexer.faithful_of_run hstart (Nat.zero_le _) hread

/-- A word or a string of a source stands for itself. -/
theorem Faithful.spelled {t : Token} (ht : Faithful t) (hkind : lettered t.kind = true) (hquiet : t.kind.quiet = true) :
    Spelled t.text.toList [(t.kind, t.text)] := by
  rw [lettered, Bool.or_eq_true, beq_iff_eq] at hkind
  rcases hkind with hword | hstring
  · obtain ⟨hcs, hkind⟩ := ht.word hword
    exact .wordAlone hcs hkind hquiet
  · obtain ⟨hsize, more, closed, htext, hmore⟩ := ht.string hstring
    rw [htext] at hsize
    have hspelled := Spelled.piece (readsAs_string hmore) rfl rfl (fun _ => hsize) .nil
    rwa [List.append_nil, ← htext, String.ofList_toList, ← hstring] at hspelled

end CalExport
