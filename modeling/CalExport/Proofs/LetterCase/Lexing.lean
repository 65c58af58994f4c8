import CalExport.Proofs.LetterCase.Text
import CalExport.Proofs.Lexing.Line
import CalExport.Proofs.Lexing.Lossless

namespace CalExport

open Text

def Kind.isLetterless : Kind → Bool
  | .integer | .decimal | .unknown => true
  | _ => false

namespace Lexeme

theorem blockComment_lowered (count : Nat) (cs : List Char) :
    blockComment count (lowered cs) = blockComment count cs := by
  fun_induction blockComment count cs with
  | case1 => rfl
  | case2 count c rest h ih =>
      rw [lowered_cons, blockComment, ih]
      intro tail hc hrest
      obtain ⟨more, rfl⟩ := eq_cons_of_lowered (by decide) hrest
      exact h more ((toLower_eq_iff (by decide) c).1 hc) rfl
  | case3 => rfl

theorem braceComment_lowered (count : Nat) (cs : List Char) :
    braceComment count (lowered cs) = braceComment count cs := by
  fun_induction braceComment count cs with
  | case1 => rfl
  | case2 count c rest h ih =>
      rw [lowered_cons, braceComment, ih]
      exact fun hc => h ((toLower_eq_iff (by decide) c).1 hc)
  | case3 => rfl

theorem endsLine_toLower (c : Char) : endsLine c.toLower = endsLine c := by
  simp only [endsLine, beq_lowered (x := '\n') (by decide), beq_lowered (x := '\r') (by decide)]

theorem string_other {c : Char} (hc : c ≠ '\'') (count : Nat) (rest : List Char) :
    string count (c :: rest) = if endsLine c then (count, false) else string (count + 1) rest := by
  rw [string]
  · exact fun _ h _ => hc h
  · exact hc

theorem string_lowered (count : Nat) (cs : List Char) : string count (lowered cs) = string count cs := by
  fun_induction string count cs with
  | case1 count rest ih => exact ih
  | case2 count rest h =>
      rw [lowered_cons, show Char.toLower '\'' = '\'' from rfl, string]
      intro tail htail
      obtain ⟨more, rfl⟩ := eq_cons_of_lowered (by decide) htail
      exact h more rfl
  | case3 count c rest _ hne hends =>
      have hlower : c.toLower ≠ '\'' := fun hc => hne ((toLower_eq_iff (by decide) c).1 hc)
      rw [lowered_cons, string_other hlower, endsLine_toLower, if_pos hends]
  | case4 count c rest _ hne hends ih =>
      have hlower : c.toLower ≠ '\'' := fun hc => hne ((toLower_eq_iff (by decide) c).1 hc)
      rw [lowered_cons, string_other hlower, endsLine_toLower, if_neg hends, ih]
  | case5 => rfl

theorem quotedIdentifier_lowered (count : Nat) (cs : List Char) :
    quotedIdentifier count (lowered cs) = quotedIdentifier count cs := by
  fun_induction quotedIdentifier count cs with
  | case1 => rfl
  | case2 count c rest hne hends =>
      rw [lowered_cons, quotedIdentifier, endsLine_toLower, if_pos hends]
      exact fun hc => hne ((toLower_eq_iff (by decide) c).1 hc)
  | case3 count c rest hne hends ih =>
      rw [lowered_cons, quotedIdentifier, endsLine_toLower, if_neg hends, ih]
      exact fun hc => hne ((toLower_eq_iff (by decide) c).1 hc)
  | case4 => rfl

theorem digits_lowered (cs : List Char) : digits (lowered cs) = digits cs := by
  rw [digits, takeWhile_lowered isDigit_toLower, length_lowered, digits]

theorem startsWord_lowered (cs : List Char) : startsWord (lowered cs) = startsWord cs := by
  cases cs with
  | nil => rfl
  | cons c cs => simp [startsWord, isWordChar_toLower]

theorem suffix_lowered (cs : List Char) : suffix (lowered cs) = suffix cs := by
  cases cs with
  | nil => rfl
  | cons c cs =>
      have hhead : (lowered cs).head?.map Char.toUpper = cs.head?.map Char.toUpper := by
        cases cs with
        | nil => rfl
        | cons d cs => exact congrArg some (toUpper_toLower d)
      simp only [lowered_cons, suffix, toUpper_toLower, hhead, tail_lowered, startsWord_lowered]

theorem number_lowered (rest : List Char) : number (lowered rest) = number rest := by
  unfold number
  simp only [digits_lowered, drop_lowered]
  generalize rest.drop (digits rest) = behind
  split
  · rename_i d more h
    obtain ⟨tail, rfl⟩ := eq_cons_of_lowered (by decide) h
    cases tail with
    | nil => cases h
    | cons e tail =>
        rw [lowered_cons, lowered_cons] at h
        obtain ⟨rfl, rfl⟩ := List.cons.inj (List.cons.inj h).2
        simp only [isDigit_toLower, digits_lowered]
  · rename_i h
    rw [suffix_lowered]
    split
    · rename_i d more
      exact absurd rfl (h d.toLower (lowered more))
    · rfl

theorem take_digits (cs : List Char) : lowered (cs.take (digits cs)) = cs.take (digits cs) := by
  have htake : cs.takeWhile Char.isDigit = cs.take (digits cs) := List.prefix_iff_eq_take.1 (List.takeWhile_prefix _)
  rw [← htake]
  exact lowered_of_isDigit (List.all_eq_true.1 List.all_takeWhile)

theorem suffix_letterless (cs : List Char) (h : (suffix cs).1.isLetterless = true) : (suffix cs).2 = 0 := by
  revert h
  fun_cases suffix cs <;> simp [Kind.isLetterless]

/-- Digits and a point hold no letters. -/
theorem number_letterless (rest : List Char) (h : (number rest).1.isLetterless = true) :
    lowered (rest.take (number rest).2) = rest.take (number rest).2 := by
  revert h
  fun_cases number rest with
  | case1 whole d more hbehind hd =>
      intro _
      have htake : rest.take (whole + 2 + digits more) = rest.take whole ++ '.' :: d :: more.take (digits more) := by
        rw [Nat.add_assoc, List.take_add, hbehind, Nat.add_comm 2]
        rfl
      have hdigit : lowered [d] = [d] := lowered_of_isDigit (by simpa using hd)
      rw [htake, lowered_append, take_digits rest, lowered_cons, lowered_cons, take_digits more,
        (List.cons.inj hdigit).1]
      rfl
  | case2 whole d more hbehind hd =>
      intro _
      exact take_digits rest
  | case3 whole kind length hbehind hsuffix =>
      intro h
      have hlength := suffix_letterless (rest.drop whole)
      rw [hsuffix] at hlength
      obtain rfl : length = 0 := hlength h
      exact take_digits rest

theorem word_lowered (skeleton : Bool) (rest : List Char) : word skeleton (lowered rest) = word skeleton rest := by
  rw [word, takeWhile_lowered, length_lowered, word]
  intro c
  simp only [isWordChar_toLower, beq_lowered (x := '\'') (by decide)]

/-- What is no second character of an operator is not part of it. -/
theorem symbol_before_other {d : Char} (hd : d ∉ ['=', ':', '>', '.']) (c : Char) :
    symbol c (some d) = symbol c none := by
  simp only [List.mem_cons, List.not_mem_nil, or_false, not_or] at hd
  obtain ⟨hequal, hcolon, hgreater, hdot⟩ := hd
  generalize hnext : some d = next
  fun_cases symbol c next
  case case30 => simp [symbol, *]
  all_goals first | rfl | (cases hnext; contradiction)

theorem symbol_before_letter {d : Char} (hd : d.isAlpha = true) (c : Char) : symbol c (some d) = symbol c none := by
  apply symbol_before_other
  intro hmem
  have hsigns : ['=', ':', '>', '.'].all (!Char.isAlpha ·) = true := by decide
  have hsign := List.all_eq_true.1 hsigns d hmem
  rw [hd] at hsign
  cases hsign

theorem symbol_toLower (c : Char) (next : Option Char) : symbol c (next.map Char.toLower) = symbol c next := by
  cases next with
  | none => rfl
  | some d =>
      refine toLower_induction (p := fun d e => symbol c (some e) = symbol c (some d)) (fun _ => rfl) ?_ d
      intro d hd
      obtain ⟨halpha, hlower⟩ := isAlpha_of_mem_capitals d hd
      rw [symbol_before_letter halpha, symbol_before_letter hlower]

theorem symbol_letterless (c : Char) (next : Option Char) (h : (symbol c next).1.isLetterless = true) :
    (symbol c next).2 = 0 := by
  revert h
  fun_cases symbol c next <;> simp [Kind.isLetterless]

end Lexeme

theorem Keyword.ofWord_lowered (cs : List Char) :
    ofWord? (String.ofList (lowered cs)) = ofWord? (String.ofList cs) := by
  have hupper : upperAscii (String.ofList (lowered cs)) = upperAscii (String.ofList cs) := by
    rw [← String.toList_inj]
    simp only [upperAscii, lowered, String.toList_map, String.toList_ofList, List.map_map, Function.comp_def,
      toUpper_toLower]
  rw [ofWord?, hupper, ofWord?]

namespace Mode

theorem pieceAt_lowered (m : Mode) (c : Char) (rest : List Char) :
    m.pieceAt c.toLower (lowered rest) = m.pieceAt c rest := by
  have hword : Keyword.ofWord? (String.ofList (c.toLower :: (lowered rest).take (Lexeme.word m.inSkeleton rest))) =
      Keyword.ofWord? (String.ofList (c :: rest.take (Lexeme.word m.inSkeleton rest))) := by
    rw [take_lowered, ← lowered_cons, Keyword.ofWord_lowered]
  have hline : ∀ c : Char, (!Lexeme.endsLine c.toLower) = !Lexeme.endsLine c := by
    intro c
    rw [Lexeme.endsLine_toLower]
  unfold pieceAt
  simp only [isBlank_toLower, toLower_eq_iff (x := '/') (by decide), toLower_eq_iff (x := '(') (by decide),
    toLower_eq_iff (x := '\x7b') (by decide), toLower_eq_iff (x := '\'') (by decide),
    toLower_eq_iff (x := '"') (by decide), toLower_eq_iff (x := '#') (by decide),
    head?_lowered (x := '/') (by decide), head?_lowered (x := '*') (by decide), isDigit_toLower, isWordStart_toLower,
    takeWhile_lowered (p := (· != '\n')) (bne_lowered (by decide)),
    takeWhile_lowered (p := (!Lexeme.endsLine ·)) hline, length_lowered, tail_lowered, Lexeme.blockComment_lowered,
    Lexeme.braceComment_lowered, Lexeme.string_lowered,
    Lexeme.quotedIdentifier_lowered, Lexeme.number_lowered, Lexeme.word_lowered, hword]
  -- A word is not read as a symbol, and nothing else has a small letter.
  cases hstart : isWordStart c with
  | true => rfl
  | false =>
      have hhead : (lowered rest).head? = rest.head?.map Char.toLower := List.head?_map
      rw [toLower_of_not_isWordStart hstart, hhead, Lexeme.symbol_toLower]

theorem pieceAt_letterless (m : Mode) (c : Char) (rest : List Char) {kind : Kind}
    (hkind : (m.pieceAt c rest).content.kind? = some kind) (h : kind.isLetterless = true) :
    lowered (c :: rest.take (m.pieceAt c rest).more) = c :: rest.take (m.pieceAt c rest).more := by
  revert hkind
  fun_cases pieceAt m c rest with
  | case1 | case2 | case3 | case4 =>
      rintro ⟨⟩
  | case5 | case6 | case7 =>
      rintro ⟨⟩
      cases h
  | case8 _ _ _ _ _ _ _ hdigit κ length hnumber =>
      rintro ⟨⟩
      have hrest := Lexeme.number_letterless rest
      rw [hnumber] at hrest
      have hfirst : lowered [c] = [c] := lowered_of_isDigit (by simpa using hdigit)
      rw [lowered_cons, hrest h, (List.cons.inj hfirst).1]
  | case9 _ _ _ _ _ _ _ _ _ length word =>
      intro hkind
      cases hword : Keyword.ofWord? word <;> rw [hword] at hkind <;> cases hkind <;> cases h
  | case10 _ _ _ _ _ _ _ _ hstart κ length hsymbol =>
      rintro ⟨⟩
      have hlength := Lexeme.symbol_letterless c rest.head?
      rw [hsymbol] at hlength
      obtain rfl : length = 0 := hlength h
      rw [List.take_zero, lowered_cons, toLower_of_not_isWordStart (by simpa using hstart)]
      rfl

theorem opensTrigger_eq (rest : List Char) :
    opensTrigger rest =
      let line := trim (rest.takeWhile (· != '\n'))
      line.isEmpty || startsLineComment line || startsEnd line := by
  unfold opensTrigger
  dsimp only
  generalize trim (rest.takeWhile (· != '\n')) = line
  cases hcomment : startsLineComment line with
  | true =>
      obtain ⟨body, rfl⟩ := startsLineComment_iff.mp hcomment
      rfl
  | false =>
      split
      · rfl
      · cases hcomment
      · rfl
      · rename_i hempty _ hthree
        rcases line with - | ⟨e, - | ⟨n, - | ⟨d, more⟩⟩⟩
        · exact absurd rfl hempty
        · rfl
        · rfl
        · exact absurd rfl (hthree e n d more)

theorem opensTrigger_lowered (rest : List Char) : opensTrigger (lowered rest) = opensTrigger rest := by
  have hcomment : ∀ cs, startsLineComment (lowered cs) = startsLineComment cs := by
    intro cs
    rcases cs with - | ⟨c, - | ⟨d, more⟩⟩
    · rfl
    · rfl
    · simp only [lowered_cons, startsLineComment, beq_lowered (x := '/') (by decide)]
  have hend : ∀ cs, startsEnd (lowered cs) = startsEnd cs := by
    intro cs
    rcases cs with - | ⟨e, - | ⟨n, - | ⟨d, more⟩⟩⟩
    · rfl
    · rfl
    · rfl
    · simp only [lowered_cons, startsEnd, toUpper_toLower, Lexeme.startsWord_lowered]
  simp only [opensTrigger_eq, takeWhile_lowered (p := (· != '\n')) (bne_lowered (by decide)), trim_lowered,
    isEmpty_lowered, hcomment, hend]

theorem track_lowered (m : Mode) (kind : Kind) (rest : List Char) :
    m.track kind (lowered rest) = m.track kind rest := by
  have hbegin : m.beginOpensCode (lowered rest) = m.beginOpensCode rest := by
    rw [beginOpensCode, opensTrigger_lowered, beginOpensCode]
  unfold track
  rw [hbegin]

theorem blankAfter_lowered (blank : Bool) (cs : List Char) : blankAfter blank (lowered cs) = blankAfter blank cs := by
  simp only [blankAfter, lowered, List.foldl_map, toLower_eq_iff (x := '\n') (by decide), isBlank_toLower]

theorem after_lowered (m : Mode) (content : Piece.Content) (cs rest : List Char) :
    m.after content (lowered cs) (lowered rest) = m.after content cs rest := by
  simp only [after, track_lowered, blankAfter_lowered]

end Mode

def Token.lower (t : Token) : Token := { t with text := lowerAscii t.text }

def Token.IsPlain (t : Token) : Prop := t.kind.isLetterless = true → lowerAscii t.text = t.text

namespace Lexer

def lower (s : Lexer) : Lexer := { s with tokens := s.tokens.map Token.lower }

def lowerOutcome : Except (Lexer × LexError) Lexer → Except (Lexer × LexError) Lexer
  | .ok next => .ok next.lower
  | .error (stopped, e) => .error (stopped.lower, e)

theorem comment_lower (s : Lexer) (inBraces closed : Bool) (span : Span) :
    s.lower.comment inBraces closed span = (s.comment inBraces closed span).lower := by
  unfold comment
  split <;> rfl

theorem push_lower (s : Lexer) (kind : Kind) (cs : List Char) (span : Span) :
    s.lower.push kind (String.ofList (lowered cs)) span = (s.push kind (String.ofList cs) span).lower := by
  simp only [push, lower, Array.map_push, Token.lower, lowerAscii_ofList]

theorem token_lower (s : Lexer) (kind : Kind) {cs : List Char} (h : kind = .unknown → lowered cs = cs) (span : Span) :
    s.lower.token kind (String.ofList (lowered cs)) span = (s.token kind (String.ofList cs) span).lower := by
  unfold token
  dsimp only
  rw [← push_lower]
  congr 1
  split
  · simp only [String.length_ofList, length_lowered]
    split <;> rfl
  · rw [h rfl]
    rfl
  · rfl

theorem string_lower (s : Lexer) (closed : Bool) (cs : List Char) (span : Span) :
    s.lower.string closed (String.ofList (lowered cs)) span =
      lowerOutcome (s.string closed (String.ofList cs) span) := by
  unfold string
  split
  · rfl
  · split
    · exact congrArg Except.ok (push_lower s _ cs span)
    · apply congrArg Except.ok
      simp only [note, push, lower, Array.map_push, Token.lower, lowerAscii_ofList]

theorem take_lower (s : Lexer) (piece : Piece) {cs : List Char} (rest : List Char)
    (h : piece.content = .token .unknown → lowered cs = cs) :
    s.lower.take piece (lowered cs) (lowered rest) = lowerOutcome (s.take piece cs rest) := by
  have hstop : s.lower.position.after (lowered cs) = s.position.after cs := Position.after_lowered s.position cs
  have hmode : s.lower.mode.after piece.content (lowered cs) (lowered rest) = s.mode.after piece.content cs rest :=
    Mode.after_lowered s.mode piece.content cs rest
  unfold take
  rw [hstop, hmode]
  rcases piece with ⟨content, more⟩
  cases content with
  | blank => rfl
  | comment inBraces closed =>
      show (Except.ok _ : Except (Lexer × LexError) Lexer) = Except.ok _
      rw [comment_lower]
      rfl
  | token kind =>
      show (Except.ok _ : Except (Lexer × LexError) Lexer) = Except.ok _
      rw [s.token_lower kind (fun hkind => h (by rw [hkind]))]
      rfl
  | string closed =>
      have hstring := s.string_lower closed cs ⟨s.position, s.position.after cs⟩
      show (s.lower.string closed (String.ofList (lowered cs)) ⟨s.position, s.position.after cs⟩ >>= fun recorded => _) =
        lowerOutcome (s.string closed (String.ofList cs) ⟨s.position, s.position.after cs⟩ >>= fun recorded => _)
      rw [hstring]
      cases s.string closed (String.ofList cs) ⟨s.position, s.position.after cs⟩ <;> rfl

theorem take_pieceAt_lowered (s : Lexer) (c : Char) (rest : List Char) {piece : Piece}
    (hpiece : s.mode.pieceAt c rest = piece) :
    s.lower.take piece (c.toLower :: (lowered rest).take piece.more) ((lowered rest).drop piece.more) =
      lowerOutcome (s.take piece (c :: rest.take piece.more) (rest.drop piece.more)) := by
  subst hpiece
  rw [take_lowered, drop_lowered, ← lowered_cons]
  apply take_lower
  intro hunknown
  have hkind : (s.mode.pieceAt c rest).content.kind? = some .unknown := by
    rw [hunknown]
    rfl
  exact s.mode.pieceAt_letterless c rest hkind rfl

/-- Reading commutes with making all letters small. -/
theorem run_lowered (s : Lexer) (cs : List Char) :
    s.lower.run (lowered cs) = ((s.run cs).1.lower, (s.run cs).2) := by
  have hsize : ∀ s : Lexer, s.lower.tokens.size = s.tokens.size := fun s => Array.size_map
  have hpiece : ∀ (s : Lexer) (c : Char) (rest : List Char),
      s.lower.mode.pieceAt c.toLower (lowered rest) = s.mode.pieceAt c rest := fun s => s.mode.pieceAt_lowered
  fun_induction run s cs with
  | case1 s =>
      rw [lowered_nil, run]
      simp only [finish, note, lower, Array.map_push, Token.lower, lowerAscii_empty]
  | case2 s c rest hmany =>
      rw [lowered_cons, run, if_pos (by rwa [hsize]), hsize]
      rfl
  | case3 s c rest hmany piece behind next hnext ih =>
      have htake : s.lower.take piece _ _ = lowerOutcome (s.take piece _ behind) := s.take_pieceAt_lowered c rest rfl
      rw [hnext] at htake
      rw [lowered_cons, run, if_neg (by rwa [hsize])]
      dsimp only
      rw [hpiece s c rest, htake, drop_lowered]
      exact ih
  | case4 s c rest hmany piece behind stopped e herror =>
      have htake : s.lower.take piece _ _ = lowerOutcome (s.take piece _ behind) := s.take_pieceAt_lowered c rest rfl
      rw [herror] at htake
      rw [lowered_cons, run, if_neg (by rwa [hsize])]
      dsimp only
      rw [hpiece s c rest, htake]
      rfl

theorem read_lowerAscii (source : String) :
    read (lowerAscii source) = ((read source).1.lower, (read source).2) := by
  have hstart : start (lowerAscii source) = (start source).lower := by
    rw [start, utf8ByteSize_lowerAscii]
    simp [start, note, lower]
  rw [read, hstart, toList_lowerAscii, run_lowered, read]

def Plain (s : Lexer) : Prop := ∀ t ∈ s.tokens, t.IsPlain

theorem Plain.take {s next : Lexer} {c : Char} {rest behind : List Char} (hs : s.Plain)
    (h : s.take (s.mode.pieceAt c rest) (c :: rest.take (s.mode.pieceAt c rest).more) behind = .ok next) :
    next.Plain := by
  cases hkind : (s.mode.pieceAt c rest).content.kind? with
  | none =>
      obtain ⟨htokens, -, -⟩ := take_of_gap hkind h
      rwa [Plain, htokens]
  | some kind =>
      obtain ⟨htokens, -, -⟩ := take_of_token hkind h
      rw [Plain, htokens]
      intro t ht hletterless
      rcases Array.mem_push.1 ht with ht | rfl
      · exact hs t ht hletterless
      · rw [lowerAscii_ofList, s.mode.pieceAt_letterless c rest hkind hletterless]

theorem plain_run {s lexed : Lexer} {cs : List Char} (hs : s.Plain) (h : s.run cs = (lexed, none)) : lexed.Plain := by
  have hkept : Kept fun s _ => s.Plain := fun _ _ _ _ _ hs htake => hs.take htake
  obtain ⟨last, hlast, rfl⟩ := hkept.run hs h
  intro t ht hletterless
  rcases Array.mem_push.1 ht with ht | rfl
  · exact hlast t ht hletterless
  · cases hletterless

theorem plain_read {source : String} {lexed : Lexer} (h : read source = (lexed, none)) : lexed.Plain :=
  plain_run (fun _ ht => absurd ht (Array.not_mem_empty _)) h

end Lexer

end CalExport
