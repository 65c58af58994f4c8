import CalExport.Proofs.Lexing.Lossless
import CalExport.Proofs.RawText

namespace CalExport

open Text

variable {source : List Char} {front back more tokens : List Token} {t u : Token} {done : List Char}

def gapBetween (source : List Char) (t u : Token) : List Char := Span.cut ⟨t.span.stop, u.span.start⟩ source

def withGaps (source : List Char) (between : List Char → List Char) : List Token → List Char
  | [] => []
  | [t] => t.text.toList
  | t :: u :: rest => t.text.toList ++ between (gapBetween source t u) ++ withGaps source between (u :: rest)

def oneSpace (gap : List Char) : List Char := if gap = [] then [] else [' ']

/-- A text is made of tokens of a source: with the gaps as they are they are a slice of the source, the gaps are white
space and comments, and the text has one space for each of them. -/
structure Normalised (source : List Char) (tokens : List Token) (text : String) : Prop where
  slice : ∀ first ∈ tokens.head?, ∀ last ∈ tokens.getLast?,
    Span.cut ⟨first.span.start, last.span.stop⟩ source = withGaps source id tokens
  gaps : ∀ front t u back, tokens = front ++ t :: u :: back →
    ∃ depth, Gap depth (gapBetween source t u) (behind u.span.start source)
  text : text.toList = withGaps source oneSpace tokens

theorem reassembled_append (source : List Char) (p : Position) (front back : List Token) :
    reassembled source p (front ++ back) =
      reassembled source p front ++ reassembled source (reached p front) back := by
  induction front generalizing p with
  | nil => rfl
  | cons t front ih =>
      have hreached : reached p (t :: front) = reached t.span.stop front := rfl
      rw [List.cons_append, reassembled, ih, reassembled, hreached, List.append_assoc, List.append_assoc,
        List.append_assoc]

theorem withGaps_id (source : List Char) (t : Token) (more : List Token) :
    withGaps source id (t :: more) = t.text.toList ++ reassembled source t.span.stop more := by
  induction more generalizing t with
  | nil => rw [withGaps, reassembled, List.append_nil]
  | cons u more ih => rw [withGaps, ih, reassembled, gapBetween, id, List.append_assoc, List.append_assoc]

/-- Every front of the tokens tiles a front of the source. -/
theorem Tiled.of_append (h : Tiled source tokens done) (htokens : tokens = front ++ back) :
    ∃ covered rest, Tiled source front covered ∧ source = covered ++ rest := by
  rcases List.eq_nil_or_concat front with rfl | ⟨front, t, rfl⟩
  · exact ⟨[], source, .nil, rfl⟩
  · rw [List.concat_eq_append, List.append_assoc] at htokens
    obtain ⟨covered, gap, rest, hfront, htile⟩ := h.split htokens
    rw [List.concat_eq_append]
    exact ⟨_, rest, .concat hfront htile, htile.whole⟩

theorem cut_tokens (h : Tiled source tokens done) (htokens : tokens = front ++ t :: more ++ back) {last : Token}
    (hlast : last ∈ (t :: more).getLast?) :
    Span.cut ⟨t.span.start, last.span.stop⟩ source = withGaps source id (t :: more) := by
  obtain ⟨covered, gap, _, hfront, htile⟩ := h.split (by rw [htokens, List.append_assoc]; rfl)
  obtain ⟨whole, rest, hwhole, hsource⟩ := h.of_append htokens
  have hstop : last.span.stop = Position.start.after whole := by
    obtain ⟨init, hinit⟩ := List.getLast?_eq_some_iff.1 hlast
    rw [← hwhole.reached_eq, hinit, ← List.append_assoc, reached_concat]
  have hcovered : whole = covered ++ gap ++ withGaps source id (t :: more) := by
    have hgap := htile.gapBefore_eq hfront
    rw [gapBefore, hfront.reached_eq] at hgap
    rw [← hwhole.reassembled_eq, reassembled_append, hfront.reassembled_eq, hfront.reached_eq, reassembled, hgap,
      withGaps_id, List.append_assoc, List.append_assoc]
  have hcut := cut_after (covered ++ gap) (withGaps source id (t :: more)) rest
  rw [← hcovered, ← hsource] at hcut
  rw [hstop, htile.span]
  exact hcut

theorem gapBetween_eq (source : List Char) (front : List Token) (t u : Token) :
    gapBetween source t u = gapBefore source (front ++ [t]) u := by
  rw [gapBetween, gapBefore, reached_concat]

/-- Two tokens touch where there is no gap between them. -/
theorem follows_iff (h : Tiled source tokens done) (htokens : tokens = front ++ t :: u :: back) :
    u.follows t = true ↔ gapBetween source t u = [] := by
  have hsplit : tokens = (front ++ [t]) ++ u :: back := by rw [htokens, List.append_assoc]; rfl
  obtain ⟨covered, gap, rest, hfront, htile⟩ := h.split hsplit
  have hstop : t.span.stop = Position.start.after covered := by rw [← hfront.reached_eq, reached_concat]
  rw [gapBetween_eq source front, htile.gapBefore_eq hfront, Token.follows, beq_iff_eq, hstop, htile.span,
    offset_start_after, offset_start_after, byteCount_append]
  refine ⟨?_, fun hgap => by rw [hgap, byteCount_nil, Nat.add_zero]⟩
  intro heq
  cases gap with
  | nil => rfl
  | cons c cs =>
      have hpos := byteCount_pos (List.cons_ne_nil c cs)
      omega

theorem gap_between (h : Tiled source tokens done) (htokens : tokens = front ++ t :: u :: back) :
    ∃ depth, Gap depth (gapBetween source t u) (behind u.span.start source) := by
  have hsplit : tokens = (front ++ [t]) ++ u :: back := by rw [htokens, List.append_assoc]; rfl
  obtain ⟨covered, gap, rest, hfront, htile⟩ := h.split hsplit
  rw [gapBetween_eq source front, htile.gapBefore_eq hfront, htile.behind_start]
  exact ⟨_, htile.isGap⟩

theorem joinTokens_go (text : String) (t : Token) (hfollows : ∀ front x y back, t :: more = front ++ x :: y :: back →
    (y.follows x = true ↔ gapBetween source x y = [])) :
    (joinTokens.go (text ++ t.text) t more).toList = text.toList ++ withGaps source oneSpace (t :: more) := by
  induction more generalizing t text with
  | nil => rw [joinTokens.go, String.toList_append, withGaps]
  | cons u more ih =>
      have hfirst := hfollows [] t u more rfl
      have hrest := fun text => ih text u fun front x y back hsplit =>
        hfollows (t :: front) x y back (congrArg (t :: ·) hsplit)
      rw [joinTokens.go, withGaps, oneSpace]
      by_cases htouch : u.follows t = true
      · rw [if_pos htouch, hrest, if_pos (hfirst.1 htouch), String.toList_append]
        simp
      · rw [if_neg htouch, hrest, if_neg (mt hfirst.2 htouch), String.toList_append, String.toList_append]
        simp

theorem joinTokens_eq (hfollows : ∀ front x y back, tokens = front ++ x :: y :: back →
    (y.follows x = true ↔ gapBetween source x y = [])) :
    (joinTokens tokens).toList = withGaps source oneSpace tokens := by
  cases tokens with
  | nil => rfl
  | cons t more =>
      have hgo := joinTokens_go "" t hfollows
      rwa [String.toList_empty, List.nil_append, String.empty_append] at hgo

/-- Tokens that stand next to each other in a source, joined. -/
theorem normalised_joinTokens {taken : List Token} (h : Tiled source tokens done)
    (htokens : tokens = front ++ taken ++ back) : Normalised source taken (joinTokens taken) := by
  have hnext : ∀ first x y last, taken = first ++ x :: y :: last →
      tokens = (front ++ first) ++ x :: y :: (last ++ back) := by
    rintro first x y last rfl
    rw [htokens]
    simp
  refine ⟨?_, ?_, ?_⟩
  · intro t ht last hlast
    obtain ⟨more, rfl⟩ := List.head?_eq_some_iff.1 ht
    exact cut_tokens h htokens hlast
  · intro first x y last htaken
    exact gap_between h (hnext first x y last htaken)
  · exact joinTokens_eq fun first x y last htaken => follows_iff h (hnext first x y last htaken)

namespace Rule

/-- What a parser over the tokens of a source has in front of it, among these tokens. -/
theorem tokens_around_ahead {source : String} {tokens : Array Token} {metrics : Metrics}
    (h : tokenize source = .ok (tokens, metrics)) {s : Parser} (hs : s.tokens = (Cursor.ofTokens tokens).tokens) :
    ∃ passed last, tokens.toList = passed ++ ahead s ++ [last] := by
  obtain ⟨front, hall, hkinds, -⟩ := tiled_of_tokenize h
  have hkept : s.tokens.toList = front := by
    rw [hs]
    exact Cursor.tokens_ofTokens hall rfl hkinds
  exact ⟨front.take s.position, _, by rw [ahead, hkept, List.take_append_drop, hall]⟩

/-- For every source that can be read, every state of a parser over its tokens and every property that is read there
with raw text as its value: the tokens behind the equals sign up to the first semicolon or closing brace outside all
brackets opened on the way, or up to the end of the input, are the value's, and the value is the source from the first
to the last of them with one space for every gap. -/
theorem raw_value_from_source {source : String} {tokens : Array Token} {metrics : Metrics}
    (h : tokenize source = .ok (tokens, metrics)) {s u : Parser} (hs : s.tokens = (Cursor.ofTokens tokens).tokens)
    {p : Property} {text : String} (hrun : property s = (.ok p, u)) (htext : p.value = .text text) :
    ∃ name equal taken rest, ahead s = name ++ equal :: (taken ++ rest) ∧ equal.kind = .equal ∧
      (∀ x ∈ name, x.kind ≠ .equal) ∧ RawExtent taken rest ∧ Normalised source.toList taken text := by
  obtain ⟨name, equal, behind, hsplit, hequal, hname, rfl⟩ := property_of_text hrun htext
  obtain ⟨rest, hbehind, hextent⟩ := rawText_extent behind
  obtain ⟨_, -, -, htiled⟩ := tiled_of_tokenize h
  obtain ⟨passed, last, hall⟩ := tokens_around_ahead h hs
  have hfront : ahead s = name ++ equal :: (rawText behind ++ rest) := hbehind ▸ hsplit
  refine ⟨name, equal, rawText behind, rest, hfront, hequal, ?_, hextent, ?_⟩
  · intro x hx heq
    have hends := hname x hx
    rw [heq] at hends
    cases hends
  · have hwhole : tokens.toList = (passed ++ (name ++ [equal])) ++ rawText behind ++ (rest ++ [last]) := by
      rw [hall, hfront]
      simp
    exact normalised_joinTokens htiled hwhole

def rawValueOf (source : String) : Option String := do
  let lexed ← (tokenize source).toOption
  let p ← (property (.ofTokens lexed.1 {})).1.toOption
  match p.value with
  | .text text => some text
  | .trigger .. => none

theorem exists_of_rawValueOf {source text : String} (h : rawValueOf source = some text) :
    ∃ tokens metrics p u, tokenize source = .ok (tokens, metrics) ∧
      property (.ofTokens tokens {}) = (.ok p, u) ∧ p.value = .text text := by
  unfold rawValueOf at h
  cases hlexed : tokenize source with
  | error e =>
      rw [hlexed] at h
      cases h
  | ok lexed =>
      rw [hlexed] at h
      rcases hrun : property (.ofTokens lexed.1 {}) with ⟨fault | p, u⟩
      · simp [Except.toOption, hrun] at h
      · refine ⟨lexed.1, lexed.2, p, u, rfl, hrun, ?_⟩
        cases hvalue : p.value with
        | text found => simpa [Except.toOption, hrun, hvalue] using h
        | trigger locals body => simp [Except.toOption, hrun, hvalue] at h

theorem raw_value_from_source_brackets : ∃ tokens metrics name equal taken rest,
    tokenize "A=No.  [a;(*c*)b]\x7d" = .ok (tokens, metrics) ∧
      ahead (.ofTokens tokens {}) = name ++ equal :: (taken ++ rest) ∧ RawExtent taken rest ∧
      Normalised "A=No.  [a;(*c*)b]\x7d".toList taken "No. [a; b]" := by
  have hvalue : rawValueOf "A=No.  [a;(*c*)b]\x7d" = some "No. [a; b]" := by decide +kernel
  obtain ⟨tokens, metrics, p, u, hlexed, hrun, htext⟩ := exists_of_rawValueOf hvalue
  obtain ⟨name, equal, taken, rest, hsplit, -, -, hextent, hnormal⟩ :=
    raw_value_from_source hlexed rfl hrun htext
  exact ⟨tokens, metrics, name, equal, taken, rest, hlexed, hsplit, hextent, hnormal⟩

end Rule

end CalExport
