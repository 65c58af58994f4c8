import CalExport.Token.Cursor
import CalExport.Proofs.Lexing.Gap
import CalExport.Proofs.Lexing.Place

namespace CalExport

open Text

def Mode.pass (m : Mode) (kind : Kind) (rest : List Char) : Mode := { m.track kind rest with previous := some kind }

/-- The mode behind a run of tokens of a source, followed over the tokens alone. -/
def modeBehind (source : List Char) (tokens : List Token) : Mode :=
  tokens.foldl (fun m t => m.pass t.kind (behind t.span.stop source)) {}

def reached (p : Position) (tokens : List Token) : Position := tokens.foldl (fun _ t => t.span.stop) p

def gapBefore (source : List Char) (front : List Token) (t : Token) : List Char :=
  Span.cut ⟨reached Position.start front, t.span.start⟩ source

def reassembled (source : List Char) (p : Position) : List Token → List Char
  | [] => []
  | t :: ts => Span.cut ⟨p, t.span.start⟩ source ++ t.text.toList ++ reassembled source t.span.stop ts

structure Lossless (source : String) (tokens : List Token) : Prop where
  ordered : tokens.Pairwise fun t u =>
    t.span.start.offset < u.span.start.offset ∧ t.span.stop.offset ≤ u.span.start.offset
  text : ∀ t ∈ tokens, t.text = t.span.slice source
  placed : ∀ t ∈ tokens, ∃ before rest, source.toList = before ++ t.text.toList ++ rest ∧
    t.span.start = Position.start.after before ∧ t.span.stop = Position.start.after (before ++ t.text.toList)
  fits : ∀ t ∈ tokens, (t.span.start.line < UInt32.size ∧ t.span.start.column < UInt32.size) ∧
    t.span.stop.line < UInt32.size ∧ t.span.stop.column < UInt32.size
  gaps : ∀ front t back, tokens = front ++ t :: back →
    Gap (modeBehind source.toList front).codeDepth (gapBefore source.toList front t)
      (behind t.span.start source.toList)
  eof : ∃ front, tokens = front ++ [⟨.eof, "", Span.point (Position.start.after source.toList)⟩] ∧
    ∀ t ∈ front, t.kind ≠ .eof
  whole : reassembled source.toList Position.start tokens = source.toList

structure Tile (source : List Char) (front : List Token) (done gap : List Char) (t : Token) (rest : List Char) :
    Prop where
  whole : source = done ++ gap ++ t.text.toList ++ rest
  isGap : Gap (modeBehind source front).codeDepth gap (t.text.toList ++ rest)
  span : t.span = ⟨Position.start.after (done ++ gap), Position.start.after (done ++ gap ++ t.text.toList)⟩
  full : ∀ u ∈ front, u.text ≠ ""

inductive Tiled (source : List Char) : List Token → List Char → Prop where
  | nil : Tiled source [] []
  | concat {front : List Token} {done gap rest : List Char} {t : Token} (hfront : Tiled source front done)
      (ht : Tile source front done gap t rest) : Tiled source (front ++ [t]) (done ++ gap ++ t.text.toList)

section

variable {source : List Char} {front back tokens : List Token} {done gap rest : List Char} {t : Token}

theorem Mode.pass_lineIsBlank (m : Mode) (blank : Bool) (kind : Kind) (rest : List Char) :
    Mode.pass { m with lineIsBlank := blank } kind rest = { m.pass kind rest with lineIsBlank := blank } := by
  unfold Mode.pass Mode.track Mode.beginOpensCode
  dsimp only
  split
  · split <;> rfl
  · split <;> rfl
  · rfl
  · split <;> rfl
  · rfl
  · rfl
  · rfl

theorem reached_concat (p : Position) (front : List Token) (t : Token) : reached p (front ++ [t]) = t.span.stop := by
  simp [reached]

theorem modeBehind_concat (source : List Char) (front : List Token) (t : Token) :
    modeBehind source (front ++ [t]) = (modeBehind source front).pass t.kind (behind t.span.stop source) := by
  simp [modeBehind]

theorem reassembled_concat (source : List Char) (p : Position) (front : List Token) (t : Token) :
    reassembled source p (front ++ [t]) =
      reassembled source p front ++ Span.cut ⟨reached p front, t.span.start⟩ source ++ t.text.toList := by
  induction front generalizing p with
  | nil => simp [reassembled, reached]
  | cons u front ih =>
      have htail := ih u.span.stop
      simp only [List.cons_append, reassembled, htail, reached, List.foldl_cons, List.append_assoc]

theorem Tiled.reached_eq (h : Tiled source tokens done) : reached Position.start tokens = Position.start.after done := by
  cases h with
  | nil => rfl
  | concat hfront ht => rw [reached_concat, ht.span]

theorem Tiled.split (h : Tiled source tokens done) (htokens : tokens = front ++ t :: back) :
    ∃ done gap rest, Tiled source front done ∧ Tile source front done gap t rest := by
  induction h generalizing back with
  | nil => simp at htokens
  | concat hfront ht ih =>
      rcases List.eq_nil_or_concat back with rfl | ⟨back, u, rfl⟩
      · obtain ⟨rfl, hlast⟩ := List.append_inj' htokens rfl
        obtain rfl := List.singleton_inj.mp hlast
        exact ⟨_, _, _, hfront, ht⟩
      · rw [List.concat_eq_append, ← List.cons_append, ← List.append_assoc] at htokens
        exact ih (List.append_inj' htokens rfl).1

theorem Tiled.tile_of_mem (h : Tiled source tokens done) (ht : t ∈ tokens) :
    ∃ front done gap rest, Tiled source front done ∧ Tile source front done gap t rest := by
  obtain ⟨front, back, htokens⟩ := List.append_of_mem ht
  exact ⟨front, h.split htokens⟩

namespace Tile

theorem cut_eq (h : Tile source front done gap t rest) : t.span.cut source = t.text.toList := by
  rw [h.span, h.whole]
  exact cut_after (done ++ gap) t.text.toList rest

theorem gapBefore_eq (h : Tile source front done gap t rest) (hfront : Tiled source front done) :
    gapBefore source front t = gap := by
  rw [gapBefore, hfront.reached_eq, h.span, h.whole, List.append_assoc (done ++ gap)]
  exact cut_after done gap (t.text.toList ++ rest)

theorem behind_start (h : Tile source front done gap t rest) : behind t.span.start source = t.text.toList ++ rest := by
  rw [h.span, h.whole, List.append_assoc (done ++ gap)]
  exact behind_after (done ++ gap) (t.text.toList ++ rest)

theorem behind_stop (h : Tile source front done gap t rest) : behind t.span.stop source = rest := by
  rw [h.span, h.whole]
  exact behind_after (done ++ gap ++ t.text.toList) rest

end Tile

theorem Tiled.stop_le (h : Tiled source tokens done) (ht : t ∈ tokens) : t.span.stop.offset ≤ byteCount done := by
  induction h with
  | nil => cases ht
  | concat hfront hlast ih =>
      rcases List.mem_append.mp ht with hmem | hmem
      · have hle := ih hmem
        simp only [byteCount_append]
        omega
      · obtain rfl := List.mem_singleton.mp hmem
        exact Nat.le_of_eq (by rw [hlast.span, offset_start_after])

theorem Tiled.start_lt_stop (h : Tiled source tokens done) (ht : t ∈ tokens) (hfull : t.text ≠ "") :
    t.span.start.offset < t.span.stop.offset := by
  obtain ⟨_, _, _, _, _, htile⟩ := h.tile_of_mem ht
  have hpos : 0 < byteCount t.text.toList := byteCount_pos fun hnil => hfull (String.toList_eq_nil_iff.mp hnil)
  rw [htile.span]
  simp only [offset_start_after, byteCount_append]
  omega

theorem Tiled.ordered (h : Tiled source tokens done) : tokens.Pairwise fun t u =>
    t.span.start.offset < u.span.start.offset ∧ t.span.stop.offset ≤ u.span.start.offset := by
  induction h with
  | nil => exact .nil
  | concat hfront hlast ih =>
      refine List.pairwise_append.mpr ⟨ih, List.pairwise_singleton _ _, ?_⟩
      intro u hu t ht
      obtain rfl := List.mem_singleton.mp ht
      have hlt := hfront.start_lt_stop hu (hlast.full u hu)
      have hle := hfront.stop_le hu
      rw [hlast.span]
      simp only [offset_start_after, byteCount_append]
      omega

theorem Tiled.reassembled_eq (h : Tiled source tokens done) : reassembled source Position.start tokens = done := by
  induction h with
  | nil => rfl
  | concat hfront hlast ih =>
      have hgap := hlast.gapBefore_eq hfront
      rw [gapBefore] at hgap
      rw [reassembled_concat, ih, hgap]

end

namespace Lexer

structure Reading (source : List Char) (s : Lexer) (done gap rest : List Char) : Prop where
  tiled : Tiled source s.tokens.toList done
  whole : source = done ++ gap ++ rest
  isGap : Gap s.mode.codeDepth gap rest
  position : s.position = Position.start.after (done ++ gap)
  mode : s.mode = { modeBehind source s.tokens.toList with lineIsBlank := s.mode.lineIsBlank }
  full : ∀ t ∈ s.tokens.toList, t.text ≠ "" ∧ t.kind ≠ .eof

theorem reading_start (source : String) : Reading source.toList (start source) [] [] source.toList :=
  ⟨.nil, rfl, .nil, rfl, rfl, nofun⟩

section

variable {source : List Char} {s next : Lexer} {piece : Piece} {cs done gap rest : List Char}

theorem tokens_finish (s : Lexer) :
    s.finish.tokens.toList = s.tokens.toList ++ [⟨.eof, "", Span.point s.position⟩] := Array.toList_push

theorem tokens_comment (s : Lexer) (inBraces closed : Bool) (span : Span) :
    (s.comment inBraces closed span).tokens = s.tokens := by
  unfold comment
  split <;> rfl

theorem tokens_token (s : Lexer) (kind : Kind) (text : String) (span : Span) :
    (s.token kind text span).tokens = s.tokens.push ⟨kind, text, span⟩ := by
  unfold token
  split
  · split <;> rfl
  · rfl
  · rfl

theorem tokens_string {closed : Bool} {text : String} {span : Span} (h : s.string closed text span = .ok next) :
    next.tokens = s.tokens.push ⟨.string, text, span⟩ := by
  unfold string at h
  split at h
  · cases h
  · split at h <;> cases h <;> rfl

theorem take_of_gap (hkind : piece.content.kind? = none) (h : s.take piece cs rest = .ok next) :
    next.tokens = s.tokens ∧ next.position = s.position.after cs ∧
      next.mode = { s.mode with lineIsBlank := next.mode.lineIsBlank } := by
  obtain ⟨content, more⟩ := piece
  cases content with
  | blank =>
      cases h
      exact ⟨rfl, rfl, rfl⟩
  | comment inBraces closed =>
      cases h
      exact ⟨tokens_comment _ _ _ _, rfl, rfl⟩
  | token kind => cases hkind
  | string closed => cases hkind

theorem take_of_token {kind : Kind} (hkind : piece.content.kind? = some kind)
    (h : s.take piece cs rest = .ok next) :
    next.tokens = s.tokens.push ⟨kind, String.ofList cs, ⟨s.position, s.position.after cs⟩⟩ ∧
      next.position = s.position.after cs ∧
      next.mode = { s.mode.pass kind rest with lineIsBlank := next.mode.lineIsBlank } := by
  obtain ⟨content, more⟩ := piece
  cases content with
  | blank => cases hkind
  | comment inBraces closed => cases hkind
  | token κ =>
      cases hkind
      cases h
      exact ⟨tokens_token _ _ _ _, rfl, rfl⟩
  | string closed =>
      cases hkind
      rw [take] at h
      cases hstring : s.string closed (String.ofList cs) ⟨s.position, s.position.after cs⟩ with
      | error e =>
          dsimp only at h
          rw [hstring] at h
          cases h
      | ok recorded =>
          dsimp only at h
          rw [hstring] at h
          cases h
          have htokens := tokens_string hstring
          exact ⟨htokens, rfl, rfl⟩

/-- White space or a comment makes the gap longer. -/
theorem Reading.gap_step (hs : Reading source s done gap (cs ++ rest)) (hcs : Gap s.mode.codeDepth cs rest)
    (hkind : piece.content.kind? = none) (h : s.take piece cs rest = .ok next) :
    Reading source next done (gap ++ cs) rest := by
  obtain ⟨htokens, hposition, hmode⟩ := take_of_gap hkind h
  refine ⟨?_, ?_, ?_, ?_, ?_, ?_⟩
  · rw [htokens]
    exact hs.tiled
  · rw [hs.whole]
    simp only [List.append_assoc]
  · have hdepth : next.mode.codeDepth = s.mode.codeDepth := by rw [hmode]
    rw [hdepth]
    exact hs.isGap.append hcs
  · rw [hposition, hs.position, ← Position.after_append, List.append_assoc]
  · rw [hmode, hs.mode, htokens]
  · rw [htokens]
    exact hs.full

/-- A token closes the gap in front of it, and the next gap begins. -/
theorem Reading.token_step {kind : Kind} (hs : Reading source s done gap (cs ++ rest)) (hcs : cs ≠ [])
    (heof : kind ≠ .eof) (hkind : piece.content.kind? = some kind) (h : s.take piece cs rest = .ok next) :
    Reading source next (done ++ gap ++ cs) [] rest := by
  obtain ⟨htokens, hposition, hmode⟩ := take_of_token hkind h
  generalize ht : (⟨kind, String.ofList cs, ⟨s.position, s.position.after cs⟩⟩ : Token) = t at htokens
  have htext : t.text.toList = cs := by rw [← ht, String.toList_ofList]
  have htile : Tile source s.tokens.toList done gap t rest := by
    refine ⟨?_, ?_, ?_, fun u hu => (hs.full u hu).1⟩
    · rw [htext, hs.whole, List.append_assoc (done ++ gap)]
    · have hgap := hs.isGap
      rw [hs.mode] at hgap
      rwa [htext]
    · rw [htext, ← ht, hs.position, ← Position.after_append]
  have hlist : next.tokens.toList = s.tokens.toList ++ [t] := by rw [htokens, Array.toList_push]
  refine ⟨?_, ?_, .nil, ?_, ?_, ?_⟩
  · rw [hlist, ← htext]
    exact .concat hs.tiled htile
  · rw [hs.whole]
    simp only [List.append_assoc, List.append_nil]
  · rw [hposition, hs.position, ← Position.after_append, List.append_nil]
  · rw [hlist, modeBehind_concat, htile.behind_stop, hmode, hs.mode, Mode.pass_lineIsBlank, ← ht]
  · intro u hu
    rw [hlist] at hu
    rcases List.mem_append.mp hu with hmem | hmem
    · exact hs.full u hmem
    · obtain rfl := List.mem_singleton.mp hmem
      refine ⟨?_, by rwa [← ht]⟩
      intro hempty
      rw [hempty] at htext
      exact hcs htext.symm

def Kept (P : Lexer → List Char → Prop) : Prop :=
  ∀ s c rest next, s.tokens.size < maxTokenCount → P s (c :: rest) →
    s.take (s.mode.pieceAt c rest) (c :: rest.take (s.mode.pieceAt c rest).more)
      (rest.drop (s.mode.pieceAt c rest).more) = .ok next →
    P next (rest.drop (s.mode.pieceAt c rest).more)

/-- What every piece keeps holds at the end of the text. -/
theorem Kept.run {P : Lexer → List Char → Prop} {lexed : Lexer} (hP : Kept P) (hs : P s cs)
    (h : s.run cs = (lexed, none)) : ∃ last, P last [] ∧ lexed = last.finish := by
  fun_induction Lexer.run s cs with
  | case1 s => exact ⟨s, hs, (congrArg Prod.fst h).symm⟩
  | case2 => cases h
  | case3 s c rest hroom piece behind next =>
      rename_i htake ih
      exact ih (hP s c rest next (Nat.lt_of_not_le hroom) hs htake) h
  | case4 => cases h

theorem kept_reading (source : List Char) : Kept fun s cs => ∃ done gap, Reading source s done gap cs := by
  rintro s c rest next - ⟨done, gap, hs⟩ htake
  have hrest : c :: rest =
      (c :: rest.take (s.mode.pieceAt c rest).more) ++ rest.drop (s.mode.pieceAt c rest).more := by
    rw [List.cons_append, List.take_append_drop]
  rw [hrest] at hs
  cases hkind : (s.mode.pieceAt c rest).content.kind? with
  | none => exact ⟨_, _, hs.gap_step (Mode.gap_of_pieceAt hkind) hkind htake⟩
  | some kind => exact ⟨_, _, hs.token_step (List.cons_ne_nil _ _) (Mode.kind_of_pieceAt hkind) hkind htake⟩

theorem reading_run {lexed : Lexer} (hs : Reading source s done gap cs) (h : s.run cs = (lexed, none)) :
    ∃ s done gap, Reading source s done gap [] ∧ lexed = s.finish := by
  obtain ⟨last, ⟨done, gap, hlast⟩, hfinish⟩ := (kept_reading source).run ⟨done, gap, hs⟩ h
  exact ⟨last, done, gap, hlast, hfinish⟩

end

end Lexer

theorem tokenize_eq_ok {source : String} {tokens : Array Token} {metrics : Metrics}
    (h : tokenize source = .ok (tokens, metrics)) :
    ∃ lexed, Lexer.read source = (lexed, none) ∧ lexed.tokens = tokens := by
  unfold tokenize at h
  split at h
  · rename_i lexed hread
    cases h
    exact ⟨lexed, hread, rfl⟩
  · cases h

/-- All tokens of a source with the end of the input tile it. -/
theorem tiled_of_tokenize {source : String} {tokens : Array Token} {metrics : Metrics}
    (h : tokenize source = .ok (tokens, metrics)) :
    ∃ front, tokens.toList = front ++ [⟨.eof, "", Span.point (Position.start.after source.toList)⟩] ∧
      (∀ t ∈ front, t.kind ≠ .eof) ∧ Tiled source.toList tokens.toList source.toList := by
  obtain ⟨lexed, hread, rfl⟩ := tokenize_eq_ok h
  obtain ⟨s, done, gap, hs, rfl⟩ := Lexer.reading_run (Lexer.reading_start source) hread
  have hwhole : source.toList = done ++ gap := by rw [hs.whole, List.append_nil]
  have hposition : s.position = Position.start.after source.toList := by rw [hs.position, hwhole]
  have htokens := s.tokens_finish
  have hlast : Tile source.toList s.tokens.toList done gap ⟨.eof, "", Span.point s.position⟩ [] := by
    refine ⟨?_, ?_, ?_, fun u hu => (hs.full u hu).1⟩
    · rw [hwhole, String.toList_empty, List.append_nil, List.append_nil]
    · have hgap := hs.isGap
      rw [hs.mode] at hgap
      exact hgap
    · rw [String.toList_empty, List.append_nil, ← hs.position, Span.point]
  refine ⟨s.tokens.toList, ?_, fun t ht => (hs.full t ht).2, ?_⟩
  · rw [htokens, hposition]
  · have htiled := Tiled.concat hs.tiled hlast
    rwa [String.toList_empty, List.append_nil, ← hwhole, ← htokens] at htiled

/-- The end of the input is left out of the tokens that a parser goes over. -/
theorem Cursor.tokens_ofTokens {tokens : Array Token} {front : List Token} {last : Token}
    (htokens : tokens.toList = front ++ [last]) (hlast : last.kind = .eof) (hfront : ∀ x ∈ front, x.kind ≠ .eof) :
    (Cursor.ofTokens tokens).tokens.toList = front := by
  have hself : front.filter (fun x => decide (x.kind ≠ .eof)) = front :=
    List.filter_eq_self.mpr fun x hx => decide_eq_true (hfront x hx)
  rw [Cursor.ofTokens, Array.toList_filter, htokens, List.filter_append, hself]
  simp [hlast]

theorem place_fits {source : String} {before : List Char} (hsize : source.length < UInt32.size - 1)
    (h : before <+: source.toList) :
    (Position.start.after before).line < UInt32.size ∧ (Position.start.after before).column < UInt32.size := by
  have hlength : before.length ≤ source.length := by
    rw [← String.length_toList]
    exact h.length_le
  have hline := Position.line_after_le Position.start before
  have hcolumn := Position.column_after_le Position.start before (Nat.le_refl 1)
  simp only [Position.start, UInt32.size] at *
  omega

/-- Reading loses nothing: the tokens of a source and the gaps between them are the source, each at its place. -/
theorem lossless_lexing (source : String) (hsize : source.length < UInt32.size - 1) {tokens : Array Token}
    {metrics : Metrics} (h : tokenize source = .ok (tokens, metrics)) : Lossless source tokens.toList := by
  obtain ⟨front, heof, hkinds, htiled⟩ := tiled_of_tokenize h
  refine ⟨htiled.ordered, ?_, ?_, ?_, ?_, ⟨front, heof, hkinds⟩, htiled.reassembled_eq⟩
  · intro t ht
    obtain ⟨_, _, _, _, _, htile⟩ := htiled.tile_of_mem ht
    rw [Span.slice, htile.cut_eq, String.ofList_toList]
  · intro t ht
    obtain ⟨_, done, gap, rest, _, htile⟩ := htiled.tile_of_mem ht
    exact ⟨done ++ gap, rest, htile.whole, by rw [htile.span], by rw [htile.span]⟩
  · intro t ht
    obtain ⟨_, done, gap, rest, _, htile⟩ := htiled.tile_of_mem ht
    have hstop : done ++ gap ++ t.text.toList <+: source.toList := ⟨rest, htile.whole.symm⟩
    have hstart : done ++ gap <+: source.toList := (List.prefix_append _ _).trans hstop
    rw [htile.span]
    exact ⟨place_fits hsize hstart, place_fits hsize hstop⟩
  · intro front t back htokens
    obtain ⟨done, gap, rest, hfront, htile⟩ := htiled.split htokens
    rw [htile.gapBefore_eq hfront, htile.behind_start]
    exact htile.isGap

theorem lossless_lexing_in_code :
    ∃ tokens metrics, tokenize "v=VAR BEGIN\x7bé\x7da(*\n*)END" = .ok (tokens, metrics) ∧ tokens.size = 7 ∧
      Lossless "v=VAR BEGIN\x7bé\x7da(*\n*)END" tokens.toList := by
  have hsize : (tokenize "v=VAR BEGIN\x7bé\x7da(*\n*)END").toOption.map (·.1.size) = some 7 := by decide +kernel
  cases h : tokenize "v=VAR BEGIN\x7bé\x7da(*\n*)END" with
  | error e =>
      rw [h] at hsize
      cases hsize
  | ok lexed =>
      rw [h] at hsize
      exact ⟨lexed.1, lexed.2, rfl, Option.some.inj hsize, lossless_lexing _ (by decide) h⟩

end CalExport
