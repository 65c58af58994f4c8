import CalExport.Proofs.Layout.Document
import CalExport.Proofs.Lexing.Lossless
import CalExport.Analysis

namespace CalExport

open Text Rule

/-- A span from one place between two characters of the source to another. -/
structure Slices (source : String) (span : Span) : Prop where
  ordered : span.start.offset ≤ span.stop.offset
  inside : span.stop.offset ≤ byteCount source.toList
  cut : ∃ before slice rest, source.toList = before ++ slice ++ rest ∧ span.start.offset = byteCount before ∧
    span.stop.offset = byteCount (before ++ slice) ∧ span.slice source = String.ofList slice

/-- From the start of a token to the end of one; or without width, at the start of a token, behind the last one or, where
there is none, at the end of the input. -/
def OnTokens (all : Array Token) (span : Span) : Prop :=
  let tokens := all.filter fun t => t.kind ≠ .eof
  (∃ t ∈ tokens, ∃ u ∈ tokens, span = ⟨t.span.start, u.span.stop⟩) ∨ (∃ t ∈ tokens, span = Span.point t.span.start) ∨
    (∃ t, tokens.back? = some t ∧ span = Span.point t.span.stop) ∨
    (tokens = #[] ∧ ∃ t ∈ all, span = Span.point t.span.start)

/-- The children of a node with a width lie inside of it, and stand behind each other in every list. -/
structure Nested (n : Outline) : Prop where
  inside : ∀ list ∈ n.lists, ∀ child ∈ list, child.span.isEmpty = false → n.span.contains child.span = true
  ordered : ∀ list ∈ n.lists, list.Pairwise fun a b => a.span.stop.offset ≤ b.span.start.offset

section

variable {c : Cursor} {lo hi i j : Nat} {list : List Outline} {o n : Outline}

theorem Cursor.tokenAt_of_size_le (h : c.tokens.size ≤ i) : c.tokenAt i = c.eof := by
  rw [Cursor.tokenAt, Array.getElem?_eq_none h, Option.getD_none]

theorem Cursor.mem_tokenAt (h : i < c.tokens.size) : c.tokenAt i ∈ c.tokens := by
  rw [Cursor.tokenAt, Array.getElem?_eq_getElem h, Option.getD_some]
  exact Array.getElem_mem h

theorem Cursor.InOrder.start_le_stop (hc : c.InOrder) (i : Nat) :
    (c.tokenAt i).span.start.offset ≤ (c.tokenAt i).span.stop.offset := by
  rcases Nat.lt_or_ge i c.tokens.size with hi | hi
  · exact Nat.le_of_lt (hc.start_lt_stop hi)
  · have hpoint : (c.tokenAt i).span.start = (c.tokenAt i).span.stop := by
      rw [Cursor.tokenAt_of_size_le hi, hc.eof_point]
    exact Nat.le_of_eq (congrArg Position.offset hpoint)

theorem Cursor.InOrder.start_mono (hc : c.InOrder) (hij : i ≤ j) :
    (c.tokenAt i).span.start.offset ≤ (c.tokenAt j).span.start.offset := by
  rcases Nat.lt_or_eq_of_le hij with hlt | rfl
  · rcases Nat.lt_or_ge i c.tokens.size with hi | hi
    · exact Nat.le_trans (Nat.le_of_lt (hc.start_lt_stop hi)) (hc.stop_le_start hlt hi)
    · have heq : c.tokenAt i = c.tokenAt j := by
        rw [Cursor.tokenAt_of_size_le hi, Cursor.tokenAt_of_size_le (Nat.le_trans hi hij)]
      exact Nat.le_of_eq (by rw [heq])
  · exact Nat.le_refl _

theorem Cursor.InOrder.stop_mono (hc : c.InOrder) (hij : i ≤ j) :
    (c.tokenAt i).span.stop.offset ≤ (c.tokenAt j).span.stop.offset := by
  rcases Nat.lt_or_eq_of_le hij with hlt | rfl
  · rcases Nat.lt_or_ge i c.tokens.size with hi | hi
    · exact Nat.le_trans (hc.stop_le_start hlt hi) (hc.start_le_stop j)
    · have heq : c.tokenAt i = c.tokenAt j := by
        rw [Cursor.tokenAt_of_size_le hi, Cursor.tokenAt_of_size_le (Nat.le_trans hi hij)]
      exact Nat.le_of_eq (by rw [heq])
  · exact Nat.le_refl _

/-- Nothing in a row begins before the row. -/
theorem Row.start_le (h : Row c lo hi list) (hc : c.InOrder) (ho : o ∈ list) :
    (c.tokenAt lo).span.start.offset ≤ o.span.start.offset := by
  induction h with
  | nil => cases ho
  | filled hi hij _ _ _ _ _ ih =>
      rcases List.mem_cons.1 ho with rfl | ho
      · exact hc.start_mono hi
      · exact Nat.le_trans (hc.start_mono (by omega)) (ih ho)
  | point hi _ _ ih =>
      rcases List.mem_cons.1 ho with rfl | ho
      · exact hc.start_mono hi
      · exact Nat.le_trans (hc.start_mono hi) (ih ho)

/-- What has a width ends before the end of the row. -/
theorem Row.stop_le (h : Row c lo hi list) (hc : c.InOrder) (ho : o ∈ list) (hwidth : o.span.isEmpty = false) :
    o.span.stop.offset ≤ (c.tokenAt (hi - 1)).span.stop.offset := by
  induction h with
  | nil => cases ho
  | filled _ _ hj _ _ _ _ ih =>
      rcases List.mem_cons.1 ho with rfl | ho
      · exact hc.stop_mono (by omega)
      · exact ih ho
  | point _ _ _ ih =>
      rcases List.mem_cons.1 ho with rfl | ho
      · simp [Outline.span, Span.isEmpty, Span.point] at hwidth
      · exact ih ho

theorem Row.pairwise (h : Row c lo hi list) (hc : c.InOrder) :
    list.Pairwise fun a b => a.span.stop.offset ≤ b.span.start.offset := by
  induction h with
  | nil => exact .nil
  | filled _ _ _ hsize _ hrest _ ih =>
      refine List.Pairwise.cons ?_ ih
      intro b hb
      exact Nat.le_trans (hc.stop_le_start (Nat.lt_succ_self _) hsize) (hrest.start_le hc hb)
  | point _ _ hrest ih => exact List.Pairwise.cons (fun b hb => hrest.start_le hc hb) ih

/-- What is known of every node of a row. -/
structure Seated (c : Cursor) (n : Outline) : Prop where
  place : (∃ i j, i ≤ j ∧ j < c.tokens.size ∧ n.span = c.over i j) ∨ ∃ i, n.span = Span.point (c.tokenAt i).span.start
  nested : Nested n

/-- Every node of a row, and all that stands below it, is in its place. -/
theorem Row.seated (h : Row c lo hi list) (hc : c.InOrder) (ho : o ∈ list) (hn : o.Holds n) : Seated c n := by
  induction h generalizing o n with
  | nil => cases ho
  | filled hi hij _ hsize hlists _ ihlists ih =>
      rcases List.mem_cons.1 ho with rfl | ho
      · cases hn with
        | self =>
            refine ⟨.inl ⟨_, _, hij, hsize, rfl⟩, ?_, fun list hlist => (hlists list hlist).pairwise hc⟩
            intro list hlist child hchild hwidth
            have hstart := (hlists list hlist).start_le hc hchild
            have hstop := (hlists list hlist).stop_le hc hchild hwidth
            simp only [Span.contains, Bool.and_eq_true, decide_eq_true_eq]
            exact ⟨hstart, hstop⟩
        | inside hlist hchild hn => exact ihlists _ hlist hchild hn
      · exact ih ho hn
  | point _ _ _ ih =>
      rcases List.mem_cons.1 ho with rfl | ho
      · cases hn with
        | self => exact ⟨.inr ⟨_, rfl⟩, List.forall_mem_nil _, List.forall_mem_nil _⟩
        | inside hlist => cases hlist
      · exact ih ho hn

end

section

variable {source : String} {tokens : Array Token} {metrics : Metrics} {p q : Position}

def IsPlace (source : String) (p : Position) : Prop := ∃ before rest, source.toList = before ++ rest ∧
  p = Position.start.after before

/-- Of two fronts of one text the shorter one is a front of the other. -/
theorem prefix_of_byteCount_le {text front front' : List Char} (h : front <+: text) (h' : front' <+: text)
    (hle : byteCount front ≤ byteCount front') : front <+: front' := by
  rcases List.prefix_or_prefix_of_prefix h h' with hprefix | ⟨more, rfl⟩
  · exact hprefix
  · cases more with
    | nil => simp
    | cons c more =>
        have hpos := c.utf8Size_pos
        simp only [byteCount_append, byteCount_cons] at hle
        omega

theorem slices_of_places (hp : IsPlace source p) (hq : IsPlace source q) (hpq : p.offset ≤ q.offset) :
    Slices source ⟨p, q⟩ := by
  obtain ⟨before, rest, hsource, rfl⟩ := hp
  obtain ⟨front, rest', hsource', rfl⟩ := hq
  rw [offset_start_after, offset_start_after] at hpq
  obtain ⟨slice, rfl⟩ := prefix_of_byteCount_le ⟨rest, hsource.symm⟩ ⟨rest', hsource'.symm⟩ hpq
  refine ⟨by simp [offset_start_after], by simp [offset_start_after, hsource'], before, slice, rest', hsource',
    offset_start_after _, offset_start_after _, ?_⟩
  rw [Span.slice, hsource', cut_after]

/-- The tokens of a source as a cursor has them: the end of the input stands behind the last one, or where the source
ends. -/
structure OfSource (source : String) (c : Cursor) : Prop where
  places : ∀ t ∈ c.tokens, IsPlace source t.span.start ∧ IsPlace source t.span.stop
  widths : ∀ t ∈ c.tokens, t.span.start.offset < t.span.stop.offset
  ordered : c.tokens.toList.Pairwise fun t u => t.span.stop.offset ≤ u.span.start.offset
  eof : c.eof.span = Span.point ((c.tokens.back?.map (·.span.stop)).getD (Position.start.after source.toList))

theorem ofSource_of_tokenize (h : tokenize source = .ok (tokens, metrics)) :
    OfSource source (Cursor.ofTokens tokens) ∧
      ∃ t ∈ tokens, t.kind = .eof ∧ t.span = Span.point (Position.start.after source.toList) := by
  obtain ⟨front, htokens, hkinds, htiled⟩ := tiled_of_tokenize h
  have hfront : (Cursor.ofTokens tokens).tokens = front.toArray := by
    apply Array.toList_inj.1
    exact Cursor.tokens_ofTokens htokens rfl hkinds
  have hmem : ∀ t ∈ front, t ∈ tokens.toList := fun t ht => htokens ▸ List.mem_append_left _ ht
  obtain ⟨_, _, _, -, hlast⟩ := htiled.split htokens
  refine ⟨⟨?_, ?_, ?_, ?_⟩, ?_⟩
  · intro t ht
    rw [hfront, List.mem_toArray] at ht
    obtain ⟨_, done, gap, rest, -, htile⟩ := htiled.tile_of_mem (hmem t ht)
    rw [htile.span]
    exact ⟨⟨done ++ gap, t.text.toList ++ rest, by rw [htile.whole, List.append_assoc], rfl⟩,
      ⟨done ++ gap ++ t.text.toList, rest, htile.whole, rfl⟩⟩
  · intro t ht
    rw [hfront, List.mem_toArray] at ht
    exact htiled.start_lt_stop (hmem t ht) (hlast.full t ht)
  · rw [hfront]
    have hordered := htiled.ordered
    rw [htokens] at hordered
    exact (List.pairwise_append.1 hordered).1.imp fun h => h.2
  · have heof : (Cursor.ofTokens tokens).eof = Token.endAfter
        ((((Cursor.ofTokens tokens).tokens.back? <|> tokens.back?).map Token.span).getD Span.origin) := rfl
    rw [heof, hfront]
    have hall : tokens = (front ++
        [(⟨.eof, "", Span.point (Position.start.after source.toList)⟩ : Token)]).toArray := by
      rw [← htokens]
    cases hback : front.toArray.back? with
    | none => simp [hall, Token.endAfter, Span.point]
    | some t => simp [Token.endAfter, Span.point]
  · refine ⟨⟨.eof, "", Span.point (Position.start.after source.toList)⟩, ?_, rfl, rfl⟩
    rw [← Array.mem_toList_iff, htokens]
    simp

namespace OfSource

variable {c : Cursor}

/-- Behind the last token, or at the end of the source when there is none. -/
theorem eof_cases (h : OfSource source c) :
    (∃ t, c.tokens.back? = some t ∧ c.eof.span = Span.point t.span.stop) ∨
      (c.tokens = #[] ∧ c.eof.span = Span.point (Position.start.after source.toList)) := by
  have heof := h.eof
  cases hback : c.tokens.back? with
  | none =>
      rw [hback] at heof
      exact .inr ⟨Array.back?_eq_none_iff.1 hback, heof⟩
  | some t =>
      rw [hback] at heof
      exact .inl ⟨t, rfl, heof⟩

theorem inOrder (h : OfSource source c) : c.InOrder := by
  have hlt : ∀ i j (hi : i < j) (hj : j < c.tokens.size),
      c.tokens[i].span.stop.offset ≤ c.tokens[j].span.start.offset := by
    intro i j hi hj
    exact List.pairwise_iff_getElem.1 h.ordered i j (by simpa using Nat.lt_trans hi hj) (by simpa using hj) hi
  have hat : ∀ {i} (hi : i < c.tokens.size), c.tokenAt i = c.tokens[i] := by
    intro i hi
    rw [Cursor.tokenAt, Array.getElem?_eq_getElem hi, Option.getD_some]
  refine ⟨?_, ?_, ?_⟩
  · intro i hi
    exact h.widths _ (Cursor.mem_tokenAt hi)
  · intro i j hij hi
    rcases Nat.lt_or_ge j c.tokens.size with hj | hj
    · rw [hat hi, hat hj]
      exact hlt i j hij hj
    · rw [Cursor.tokenAt_of_size_le hj]
      rcases h.eof_cases with ⟨t, hback, heof⟩ | ⟨hnil, -⟩
      · rw [heof]
        have hlast : c.tokenAt (c.tokens.size - 1) = t := by
          rw [Array.back?_eq_getElem?] at hback
          rw [Cursor.tokenAt, hback, Option.getD_some]
        rcases Nat.lt_or_eq_of_le (Nat.le_sub_one_of_lt hi) with hless | heq
        · have hgap := hlt i (c.tokens.size - 1) hless (by omega)
          have hwidth := h.widths _ (Cursor.mem_tokenAt (show c.tokens.size - 1 < c.tokens.size by omega))
          rw [← hat hi, ← hat (show c.tokens.size - 1 < c.tokens.size by omega)] at hgap
          rw [hlast] at hgap hwidth
          exact Nat.le_trans hgap (Nat.le_of_lt hwidth)
        · rw [heq, hlast]
          exact Nat.le_refl _
      · rw [hnil] at hi
        exact absurd hi (Nat.not_lt_zero i)
  · rw [h.eof]
    rfl

/-- Every token of a cursor, the end of the input included, begins and ends at a place of the source. -/
theorem isPlace (h : OfSource source c) (i : Nat) :
    IsPlace source (c.tokenAt i).span.start ∧ IsPlace source (c.tokenAt i).span.stop := by
  rcases Nat.lt_or_ge i c.tokens.size with hi | hi
  · exact h.places _ (Cursor.mem_tokenAt hi)
  · rw [Cursor.tokenAt_of_size_le hi]
    rcases h.eof_cases with ⟨t, hback, heof⟩ | ⟨-, heof⟩
    · rw [heof]
      have hplace := (h.places t (Array.mem_of_back? hback)).2
      exact ⟨hplace, hplace⟩
    · rw [heof]
      have hplace : IsPlace source (Position.start.after source.toList) := ⟨source.toList, [], by simp, rfl⟩
      exact ⟨hplace, hplace⟩

theorem slices_over (h : OfSource source c) {i j : Nat} (hij : i ≤ j) : Slices source (c.over i j) :=
  slices_of_places (h.isPlace i).1 (h.isPlace j).2
    (Nat.le_trans (h.inOrder.start_le_stop i) (h.inOrder.stop_mono hij))

theorem slices_of_seated (h : OfSource source c) {n : Outline} (hn : Seated c n) : Slices source n.span := by
  rcases hn.place with ⟨i, j, hij, -, hspan⟩ | ⟨i, hspan⟩
  · rw [hspan]
    exact h.slices_over hij
  · rw [hspan]
    exact slices_of_places (h.isPlace i).1 (h.isPlace i).1 (Nat.le_refl _)

end OfSource

theorem onTokens_of_seated (h : OfSource source (Cursor.ofTokens tokens))
    (heof : ∃ t ∈ tokens, t.kind = .eof ∧ t.span = Span.point (Position.start.after source.toList)) {n : Outline}
    (hn : Seated (Cursor.ofTokens tokens) n) : OnTokens tokens n.span := by
  rcases hn.place with ⟨i, j, hij, hj, hspan⟩ | ⟨i, hspan⟩
  · exact .inl ⟨_, Cursor.mem_tokenAt (Nat.lt_of_le_of_lt hij hj), _, Cursor.mem_tokenAt hj, hspan⟩
  · rcases Nat.lt_or_ge i (Cursor.ofTokens tokens).tokens.size with hi | hi
    · exact .inr (.inl ⟨_, Cursor.mem_tokenAt hi, hspan⟩)
    · rw [Cursor.tokenAt_of_size_le hi] at hspan
      rcases h.eof_cases with ⟨t, hback, hpoint⟩ | ⟨hnil, hpoint⟩
      · rw [hpoint] at hspan
        exact .inr (.inr (.inl ⟨t, hback, hspan⟩))
      · obtain ⟨t, ht, -, hspan'⟩ := heof
        rw [hpoint] at hspan
        exact .inr (.inr (.inr ⟨hnil, t, ht, by rw [hspan, hspan']⟩))

end

/-- The state in which the document of a source is read. -/
def readingState (preferences : ParserPreferences) (lexed : Lexer) : Parser :=
  (note ((Event.debug "Starting C/AL parse").set "tokens"
    (toString (Parser.ofTokens lexed.tokens preferences).tokens.size))
    { Parser.ofTokens lexed.tokens preferences with events := lexed.events }).2

theorem analyse_of_read (preferences : ParserPreferences) {source : String} {lexed : Lexer}
    (h : Lexer.read source = (lexed, none)) : ∃ a events, analyse preferences source = (.ok a, events) ∧
      a.document = (document (readingState preferences lexed)).1 ∧
      a.diagnostics = (document (readingState preferences lexed)).2.diagnostics.toList := by
  unfold analyse
  rw [h]
  exact ⟨_, _, rfl, rfl, rfl⟩

/-- For every source that can be read, whatever is wrong with it: every span of the document begins and ends at tokens and
slices the source; what a node holds lies inside of it and in order, list by list; and every diagnostic slices the
source. The variables that were moved into the CODE section stand in a list of the object. -/
theorem spans_in_place (preferences : ParserPreferences) (source : String) (lexed : Lexer)
    (h : Lexer.read source = (lexed, none)) : ∃ a events, analyse preferences source = (.ok a, events) ∧
      (∀ n, (a.document.outline (hoistedCount (readingState preferences lexed))).Holds n →
        OnTokens lexed.tokens n.span ∧ Slices source n.span ∧ Nested n) ∧
      ∀ d ∈ a.diagnostics, Slices source d.span := by
  obtain ⟨a, events, hanalyse, hdocument, hdiagnostics⟩ := analyse_of_read preferences h
  have htokenize : tokenize source = .ok (lexed.tokens, lexed.metrics) := by rw [tokenize, h]
  obtain ⟨hsource, heof⟩ := ofSource_of_tokenize htokenize
  have hwithin : Within (Fence.whole (Cursor.ofTokens lexed.tokens)) (readingState preferences lexed) :=
    ⟨rfl, rfl, Nat.le_refl _, Nat.zero_le _, fun hlt => absurd hlt (Nat.lt_irrefl _), fun _ _ hd => nomatch hd⟩
  obtain ⟨hend, hrow⟩ := laid_document (Fence.open_whole _) hwithin
  refine ⟨a, events, hanalyse, ?_, ?_⟩
  · intro n hn
    rw [hdocument] at hn
    have hseated := (hrow hsource.inOrder).seated hsource.inOrder (List.mem_singleton_self _) hn
    exact ⟨onTokens_of_seated hsource heof hseated, hsource.slices_of_seated hseated, hseated.nested⟩
  · intro d hd
    rw [hdiagnostics, Array.mem_toList_iff] at hd
    obtain ⟨i, j, hij, hspan⟩ := hend.reports hsource.inOrder d hd
    rw [hspan]
    exact hsource.slices_over hij

/-- A table with a variable outside of its CODE section, a branch that is empty and a statement that fails. -/
def brokenTable : String :=
  "OBJECT Table 1 T \x7b VAR x : Integer; CODE \x7b VAR y : Integer; PROCEDURE P(); BEGIN IF y THEN ; + END; \x7d \x7d"

theorem spans_in_place_broken : ∃ lexed a events, Lexer.read brokenTable = (lexed, none) ∧
    analyse {} brokenTable = (.ok a, events) ∧ hoistedCount (readingState {} lexed) = 1 ∧
    (∀ n, (a.document.outline 1).Holds n → OnTokens lexed.tokens n.span ∧ Slices brokenTable n.span ∧ Nested n) ∧
    ∀ d ∈ a.diagnostics, Slices brokenTable d.span := by
  have hread : Lexer.read brokenTable = ((Lexer.read brokenTable).1, none) :=
    Prod.ext rfl (by decide +kernel : (Lexer.read brokenTable).2 = none)
  have hcount : hoistedCount (readingState {} (Lexer.read brokenTable).1) = 1 := by decide +kernel
  obtain ⟨a, events, hanalyse, hspans, hdiagnostics⟩ := spans_in_place {} brokenTable _ hread
  rw [hcount] at hspans
  exact ⟨_, a, events, hread, hanalyse, hcount, hspans, hdiagnostics⟩

end CalExport
