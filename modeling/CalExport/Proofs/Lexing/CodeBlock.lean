import CalExport.Proofs.CodePlaces
import CalExport.Proofs.Lexing.TriggerBody

namespace CalExport

open Text

namespace Mode

variable {m : Mode} {κ : Kind} {rest : List Char}

theorem codeDepth_pass_plain (h : κ.isBlockWord = false) : (m.pass κ rest).codeDepth = m.codeDepth := by
  show (m.track κ rest).codeDepth = m.codeDepth
  unfold track
  split
  · cases h
  · cases h
  · cases h
  · split <;> rfl
  · rfl
  · rfl
  · rfl

/-- Inside code every BEGIN and CASE counts. -/
theorem codeDepth_pass_opening (hm : 0 < m.codeDepth) (h : κ.opensBlock = true) :
    (m.pass κ rest).codeDepth = m.codeDepth + 1 := by
  rcases Kind.opensBlock_iff.1 h with rfl | rfl
  · simp [pass, track, beginOpensCode, hm]
  · simp [pass, track, hm]

theorem codeDepth_pass_le (m : Mode) (κ : Kind) (rest : List Char) : (m.pass κ rest).codeDepth ≤ m.codeDepth + 1 := by
  cases hword : κ.isBlockWord with
  | false => exact Nat.le_succ_of_le (Nat.le_of_eq (codeDepth_pass_plain hword))
  | true =>
      show (m.track κ rest).codeDepth ≤ m.codeDepth + 1
      unfold track
      split
      · split <;> simp
      · split <;> simp
      · exact Nat.le_succ_of_le (Nat.sub_le _ 1)
      · split <;> simp
      · simp
      · simp
      · simp

theorem codeDepth_pass_end : (m.pass (.keyword .end_) rest).codeDepth = m.codeDepth - 1 := rfl

end Mode

def walk (source : List Char) (m : Mode) (run : List Token) : Mode :=
  run.foldl (fun m t => m.pass t.kind (behind t.span.stop source)) m

theorem walk_append (source : List Char) (m : Mode) (u v : List Token) :
    walk source m (u ++ v) = walk source (walk source m u) v := List.foldl_append

/-- Inside code, tokens that close `n` blocks and all that they open take the depth down by `n`, and not further on the
way. -/
theorem codeDepth_walk (source : List Char) {d n : Nat} (hd : 0 < d) {run : List Token} (h : Closes n run) {m : Mode}
    (hm : m.codeDepth = d + n) :
    (walk source m run).codeDepth = d ∧ ∀ k, d ≤ (walk source m (run.take k)).codeDepth := by
  induction run generalizing m n with
  | nil =>
      obtain rfl : n = 0 := h
      exact ⟨hm, fun k => by rw [List.take_nil]; exact Nat.le_of_eq hm.symm⟩
  | cons t run ih =>
      have hstep : ∃ n', Closes n' run ∧ (m.pass t.kind (behind t.span.stop source)).codeDepth = d + n' := by
        rw [Closes] at h
        split at h
        · rename_i hopens
          exact ⟨n + 1, h, by rw [Mode.codeDepth_pass_opening (by omega) hopens, hm, Nat.add_assoc]⟩
        · rename_i hopens
          split at h
          · rename_i hend
            obtain ⟨n', rfl, hrest⟩ := h
            exact ⟨n', hrest, by rw [hend, Mode.codeDepth_pass_end, hm]; omega⟩
          · rename_i hend
            have hplain : t.kind.isBlockWord = false := by simp [Kind.isBlockWord, hopens, hend]
            exact ⟨n, h, by rw [Mode.codeDepth_pass_plain hplain, hm]⟩
      obtain ⟨n', hrest, hdepth⟩ := hstep
      obtain ⟨hall, hprefix⟩ := ih hrest hdepth
      refine ⟨hall, fun k => ?_⟩
      cases k with
      | zero =>
          show d ≤ m.codeDepth
          omega
      | succ k => exact hprefix k

/-- A block that is entered at its first token is left at its last one, and not before. -/
theorem codeDepth_walk_block {source : List Char} {d : Nat} {opening closing : Token} {inner : List Token}
    (hclosing : closing.kind = .keyword .end_) (hinner : Closes 0 inner) {m : Mode}
    (henters : (walk source m [opening]).codeDepth = d + 1) :
    (walk source m (opening :: (inner ++ [closing]))).codeDepth = d ∧
      ∀ k, 0 < k → k < inner.length + 2 →
        d < (walk source m ((opening :: (inner ++ [closing])).take k)).codeDepth := by
  obtain ⟨hall, hprefix⟩ := codeDepth_walk source (Nat.succ_pos d) hinner henters
  have hsplit : ∀ run, walk source m (opening :: run) = walk source (walk source m [opening]) run :=
    walk_append source m [opening]
  refine ⟨?_, ?_⟩
  · rw [hsplit, walk_append]
    show ((walk source (walk source m [opening]) inner).pass closing.kind _).codeDepth = d
    rw [hclosing, Mode.codeDepth_pass_end, hall, Nat.succ_sub_one]
  · intro k hpos hk
    obtain ⟨k, rfl⟩ := Nat.exists_eq_succ_of_ne_zero (Nat.ne_of_gt hpos)
    rw [List.take_succ_cons, hsplit, List.take_append_of_le_length (by omega)]
    exact hprefix k

/-- How deep in code the lexer is in front of a token. -/
def codeDepthAt (source : String) (tokens : Array Token) (i : Nat) : Nat :=
  (modeBehind source.toList (tokens.toList.take i)).codeDepth

theorem codeDepthAt_succ_le (source : String) (tokens : Array Token) (i : Nat) :
    codeDepthAt source tokens (i + 1) ≤ codeDepthAt source tokens i + 1 := by
  rw [codeDepthAt, List.take_add_one]
  cases tokens.toList[i]? with
  | none =>
      rw [Option.toList_none, List.append_nil]
      exact Nat.le_succ _
  | some t =>
      rw [Option.toList_some, modeBehind_concat]
      exact Mode.codeDepth_pass_le _ _ _

/-- The lexer's last state is the one behind all its tokens. -/
theorem codeDepth_read {source : String} {lexed : Lexer} (h : Lexer.read source = (lexed, none)) :
    lexed.mode.codeDepth = codeDepthAt source lexed.tokens lexed.tokens.size := by
  obtain ⟨s, done, gap, hs, rfl⟩ := Lexer.reading_run (Lexer.reading_start source) h
  have hdepth : s.mode.codeDepth = (modeBehind source.toList s.tokens.toList).codeDepth := by rw [hs.mode]
  rw [codeDepthAt, List.take_of_length_le (Nat.le_of_eq Array.length_toList), s.tokens_finish, modeBehind_concat]
  exact hdepth.trans (Mode.codeDepth_pass_plain rfl).symm

/-- The lexer goes deeper at words that open a block. -/
theorem opensBlock_of_deeper {source : String} {tokens : Array Token} {i : Nat} {t : Token}
    (ht : tokens.toList[i]? = some t) (h : codeDepthAt source tokens i < codeDepthAt source tokens (i + 1)) :
    t.kind.opensBlock = true := by
  rw [codeDepthAt, codeDepthAt, List.take_add_one, ht, Option.toList_some, modeBehind_concat] at h
  cases hopens : t.kind.opensBlock with
  | true => rfl
  | false =>
      by_cases hend : t.kind = .keyword .end_
      · rw [hend, Mode.codeDepth_pass_end] at h
        omega
      · have hplain : t.kind.isBlockWord = false := by simp [Kind.isBlockWord, hopens, hend]
        rw [Mode.codeDepth_pass_plain hplain] at h
        exact absurd h (Nat.lt_irrefl _)

theorem ClosedBlock.lt {tokens : List Token} {i j : Nat} (h : ClosedBlock tokens i j) : i < j ∧ j ≤ tokens.length := by
  obtain ⟨opening, inner, closing, more, hdrop, rfl, -⟩ := h
  have hlength := congrArg List.length hdrop
  simp only [List.length_drop, List.length_append, List.length_cons, List.length_nil] at hlength
  omega

/-- A closed block that the lexer enters is left at its END, and not before. -/
theorem codeDepthAt_closedBlock {source : String} {tokens : Array Token} {i j : Nat}
    (h : ClosedBlock tokens.toList i j) (henters : codeDepthAt source tokens i < codeDepthAt source tokens (i + 1)) :
    codeDepthAt source tokens j = codeDepthAt source tokens i ∧
      ∀ k, i < k → k < j → codeDepthAt source tokens i < codeDepthAt source tokens k := by
  obtain ⟨opening, inner, closing, more, hdrop, rfl, -, hclosing, hinner⟩ := h
  have hwalk : ∀ k ≤ inner.length + 2, codeDepthAt source tokens (i + k) =
      (walk source.toList (modeBehind source.toList (tokens.toList.take i))
        ((opening :: (inner ++ [closing])).take k)).codeDepth := by
    intro k hk
    have htake : ((opening :: (inner ++ [closing])) ++ more).take k = (opening :: (inner ++ [closing])).take k :=
      List.take_append_of_le_length (by simpa using hk)
    rw [codeDepthAt, List.take_add, hdrop, htake]
    exact congrArg Mode.codeDepth (walk_append _ _ _ _)
  have hstep := codeDepthAt_succ_le source tokens i
  have hdeeper : codeDepthAt source tokens (i + 1) = codeDepthAt source tokens i + 1 := by omega
  have hfirst := hwalk 1 (by omega)
  rw [hdeeper] at hfirst
  obtain ⟨hall, hinside⟩ := codeDepth_walk_block hclosing hinner hfirst.symm
  refine ⟨?_, ?_⟩
  · have hwhole : (opening :: (inner ++ [closing])).take (inner.length + 2) = opening :: (inner ++ [closing]) :=
      List.take_of_length_le (by simp)
    rw [hwalk _ (Nat.le_refl _), hwhole]
    exact hall
  · intro k hik hkj
    obtain ⟨k, rfl⟩ := Nat.exists_eq_add_of_lt hik
    rw [Nat.add_assoc, hwalk _ (by omega)]
    exact hinside _ (by omega) (by omega)

section

variable {source : String} {tokens : Array Token}
  (hblocks : ∀ i < tokens.size, codeDepthAt source tokens i = 0 → 0 < codeDepthAt source tokens (i + 1) →
    ∃ j, ClosedBlock tokens.toList i j)

include hblocks

/-- From a place outside code on, the lexer is in code only inside closed blocks, and outside of it behind them. -/
theorem outside_of_blocks {i k : Nat} (hi : codeDepthAt source tokens i = 0) (hik : i ≤ k) (hk : k ≤ tokens.size) :
    codeDepthAt source tokens k = 0 ∨ ∃ i j, ClosedBlock tokens.toList i j ∧ codeDepthAt source tokens i = 0 ∧
      codeDepthAt source tokens j = 0 ∧ i < k ∧ k < j := by
  -- The places still to come get fewer: one token outside code is passed, or a whole block.
  induction hleft : k - i using Nat.strongRecOn generalizing i with
  | ind n ih =>
      rcases Nat.eq_or_lt_of_le hik with rfl | hlt
      · exact .inl hi
      · rcases Nat.eq_zero_or_pos (codeDepthAt source tokens (i + 1)) with hnext | hnext
        · exact ih (k - (i + 1)) (by omega) hnext hlt rfl
        · obtain ⟨j, hblock⟩ := hblocks i (by omega) hi hnext
          have hdeeper : codeDepthAt source tokens i < codeDepthAt source tokens (i + 1) := hi ▸ hnext
          obtain ⟨hj, -⟩ := codeDepthAt_closedBlock hblock hdeeper
          have hij := hblock.lt
          rcases Nat.lt_or_ge k j with hkj | hjk
          · exact .inr ⟨i, j, hblock, hi, hj.trans hi, hlt, hkj⟩
          · exact ih (k - j) (by omega) (hj.trans hi) hjk rfl

/-- Every block that the lexer enters is closed, and left at its END. -/
theorem blocks_left {i : Nat} (hi : i < tokens.size)
    (henters : codeDepthAt source tokens i < codeDepthAt source tokens (i + 1)) :
    ∃ j, ClosedBlock tokens.toList i j ∧ codeDepthAt source tokens j = codeDepthAt source tokens i ∧
      ∀ k, i < k → k < j → codeDepthAt source tokens i < codeDepthAt source tokens k := by
  have hblock : ∃ j, ClosedBlock tokens.toList i j := by
    rcases outside_of_blocks hblocks rfl (Nat.zero_le i) (Nat.le_of_lt hi) with
      hzero | ⟨i', j', hblock, -, -, hlt, hlt'⟩
    · exact hblocks i hi hzero (by omega)
    · have ht : tokens.toList[i]? = some tokens[i] := by
        rw [Array.getElem?_toList, Array.getElem?_eq_getElem hi]
      exact hblock.inside hlt hlt' ht (opensBlock_of_deeper ht henters)
  obtain ⟨j, hblock⟩ := hblock
  exact ⟨j, hblock, codeDepthAt_closedBlock hblock henters⟩

end

/-- The tree has code at a token: it lies in a declaration of the CODE section, or behind the equals sign of a property
that is a trigger. -/
def Document.HasCode (d : Document) (tokens : List Token) (i : Nat) : Prop :=
  ∃ t ∈ tokens[i]?, (∃ place ∈ d.declarations, place.contains t.span = true) ∨
    ∃ place ∈ d.triggerPlaces, place.contains t.span = true ∧
      ∃ k < i, ∃ u ∈ tokens[k]?, u.kind = .equal ∧ place.contains u.span = true

instance (d : Document) (tokens : List Token) (i : Nat) : Decidable (d.HasCode tokens i) :=
  inferInstanceAs (Decidable (∃ t ∈ tokens[i]?, (∃ place ∈ d.declarations, place.contains t.span = true) ∨
    ∃ place ∈ d.triggerPlaces, place.contains t.span = true ∧
      ∃ k < i, ∃ u ∈ tokens[k]?, u.kind = .equal ∧ place.contains u.span = true))

theorem Cursor.InOrder.index_of_contains {c : Cursor} (hc : c.InOrder) {i j k : Nat} (hj : j < c.tokens.size)
    (hk : k < c.tokens.size) (h : (c.over i j).contains (c.tokenAt k).span = true) : i ≤ k ∧ k ≤ j := by
  rw [Span.contains, Bool.and_eq_true, decide_eq_true_eq, decide_eq_true_eq] at h
  have hstart : (c.tokenAt i).span.start.offset ≤ (c.tokenAt k).span.start.offset := h.1
  have hstop : (c.tokenAt k).span.stop.offset ≤ (c.tokenAt j).span.stop.offset := h.2
  have hwidth := hc.start_lt_stop hk
  constructor
  · apply Nat.le_of_not_lt
    intro hlt
    have hgap := hc.stop_le_start hlt hk
    omega
  · apply Nat.le_of_not_lt
    intro hlt
    have hgap := hc.stop_le_start hlt hj
    omega

section

variable {source : String} {lexed : Lexer} (hread : Lexer.read source = (lexed, none))

include hread

theorem exists_tokens_eq : ∃ last, last.kind = .eof ∧
    lexed.tokens.toList = (Cursor.ofTokens lexed.tokens).tokens.toList ++ [last] := by
  have hok : tokenize source = .ok (lexed.tokens, lexed.metrics) := by
    rw [tokenize, hread]
  obtain ⟨front, htokens, hfront, -⟩ := tiled_of_tokenize hok
  rw [Cursor.tokens_ofTokens htokens rfl hfront]
  exact ⟨_, rfl, htokens⟩

/-- A parser has every token of the source at its place, but for the end of the input. -/
theorem tokenAt_of_read {i : Nat} {t : Token} (ht : lexed.tokens.toList[i]? = some t) (heof : t.kind ≠ .eof) :
    i < (Cursor.ofTokens lexed.tokens).tokens.size ∧ (Cursor.ofTokens lexed.tokens).tokenAt i = t := by
  obtain ⟨last, hlast, htokens⟩ := exists_tokens_eq hread
  rw [htokens] at ht
  have hi : i < (Cursor.ofTokens lexed.tokens).tokens.toList.length := by
    apply Nat.lt_of_not_le
    intro hle
    rw [List.getElem?_append_right hle] at ht
    rw [List.mem_singleton.1 (List.mem_of_getElem? ht)] at heof
    exact heof hlast
  rw [List.getElem?_append_left hi, Array.getElem?_toList] at ht
  exact ⟨hi, by rw [Cursor.tokenAt, ht, Option.getD_some]⟩

theorem closedBlock_of_closesBetween {lo hi i : Nat} (h : Rule.ClosesBetween (Cursor.ofTokens lexed.tokens) lo hi)
    (hhi : hi ≤ (Cursor.ofTokens lexed.tokens).tokens.size) (hlo : lo ≤ i) (hlt : i < hi) {t : Token}
    (ht : lexed.tokens.toList[i]? = some t) (hopens : t.kind.opensBlock = true) :
    ∃ j, ClosedBlock lexed.tokens.toList i j := by
  obtain ⟨last, -, htokens⟩ := exists_tokens_eq hread
  have hlength : lo ≤ (Cursor.ofTokens lexed.tokens).tokens.toList.length := by
    rw [Array.length_toList]
    omega
  have hsplit : lexed.tokens.toList.drop lo =
      ((Cursor.ofTokens lexed.tokens).tokens.toList.drop lo).take (hi - lo) ++
        (((Cursor.ofTokens lexed.tokens).tokens.toList.drop lo).drop (hi - lo) ++ [last]) := by
    rw [← List.append_assoc, List.take_append_drop, htokens, List.drop_append_of_le_length hlength]
  refine closedBlock_of_closes hsplit h hlo ?_ ht hopens
  rw [List.length_take, List.length_drop, Array.length_toList]
  omega

/-- A block that begins in the code of the tree is closed. -/
theorem closedBlock_of_hasCode {d : Document}
    (hplaced : ∀ o ∈ d.object, Rule.ObjectPlaced (Cursor.ofTokens lexed.tokens) o) {i : Nat} {t : Token}
    (ht : lexed.tokens.toList[i]? = some t) (hopens : t.kind.opensBlock = true)
    (h : d.HasCode lexed.tokens.toList i) : ∃ j, ClosedBlock lexed.tokens.toList i j := by
  have hok : tokenize source = .ok (lexed.tokens, lexed.metrics) := by
    rw [tokenize, hread]
  have horder : (Cursor.ofTokens lexed.tokens).InOrder := (ofSource_of_tokenize hok).1.inOrder
  obtain ⟨hi, hat⟩ := tokenAt_of_read hread ht (by rintro heof; rw [heof] at hopens; cases hopens)
  obtain ⟨t', ht', hplace⟩ := h
  obtain rfl : t = t' := Option.some.inj (ht.symm.trans ht')
  rcases hplace with ⟨place, hplace, hcontains⟩ | ⟨place, hplace, hcontains, k, hk, u, hu, hequal, hbefore⟩
  · obtain ⟨o, ho, hplace⟩ := List.mem_flatMap.1 hplace
    obtain ⟨s, hs, hplace⟩ := List.mem_flatMap.1 hplace
    obtain ⟨lo, hi', a, b, hbalanced, hsize, hlo, hab, hb, rfl⟩ :=
      (hplaced o (Option.mem_toList.1 ho)).declared s (Option.mem_toList.1 hs) place hplace
    rw [← hat] at hcontains
    obtain ⟨hai, hib⟩ := horder.index_of_contains (by omega) hi hcontains
    exact closedBlock_of_closesBetween hread hbalanced hsize (by omega) (by omega) ht hopens
  · obtain ⟨o, ho, hplace⟩ := List.mem_flatMap.1 hplace
    obtain ⟨start, hi', a, b, hbalanced, hsize, hab, hb, rfl, hname⟩ :=
      (hplaced o (Option.mem_toList.1 ho)).triggered place hplace
    obtain ⟨hkt, hatk⟩ := tokenAt_of_read hread hu (by rw [hequal]; rintro ⟨⟩)
    rw [← hat] at hcontains
    rw [← hatk] at hbefore
    obtain ⟨hai, hib⟩ := horder.index_of_contains (by omega) hi hcontains
    obtain ⟨hak, -⟩ := horder.index_of_contains (by omega) hkt hbefore
    have hstart : start ≤ k := by
      apply Nat.le_of_not_lt
      intro hlt
      exact hname k hak hlt (hatk ▸ hequal)
    exact closedBlock_of_closesBetween hread hbalanced hsize (by omega) (by omega) ht hopens

/-- When the source is read without a complaint, no word that opens or closes a block is the name of a member, and the
code that the lexer enters in text outside the code of the tree is left again, then every block that the lexer enters is
left at the END that closes it and not before, it is in code only inside such blocks, and in none at the end. -/
theorem code_blocks_balanced {preferences : ParserPreferences} {a : Analysis} {events : Array Event}
    (hanalyse : analyse preferences source = (.ok a, events)) (hclean : a.diagnostics = [])
    (hmembers : clearMembers lexed.tokens.toList = true)
    (hraw : ∀ i < lexed.tokens.size, codeDepthAt source lexed.tokens i = 0 →
      0 < codeDepthAt source lexed.tokens (i + 1) → ¬ a.document.HasCode lexed.tokens.toList i →
        ∃ j, ClosedBlock lexed.tokens.toList i j) :
    lexed.mode.codeDepth = 0 ∧
      (∀ i < lexed.tokens.size, codeDepthAt source lexed.tokens i < codeDepthAt source lexed.tokens (i + 1) →
        ∃ j, ClosedBlock lexed.tokens.toList i j ∧
          codeDepthAt source lexed.tokens j = codeDepthAt source lexed.tokens i ∧
          ∀ k, i < k → k < j → codeDepthAt source lexed.tokens i < codeDepthAt source lexed.tokens k) ∧
      ∀ k ≤ lexed.tokens.size, 0 < codeDepthAt source lexed.tokens k →
        ∃ i j, ClosedBlock lexed.tokens.toList i j ∧ codeDepthAt source lexed.tokens i = 0 ∧
          codeDepthAt source lexed.tokens j = 0 ∧ i < k ∧ k < j := by
  have hok : tokenize source = .ok (lexed.tokens, lexed.metrics) := by
    rw [tokenize, hread]
  have horder : (Cursor.ofTokens lexed.tokens).InOrder := (ofSource_of_tokenize hok).1.inOrder
  obtain ⟨last, hlast, htokens⟩ := exists_tokens_eq hread
  have hfront : clearMembers (Cursor.ofTokens lexed.tokens).tokens.toList = true := by
    rw [htokens] at hmembers
    exact clearMembers_left hmembers
  obtain ⟨a', events', hanalyse', hdocument, hdiagnostics⟩ := analyse_of_read preferences hread
  obtain rfl : a = a' := by
    rw [hanalyse] at hanalyse'
    exact Except.ok.inj (Prod.mk.inj hanalyse').1
  have hstart : Rule.Fresh (Cursor.ofTokens lexed.tokens) (readingState preferences lexed) :=
    ⟨⟨rfl, rfl, Nat.zero_le _⟩, by rintro ⟨⟩⟩
  have hplaced : ∀ o ∈ a.document.object, Rule.ObjectPlaced (Cursor.ofTokens lexed.tokens) o := by
    rw [hdocument]
    apply (Rule.cleanly_document horder hfront (readingState preferences lexed) hstart).2
    rw [← Array.length_toList, ← hdiagnostics, hclean, List.length_nil]
  have hblocks : ∀ i < lexed.tokens.size, codeDepthAt source lexed.tokens i = 0 →
      0 < codeDepthAt source lexed.tokens (i + 1) → ∃ j, ClosedBlock lexed.tokens.toList i j := by
    intro i hi hzero henters
    by_cases hcode : a.document.HasCode lexed.tokens.toList i
    · have ht : lexed.tokens.toList[i]? = some lexed.tokens[i] := by
        rw [Array.getElem?_toList, Array.getElem?_eq_getElem hi]
      have hdeeper : codeDepthAt source lexed.tokens i < codeDepthAt source lexed.tokens (i + 1) := hzero ▸ henters
      exact closedBlock_of_hasCode hread hplaced ht (opensBlock_of_deeper ht hdeeper) hcode
    · exact hraw i hi hzero henters hcode
  refine ⟨?_, fun i => blocks_left hblocks, ?_⟩
  · rw [codeDepth_read hread]
    rcases outside_of_blocks hblocks rfl (Nat.zero_le _) (Nat.le_refl _) with hzero | ⟨i, j, hblock, -, -, -, hj⟩
    · exact hzero
    · have hsize := hblock.lt.2
      rw [Array.length_toList] at hsize
      omega
  · intro k hk hdepth
    rcases outside_of_blocks hblocks rfl (Nat.zero_le k) hk with hzero | hinside
    · omega
    · exact hinside

end

def commentedTable : String :=
  "OBJECT Table 1 T\x7bFIELDS\x7b\x7b1;;A;Integer;OnValidate=BEGIN\n CASE A OF 1: \x7b y \x7d B; END;\n END;\n \x7d" ++
    "\x7b2;;B;Integer\x7d\x7dCONTROLS\x7b\x7bOnPush=BEGIN\n B;\n END;\x7d\x7d" ++
    "CODE\x7bPROCEDURE P@1();BEGIN\n \x7b z \x7d B;\n END;\x7d\x7d"

theorem code_blocks_balanced_commented :
    codeDepthAt commentedTable (Lexer.read commentedTable).1.tokens 19 = 2 ∧
      (Lexer.read commentedTable).1.mode.codeDepth = 0 ∧
      ∀ i < (Lexer.read commentedTable).1.tokens.size,
        codeDepthAt commentedTable (Lexer.read commentedTable).1.tokens i <
          codeDepthAt commentedTable (Lexer.read commentedTable).1.tokens (i + 1) →
        ∃ j, ClosedBlock (Lexer.read commentedTable).1.tokens.toList i j := by
  -- One evaluation for all that is asked of the source, so that it is read once.
  have hfacts : (Lexer.read commentedTable).2 = none ∧
      clearMembers (Lexer.read commentedTable).1.tokens.toList = true ∧
      codeDepthAt commentedTable (Lexer.read commentedTable).1.tokens 19 = 2 ∧
      (Rule.document (readingState {} (Lexer.read commentedTable).1)).2.diagnostics.size = 0 ∧
      (∀ i < (Lexer.read commentedTable).1.tokens.size,
        codeDepthAt commentedTable (Lexer.read commentedTable).1.tokens i = 0 →
          0 < codeDepthAt commentedTable (Lexer.read commentedTable).1.tokens (i + 1) →
          ¬ (Rule.document (readingState {} (Lexer.read commentedTable).1)).1.HasCode
            (Lexer.read commentedTable).1.tokens.toList i → i = 44) ∧
      ∃ opening ∈ (Lexer.read commentedTable).1.tokens.toList[44]?, opening.kind = .keyword .begin_ ∧
        ∃ closing ∈ (Lexer.read commentedTable).1.tokens.toList[47]?, closing.kind = .keyword .end_ ∧
          (∀ t ∈ ((Lexer.read commentedTable).1.tokens.toList.drop 45).take 2, t.kind.isBlockWord = false) := by
    decide +kernel
  obtain ⟨hnone, hmembers, hinside, hclean, hentries, opening, hopening, hbegin, closing, hclosing, hend, hplain⟩ :=
    hfacts
  have hread : Lexer.read commentedTable = ((Lexer.read commentedTable).1, none) := Prod.ext rfl hnone
  obtain ⟨a, events, hanalyse, hdocument, hdiagnostics⟩ := analyse_of_read {} hread
  have hraw : ClosedBlock (Lexer.read commentedTable).1.tokens.toList 44 48 :=
    closedBlock_of_plain hopening hclosing (hbegin ▸ rfl) hend hplain
  obtain ⟨hzero, hleft, -⟩ := code_blocks_balanced hread hanalyse
    (by rw [hdiagnostics, Array.eq_empty_of_size_eq_zero hclean]) hmembers (by
      intro i hi hout henters hcode
      rw [hdocument] at hcode
      obtain rfl := hentries i hi hout henters hcode
      exact ⟨48, hraw⟩)
  refine ⟨hinside, hzero, fun i hi henters => ?_⟩
  obtain ⟨j, hblock, -⟩ := hleft i hi henters
  exact ⟨j, hblock⟩

def memberNamedCase : String :=
  "OBJECT Table 1 T\x7bFIELDS\x7b\x7b1;;A;Integer;OnValidate=BEGIN\n x := y::Case;\n END;\n \x7d\x7b2;;B;Integer\x7d\x7d\x7d"

/-- The trigger is read without a complaint, but the lexer counts a CASE that no END closes. It is still in code behind
the trigger, takes the second field for a comment, and nothing is reported. -/
theorem code_left_open :
    ((analyse {} memberNamedCase).1.toOption.map fun a =>
        (a.isClean, a.document.object.map fun o => o.fields.map Field.name)) = some (true, some ["A"]) ∧
      (Lexer.read memberNamedCase).2 = none ∧ (Lexer.read memberNamedCase).1.mode.codeDepth = 1 := by
  decide +kernel

end CalExport
