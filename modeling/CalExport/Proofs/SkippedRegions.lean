import CalExport.Proofs.TrailingInput
import CalExport.Proofs.Upkeep.Object
import Mathlib.Data.List.Forall2

namespace CalExport

open Text

/-- A region that stands for the tokens from `lo` to before `hi`. -/
structure Stretch (c : Cursor) (lo hi : Nat) (region : SkippedRegion) : Prop where
  filled : lo < hi
  inside : hi ≤ c.tokens.size
  count : region.tokenCount = hi - lo
  text : region.text = joinTokens (c.tokensBetween lo hi)
  span : region.span = (c.tokenAt lo).span.merge (c.tokenAt (hi - 1)).span

/-- Where tokens stand in order the span runs from the first one to the last one. -/
theorem Stretch.span_eq {c : Cursor} {lo hi : Nat} {region : SkippedRegion} (h : Stretch c lo hi region)
    (hc : c.InOrder) : region.span = c.over lo (hi - 1) := by
  have hfilled := h.filled
  have hinside := h.inside
  rw [h.span]
  rcases Nat.lt_or_eq_of_le (Nat.le_sub_one_of_lt hfilled) with hlt | heq
  · exact hc.merge_over (Nat.le_refl lo) hlt (Nat.le_refl _) (by omega)
  · rw [← heq, Span.merge_self]
    rfl

/-- Regions that stand for ranges of tokens in increasing order, none of which reaches behind `stop`. -/
structure Stretches (c : Cursor) (stop : Nat) (ranges : List (Nat × Nat)) (regions : List SkippedRegion) : Prop where
  each : List.Forall₂ (fun range region => Stretch c range.1 range.2 region) ranges regions
  apart : ranges.Pairwise fun a b => a.2 ≤ b.1
  behind : ∀ range ∈ ranges, range.2 ≤ stop

namespace Stretches

variable {c : Cursor} {stop lo hi : Nat} {ranges : List (Nat × Nat)} {regions : List SkippedRegion}
  {region : SkippedRegion}

theorem nil (c : Cursor) (stop : Nat) : Stretches c stop [] [] := ⟨.nil, .nil, List.forall_mem_nil _⟩

theorem mono (h : Stretches c stop ranges regions) (hle : stop ≤ lo) : Stretches c lo ranges regions :=
  ⟨h.each, h.apart, fun range hrange => Nat.le_trans (h.behind range hrange) hle⟩

theorem snoc (h : Stretches c lo ranges regions) (hregion : Stretch c lo hi region) :
    Stretches c hi (ranges ++ [(lo, hi)]) (regions ++ [region]) := by
  refine ⟨List.rel_append h.each (.cons hregion .nil), ?_, ?_⟩
  · rw [List.pairwise_append]
    refine ⟨h.apart, List.pairwise_singleton _ _, ?_⟩
    intro a ha b hb
    obtain rfl := List.mem_singleton.1 hb
    exact h.behind a ha
  · intro range hrange
    rcases List.mem_append.1 hrange with hrange | hrange
    · exact Nat.le_trans (h.behind range hrange) (Nat.le_of_lt hregion.filled)
    · obtain rfl := List.mem_singleton.1 hrange
      exact Nat.le_refl hi

end Stretches

namespace Rule

/-- What was passed over so far stands in order, and nothing but sections without a place in the tree was passed over
while there is no diagnostic. -/
structure Honest (c : Cursor) (s : Parser) : Prop where
  tokens : s.tokens = c.tokens
  eof : s.eof = c.eof
  keeps : s.preferences.recordSkipped = true
  stretches : ∃ ranges, Stretches c s.position ranges s.skipped.toList
  silent : s.diagnostics = #[] → ∀ region ∈ s.skipped, region.reason = "unsupported section"

namespace Honest

variable {c : Cursor} {s t : Parser}

/-- Moving on records nothing. -/
theorem of_forward (h : Honest c s) (hst : Forward s t) (hskipped : t.skipped = s.skipped) : Honest c t where
  tokens := hst.tokens.trans h.tokens
  eof := hst.eof.trans h.eof
  keeps := by rw [hst.preferences, h.keeps]
  stretches := by
    obtain ⟨ranges, hranges⟩ := h.stretches
    rw [hskipped]
    exact ⟨ranges, hranges.mono hst.position⟩
  silent hempty := by
    rw [hskipped]
    apply h.silent
    have hle := hst.diagnostics
    rw [hempty] at hle
    exact Array.size_eq_zero_iff.1 (Nat.le_zero.1 hle)

theorem skipped_record (d : Diagnostic) (s : Parser) : (record d s).2.skipped = s.skipped := by
  unfold record
  split
  · rfl
  · split <;> rfl

/-- The tokens since `s` as a region. -/
theorem stretch (h : Honest c s) (hst : Forward s t) (hlt : s.position < t.position) (reason : String) :
    Stretch c s.position t.position ⟨t.spanFrom s.position, reason, t.position - s.position,
      joinTokens (t.tokensBetween s.position t.position)⟩ := by
  have htokens : t.tokens = c.tokens := hst.tokens.trans h.tokens
  have htokenAt : ∀ i, t.tokenAt i = c.tokenAt i := by
    intro i
    rw [Cursor.tokenAt, htokens, hst.eof.trans h.eof, ← Cursor.tokenAt]
  refine ⟨hlt, htokens ▸ t.position_le, rfl, ?_, ?_⟩
  · show joinTokens (t.tokensBetween s.position t.position) = _
    rw [Cursor.tokensBetween, htokens, ← Cursor.tokensBetween]
  · show t.spanFrom s.position = _
    rw [Cursor.spanFrom, if_neg (by omega), Cursor.previous, if_neg (by omega), htokenAt, htokenAt]

theorem recordSkipped (reason : String) (h : Honest c s) (hst : Walked s t)
    (hreason : reason = "unsupported section" ∨ 0 < s.diagnostics.size) :
    Honest c (Rule.recordSkipped s.position reason t).2 := by
  have hforward := hst.forward
  have ht := h.of_forward hforward hst.skipped
  obtain ⟨events, hrun⟩ := recordSkipped_snd s.position reason t
  rw [hrun]
  refine ⟨ht.tokens, ht.eof, ht.keeps, ?_, ?_⟩
  · obtain ⟨ranges, hranges⟩ := h.stretches
    show ∃ ranges, Stretches c t.position ranges (skippedSince s.position reason t).toList
    unfold skippedSince
    rw [hst.skipped]
    split
    · rename_i hkept
      rw [Array.toList_push]
      exact ⟨_, hranges.snoc (h.stretch hforward hkept.1 reason)⟩
    · exact ⟨ranges, hranges.mono hforward.position⟩
  · intro hempty
    have hnone : s.diagnostics = #[] := hst.diagnostics.symm.trans hempty
    have hunsupported : reason = "unsupported section" := by
      apply hreason.resolve_right
      rw [hnone]
      exact Nat.lt_irrefl 0
    show ∀ region ∈ skippedSince s.position reason t, region.reason = "unsupported section"
    unfold skippedSince
    rw [hst.skipped]
    intro region hregion
    split at hregion
    · rcases Array.mem_push.1 hregion with hregion | rfl
      · exact h.silent hnone region hregion
      · exact hunsupported
    · exact h.silent hnone region hregion

end Honest

def Upkeep.honest (c : Cursor) : Upkeep where
  holds := Honest c
  advance h := h.of_forward (forward_advance _) rfl
  report _ h := h.of_forward (forward_record _ _) (Honest.skipped_record _ _)
  note e h := h.of_forward (forward_note e _) rfl
  withNesting _ h := ⟨h.tokens, h.eof, h.keeps, h.stretches, h.silent⟩
  recordSkipped reason h hst hreason := h.recordSkipped reason hst hreason

/-- For all tokens that are read while regions are kept: the regions stand for ranges of tokens that are not empty and
do not meet, in the order of the tokens; each has the count, the text and the span of its range, from its first token
to its last one where the tokens stand in order; and without a diagnostic every region is a section that has no place
in the tree. -/
theorem skipped_regions_honest (tokens : Array Token) (p : ParserPreferences) (events : Array Event)
    (hp : p.recordSkipped = true) :
    let c := Cursor.ofTokens tokens
    let run := wholeDocument { Parser.ofTokens tokens p with events }
    (∃ ranges : List (Nat × Nat),
      List.Forall₂ (fun range region => Stretch c range.1 range.2 region ∧
        (c.InOrder → region.span = c.over range.1 (range.2 - 1))) ranges run.2.skipped.toList ∧
      ranges.Pairwise fun a b => a.2 ≤ b.1) ∧
    (run.2.diagnostics = #[] → ∀ region ∈ run.2.skipped, region.reason = "unsupported section") := by
  intro c run
  have hstart : Honest c { Parser.ofTokens tokens p with events } :=
    ⟨rfl, rfl, hp, ⟨[], Stretches.nil c 0⟩, fun _ _ hregion => absurd hregion (Array.not_mem_empty _)⟩
  have hend : Honest c run.2 := (upkeep_wholeDocument (.bends (.honest c)) hstart rfl).1
  obtain ⟨ranges, hranges⟩ := hend.stretches
  refine ⟨⟨ranges, ?_, hranges.apart⟩, hend.silent⟩
  exact hranges.each.imp fun range region h => ⟨h, h.span_eq⟩

def emptyControls : Array Token :=
  #[⟨.keyword .controls, "CONTROLS", .origin⟩, ⟨.leftBrace, "\x7b", .origin⟩, ⟨.rightBrace, "\x7d", .origin⟩]

def fresh (tokens : Array Token) : Parser := { Parser.ofTokens tokens {} with events := #[] }

/-- A section without a place in the tree, and a stray token behind the object. -/
theorem skipped_regions_honest_controls :
    (wholeDocument (fresh (openTable ++ emptyControls ++ closing))).2.diagnostics = #[] ∧
      (∀ region ∈ (wholeDocument (fresh (openTable ++ emptyControls ++ closing))).2.skipped,
        region.reason = "unsupported section") ∧
      ∃ ranges : List (Nat × Nat), ranges.length = 2 ∧ (ranges.Pairwise fun a b => a.2 ≤ b.1) ∧
        List.Forall₂ (fun range region => Stretch (.ofTokens (openTable ++ emptyControls ++ closing ++ stray))
          range.1 range.2 region) ranges
          (wholeDocument (fresh (openTable ++ emptyControls ++ closing ++ stray))).2.skipped.toList := by
  have hclean : (wholeDocument (fresh (openTable ++ emptyControls ++ closing))).2.diagnostics = #[] := by
    decide +kernel
  have hsize : (wholeDocument (fresh (openTable ++ emptyControls ++ closing ++ stray))).2.skipped.size = 2 := by
    decide +kernel
  unfold fresh at hclean hsize ⊢
  obtain ⟨⟨ranges, heach, hapart⟩, -⟩ :=
    skipped_regions_honest (openTable ++ emptyControls ++ closing ++ stray) {} #[] rfl
  have hlength : ranges.length = 2 := by
    rw [heach.length_eq, Array.length_toList]
    exact hsize
  refine ⟨hclean, ?_, ranges, hlength, hapart, ?_⟩
  · exact (skipped_regions_honest (openTable ++ emptyControls ++ closing) {} #[] rfl).2 hclean
  · exact heach.imp fun range region h => h.1

end Rule

end CalExport
