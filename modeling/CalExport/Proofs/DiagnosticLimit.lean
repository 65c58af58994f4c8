import CalExport.Proofs.TrailingInput
import CalExport.Proofs.Upkeep.Object

namespace CalExport

open Text

namespace Diagnostic

/-- Fit to be shown: neither too long nor with control characters in it. -/
structure Presentable (d : Diagnostic) : Prop where
  short : d.message.length ≤ maxMessageLength
  printable : ∀ c ∈ d.message.toList, isControl c = false

theorem presentable_make (code : Code) (message : String) (span : Span) : (make code message span).Presentable := by
  refine ⟨?_, ?_⟩
  · show (clean message).length ≤ maxMessageLength
    rw [clean, String.length_ofList, List.length_take]
    exact Nat.min_le_left _ _
  · intro c hc
    have hmem : c ∈ message.toList.map fun c => if isControl c then ' ' else c := by
      rw [make, clean, String.toList_ofList] at hc
      exact List.mem_of_mem_take hc
    obtain ⟨d, -, rfl⟩ := List.mem_map.1 hmem
    split
    · rfl
    · rename_i hd
      rwa [Bool.not_eq_true] at hd

/-- What stands for all diagnostics from the one at `span` on. -/
def limitReached (span : Span) : Diagnostic :=
  make .diagnosticLimitReached s!"More than {maxDiagnostics} diagnostics, the rest are not reported" span

def withinLimit (told : List Diagnostic) : List Diagnostic :=
  told.take maxDiagnostics ++ (told[maxDiagnostics]?.map fun dropped => limitReached dropped.span).toList

variable {told : List Diagnostic}

theorem withinLimit_of_le (h : told.length ≤ maxDiagnostics) : withinLimit told = told := by
  rw [withinLimit, List.take_of_length_le h, List.getElem?_eq_none h, Option.map_none, Option.toList_none,
    List.append_nil]

theorem withinLimit_of_lt (h : maxDiagnostics < told.length) :
    withinLimit told = told.take maxDiagnostics ++ [limitReached told[maxDiagnostics].span] := by
  rw [withinLimit, List.getElem?_eq_getElem h, Option.map_some, Option.toList_some]

/-- Behind the limit nothing is added. -/
theorem withinLimit_append (h : maxDiagnostics < told.length) (more : List Diagnostic) :
    withinLimit (told ++ more) = withinLimit told := by
  rw [withinLimit, withinLimit, List.take_append_of_le_length (Nat.le_of_lt h), List.getElem?_append_left h]

theorem length_withinLimit_le (told : List Diagnostic) : (withinLimit told).length ≤ maxDiagnostics + 1 := by
  rcases Nat.lt_or_ge maxDiagnostics told.length with h | h
  · rw [withinLimit_of_lt h, List.length_append, List.length_take, List.length_singleton]
    omega
  · rw [withinLimit_of_le h]
    exact Nat.le_succ_of_le h

theorem presentable_withinLimit (h : ∀ d ∈ told, d.Presentable) : ∀ d ∈ withinLimit told, d.Presentable := by
  intro d hd
  rcases List.mem_append.1 hd with hd | hd
  · exact h d (List.mem_of_mem_take hd)
  · obtain ⟨dropped, -, rfl⟩ := Option.map_eq_some_iff.1 (Option.mem_toList.1 hd)
    exact presentable_make _ _ _

end Diagnostic

namespace Rule

open Diagnostic

/-- All that was told up to here, of which the state keeps what the limit allows. -/
structure Told (told : List Diagnostic) (s : Parser) : Prop where
  kept : s.diagnostics.toList = withinLimit told
  capped : s.capped = decide (maxDiagnostics < told.length)

namespace Told

variable {told : List Diagnostic} {s t : Parser}

theorem of_same (h : Told told s) (hdiagnostics : t.diagnostics = s.diagnostics) (hcapped : t.capped = s.capped) :
    Told told t :=
  ⟨by rw [hdiagnostics, h.kept], by rw [hcapped, h.capped]⟩

theorem fresh (tokens : Array Token) (preferences : ParserPreferences) (events : Array Event) :
    Told [] { Parser.ofTokens tokens preferences with events } := ⟨rfl, rfl⟩

/-- One more is told. -/
theorem record (h : Told told s) (d : Diagnostic) : Told (told ++ [d]) (Rule.record d s).2 := by
  have hsize : s.diagnostics.size = (withinLimit told).length := by rw [← h.kept, Array.length_toList]
  have hlength : (told ++ [d]).length = told.length + 1 := List.length_append
  rcases Nat.lt_trichotomy told.length maxDiagnostics with hroom | hfull | hover
  · rw [withinLimit_of_le (Nat.le_of_lt hroom)] at hsize
    rw [Rule.record, if_pos (hsize ▸ hroom)]
    refine ⟨?_, ?_⟩
    · show (s.diagnostics.push d).toList = _
      rw [Array.toList_push, h.kept, withinLimit_of_le (Nat.le_of_lt hroom), withinLimit_of_le (by omega)]
    · show s.capped = _
      rw [h.capped, decide_eq_decide, hlength]
      omega
  · rw [withinLimit_of_le (Nat.le_of_eq hfull)] at hsize
    have hcapped : ¬ s.capped = true := by
      rw [h.capped, decide_eq_true_eq]
      omega
    have hover : maxDiagnostics < (told ++ [d]).length := by omega
    rw [Rule.record, if_neg (by omega), if_neg hcapped]
    refine ⟨?_, (decide_eq_true hover).symm⟩
    show (s.diagnostics.push (limitReached d.span)).toList = _
    have hdropped : (told ++ [d])[maxDiagnostics] = d := List.getElem_concat_length hfull.symm hover
    rw [Array.toList_push, h.kept, withinLimit_of_le (Nat.le_of_eq hfull), withinLimit_of_lt hover, hdropped,
      List.take_left' hfull]
  · rw [withinLimit_of_lt hover, List.length_append, List.length_take, List.length_singleton] at hsize
    have hcapped : s.capped = true := h.capped.trans (decide_eq_true hover)
    rw [Rule.record, if_neg (by omega), if_pos hcapped]
    refine ⟨h.kept.trans (withinLimit_append hover [d]).symm, hcapped.trans (decide_eq_true ?_).symm⟩
    omega

theorem record_all (h : Told told s) (ds : List Diagnostic) : Told (told ++ ds) (ds.forM Rule.record s).2 := by
  induction ds generalizing told s with
  | nil => rwa [List.append_nil]
  | cons d ds ih =>
      have hrest := ih (h.record d)
      rw [List.append_assoc, List.singleton_append] at hrest
      exact hrest

end Told

def FaultsTold (s : Parser) : Prop := ∃ faults : List Fault, Told (faults.map .ofFault) s

namespace FaultsTold

variable {s t : Parser}

theorem of_same (h : FaultsTold s) (hdiagnostics : t.diagnostics = s.diagnostics) (hcapped : t.capped = s.capped) :
    FaultsTold t := by
  obtain ⟨faults, hfaults⟩ := h
  exact ⟨faults, hfaults.of_same hdiagnostics hcapped⟩

theorem report (h : FaultsTold s) (fault : Fault) : FaultsTold (Rule.report fault s).2 := by
  obtain ⟨faults, hfaults⟩ := h
  refine ⟨faults ++ [fault], ?_⟩
  rw [List.map_append]
  exact hfaults.record (.ofFault fault)

theorem recordSkipped (h : FaultsTold s) (hst : Walked s t) (start : Nat) (reason : String) :
    FaultsTold (Rule.recordSkipped start reason t).2 := by
  obtain ⟨events, hrun⟩ := recordSkipped_snd start reason t
  rw [hrun]
  exact h.of_same hst.diagnostics hst.capped

end FaultsTold

def Upkeep.faultsTold : Upkeep where
  holds := FaultsTold
  advance h := h.of_same rfl rfl
  report fault h := h.report fault
  note _ h := h.of_same rfl rfl
  withNesting _ h := h.of_same rfl rfl
  recordSkipped reason h hst _ := h.recordSkipped hst _ reason

/-- The diagnostics of a document are what the limit allows of the faults in it. -/
theorem told_wholeDocument (tokens : Array Token) (preferences : ParserPreferences) (events : Array Event) :
    ∃ faults : List Fault, (wholeDocument { Parser.ofTokens tokens preferences with events }).2.diagnostics.toList =
      withinLimit (faults.map .ofFault) := by
  have hstart : FaultsTold { Parser.ofTokens tokens preferences with events } :=
    ⟨[], Told.fresh tokens preferences events⟩
  obtain ⟨faults, hend⟩ := (upkeep_wholeDocument (.bends .faultsTold) hstart rfl).1
  exact ⟨faults, hend.kept⟩

end Rule

open Diagnostic

/-- Diagnostics that are recorded one after the other from the start are kept while the limit allows it; with the first
that finds no room one more is kept, which has its place and says so, and then none. And the analysis of any source
comes to no more diagnostics than that, each of them fit to be shown. -/
theorem diagnostics_within_limit :
    (∀ (tokens : Array Token) (preferences : ParserPreferences) (ds : List Diagnostic),
      let kept := (ds.forM Rule.record (Parser.ofTokens tokens preferences)).2.diagnostics.toList
      (ds.length ≤ maxDiagnostics → kept = ds) ∧
        ∀ h : maxDiagnostics < ds.length,
          kept = ds.take maxDiagnostics ++ [.limitReached ds[maxDiagnostics].span]) ∧
    ∀ (preferences : ParserPreferences) (source : String) (a : Analysis) (events : Array Event),
      analyse preferences source = (.ok a, events) →
        a.diagnostics.length ≤ maxDiagnostics + 1 ∧ ∀ d ∈ a.diagnostics, d.Presentable := by
  refine ⟨?_, ?_⟩
  · intro tokens preferences ds kept
    have hkept : kept = withinLimit ds := ((Rule.Told.fresh tokens preferences #[]).record_all ds).kept
    rw [hkept]
    exact ⟨withinLimit_of_le, withinLimit_of_lt⟩
  · intro preferences source a events h
    obtain ⟨faults, hfaults⟩ : ∃ faults : List Fault, a.diagnostics = withinLimit (faults.map .ofFault) := by
      unfold analyse at h
      split at h
      · cases h
      · cases h
        exact Rule.told_wholeDocument _ _ _
    rw [hfaults]
    refine ⟨length_withinLimit_le _, presentable_withinLimit ?_⟩
    intro d hd
    obtain ⟨fault, -, rfl⟩ := List.mem_map.1 hd
    exact presentable_make _ _ _

/-- Two more than there is room for, and a source of one word. -/
theorem diagnostics_within_limit_beyond :
    let d : Diagnostic := .make .missingName "Missing\tname" .origin
    ((List.replicate (maxDiagnostics + 2) d).forM Rule.record (Parser.ofTokens #[] {})).2.diagnostics.toList =
        List.replicate maxDiagnostics d ++ [.limitReached .origin] ∧
      ∃ a events, analyse {} "x" = (.ok a, events) ∧ a.diagnostics ≠ [] ∧ ∀ d ∈ a.diagnostics, d.Presentable := by
  intro d
  refine ⟨?_, ?_⟩
  · have hover : maxDiagnostics < (List.replicate (maxDiagnostics + 2) d).length := by
      rw [List.length_replicate]
      omega
    have hkept := (diagnostics_within_limit.1 #[] {} (List.replicate (maxDiagnostics + 2) d)).2 hover
    rwa [List.take_replicate, List.getElem_replicate, Nat.min_eq_left (Nat.le_add_right _ _)] at hkept
  · have hsome : ((analyse {} "x").1.toOption.map fun a => a.diagnostics.length) = some 2 := by decide +kernel
    rcases h : analyse {} "x" with ⟨e | a, events⟩
    · rw [h] at hsome
      cases hsome
    · rw [h] at hsome
      have hlength : a.diagnostics.length = 2 := Option.some.inj hsome
      have hsome : a.diagnostics ≠ [] := List.ne_nil_of_length_pos (by rw [hlength]; exact Nat.zero_lt_two)
      exact ⟨a, events, rfl, hsome, (diagnostics_within_limit.2 {} "x" a events h).2⟩

end CalExport
