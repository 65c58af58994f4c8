import CalExport.Proofs.BatchAgreement

namespace CalExport.Batch

variable {α : Type}

def fails (examine : Examiner) (next : Path × Nat) : Bool := (outcomeOf examine next).isFailure

/-- The place of the first file that fails, the number of files if none does. -/
def firstFailure (examine : Examiner) (work : List (Path × Nat)) : Nat := work.findIdx (fails examine)

/-- The events, with what is reported when the batch stops because of a failure. -/
def stopping (stops : Bool) (events : Array Event) : Array Event :=
  if stops then events.push (Event.warning "Fail-fast mode enabled, stopping batch processing") else events

def handedOut (examine : Examiner) (chunks : List (List (Path × Nat))) : List (List (Path × Nat)) :=
  chunks.take (chunks.findIdx (·.any (fails examine)) + 1)

/-- How many files are examined with workers when the file at `first` is the first that fails. -/
def chunkedReach (files workers first : Nat) : Nat :=
  min files (chunkSize files workers * (first / chunkSize files workers + 1))

/-- The files up to the first one that fails, numbered. -/
def reachedAlone (examine : Examiner) (files : List Path) : List (Path × Nat) :=
  files.zipIdx.take (firstFailure examine files.zipIdx + 1)

/-- The files up to the end of the chunk with the first one that fails, numbered. -/
def reachedTogether (examine : Examiner) (workers : Nat) (files : List Path) : List (Path × Nat) :=
  files.zipIdx.take (chunkedReach files.length workers (firstFailure examine files.zipIdx))

/-- The first element of a kind is among the first ones, or they are all passed over. -/
theorem findIdx_of_take (p : α → Bool) (n : Nat) (l : List α) :
    if (l.take n).any p then l.findIdx p < n
    else l.findIdx p = (l.drop n).findIdx p + (l.take n).length := by
  cases hany : (l.take n).any p with
  | true =>
      have hinside := List.findIdx_lt_length.2 (List.any_eq_true.1 hany)
      rw [List.findIdx_take, List.length_take] at hinside
      rw [if_pos rfl]
      omega
  | false =>
      have hnone : (l.take n).findIdx p = (l.take n).length :=
        List.findIdx_eq_length_of_false fun x hx => Bool.eq_false_iff.2 (List.any_eq_false.1 hany x hx)
      have hsplit : (l.take n ++ l.drop n).findIdx p = _ := List.findIdx_append
      rw [List.take_append_drop, hnone, if_neg (Nat.lt_irrefl _)] at hsplit
      rwa [if_neg Bool.false_ne_true]

/-- The blocks up to the first one with an element of a kind are a front of the list. -/
theorem flatten_take_blocks {size : Nat} (h : 0 < size) (p : α → Bool) (l : List α) :
    ((blocks size l).take ((blocks size l).findIdx (·.any p) + 1)).flatten =
      l.take (size * (l.findIdx p / size + 1)) := by
  fun_induction blocks size l with
  | case1 => rw [List.take_nil, List.take_nil, List.flatten_nil]
  | case2 a rest ih =>
      rw [← List.take_cons h, ← List.drop_cons (a := a) h] at *
      generalize a :: rest = l at *
      have hfirst := findIdx_of_take p size l
      rw [List.findIdx_cons]
      cases hany : (l.take size).any p with
      | true =>
          rw [hany, if_pos rfl] at hfirst
          rw [cond_true, List.take_succ_cons, List.take_zero, List.flatten_singleton, Nat.div_eq_of_lt hfirst,
            Nat.zero_add, Nat.mul_one]
      | false =>
          rw [hany, if_neg Bool.false_ne_true] at hfirst
          rw [cond_false, List.take_succ_cons, List.flatten_cons, ih]
          rcases Nat.lt_or_ge l.length size with hshort | hlong
          · rw [List.drop_of_length_le (Nat.le_of_lt hshort), List.take_nil, List.append_nil,
              List.take_of_length_le (Nat.le_of_lt hshort), List.take_of_length_le]
            exact Nat.le_trans (Nat.le_of_lt hshort) (Nat.le_mul_of_pos_right _ (Nat.succ_pos _))
          · rw [List.length_take, Nat.min_eq_left hlong] at hfirst
            rw [hfirst, Nat.add_div_right _ h, Nat.mul_succ size (_ + 1), Nat.add_comm _ size,
              List.take_add (i := size)]

theorem step_apply (stops : Bool) (stopped : Batch) (rest : Work Batch) (events : Array Event) :
    (if stops then do
        reportStop
        return stopped
      else rest : Work Batch) events =
      if stops then (stopped, stopping true events) else rest events := by
  cases stops with
  | true => rfl
  | false => rfl

theorem failed?_isSome (o : Outcome) : (failed? o).isSome = o.isFailure := by
  cases h : o.result <;> simp [failed?, Outcome.isFailure, h]

/-- Behind a batch without failures it shows whether one of these outcomes is a failure. -/
theorem failed_foldl_add {b : Batch} (h : b.failed = []) (outcomes : List Outcome) :
    decide (0 < (outcomes.foldl add b).failed.length) = outcomes.any Outcome.isFailure := by
  rw [foldl_add, h, List.nil_append]
  induction outcomes with
  | nil => rfl
  | cons o outcomes ih =>
      rw [List.any_cons, ← failed?_isSome, ← ih]
      cases hfailed : failed? o with
      | none => simp [hfailed]
      | some failure => simp [hfailed]

section

variable {examine : Examiner} (hisolated : Isolated examine)

include hisolated

/-- One after the other the first file that fails is the last. -/
theorem runSequence_failFast (b : Batch) (work : List (Path × Nat)) (events : Array Event) :
    runSequence examine true b work events =
      (((work.take (firstFailure examine work + 1)).map (outcomeOf examine)).foldl add b,
        stopping (work.any (fails examine))
          (examined examine events (work.take (firstFailure examine work + 1)))) := by
  induction work generalizing b events with
  | nil => rfl
  | cons next work ih =>
      obtain ⟨path, id⟩ := next
      have hrun : runSequence examine true b ((path, id) :: work) events =
          (if Outcome.isFailure ⟨path, (examine id path events).1⟩ then do
              reportStop
              return b.add ⟨path, (examine id path events).1⟩
            else runSequence examine true (b.add ⟨path, (examine id path events).1⟩) work : Work Batch)
            (examine id path events).2 := rfl
      have houtcome : outcomeOf examine (path, id) = ⟨path, (examine id path #[]).1⟩ := rfl
      rw [hisolated id path events, ← houtcome, step_apply, ih] at hrun
      rw [hrun, firstFailure, firstFailure, List.findIdx_cons, List.any_cons, fails]
      cases (outcomeOf examine (path, id)).isFailure with
      | true => rfl
      | false => rfl

/-- With workers the chunk of the first file that fails is the last, whatever the order of arrival. Until then there
is no failure in the batch. -/
theorem runChunks_failFast {arrival : Arrival} (harrival : ∀ shares, Interleaves shares (arrival shares))
    {workers : Nat} (hworkers : 0 < workers) (size : Nat) {b : Batch} (hb : b.failed = [])
    (chunks : List (List Path × Nat)) (events : Array Event) :
    ∃ outcomes : List Outcome, runChunks examine arrival workers size true b chunks events =
        (outcomes.foldl add b, stopping ((chunks.map (numberedChunk size)).flatten.any (fails examine))
          (examined examine events (handedOut examine (chunks.map (numberedChunk size))).flatten)) ∧
      outcomes.Perm ((handedOut examine (chunks.map (numberedChunk size))).flatten.map (outcomeOf examine)) := by
  induction chunks generalizing b events with
  | nil => exact ⟨[], rfl, List.Perm.refl _⟩
  | cons chunk chunks ih =>
      obtain ⟨chunk, index⟩ := chunk
      obtain ⟨first, hfirst, hperm⟩ := runChunk_apply hisolated harrival hworkers (index * size) chunk events
      have hany : first.any Outcome.isFailure = (numberedChunk size (chunk, index)).any (fails examine) := by
        rw [hperm.any_eq, List.any_map]
        rfl
      have hrun : runChunks examine arrival workers size true b ((chunk, index) :: chunks) events =
          (if decide (0 < (b.merge (runChunk examine arrival workers (index * size) chunk events).1).failed.length) then
              do
                reportStop
                return b.merge (runChunk examine arrival workers (index * size) chunk events).1
            else runChunks examine arrival workers size true
              (b.merge (runChunk examine arrival workers (index * size) chunk events).1) chunks : Work Batch)
            (runChunk examine arrival workers (index * size) chunk events).2 := rfl
      rw [hfirst, merge_foldl_add, failed_foldl_add hb, hany, step_apply] at hrun
      rw [hrun, handedOut, List.map_cons, List.findIdx_cons, List.flatten_cons, List.any_append]
      cases hchunk : (numberedChunk size (chunk, index)).any (fails examine) with
      | true =>
          rw [if_pos rfl, cond_true, List.take_succ_cons, List.take_zero, List.flatten_singleton]
          exact ⟨first, rfl, hperm⟩
      | false =>
          have hgood : (first.foldl add b).failed = [] := by
            have hcount := failed_foldl_add hb first
            rw [hany, hchunk, decide_eq_false_iff_not, Nat.not_lt, Nat.le_zero] at hcount
            exact List.length_eq_zero_iff.1 hcount
          obtain ⟨more, hmore, hperm'⟩ := ih hgood (examined examine events (numberedChunk size (chunk, index)))
          rw [if_neg Bool.false_ne_true, cond_false, List.take_succ_cons, List.flatten_cons, List.map_append,
            examined_append]
          refine ⟨first ++ more, ?_, hperm.append hperm'⟩
          rw [List.foldl_append]
          exact hmore

end

/-- A batch of these outcomes, whatever the order they arrived in: nothing is lost, nothing counts twice, and what
parsed and what failed is in the order of paths. -/
structure Collects (files : List Path) (outcomes : List Outcome) (b : Batch) : Prop where
  discovered : b.discovered = files.length
  processed : b.processed = outcomes.length
  parsed : b.parsed.Perm (ofOutcomes files.length outcomes).parsed
  failed : b.failed.Perm (ofOutcomes files.length outcomes).failed
  parsed_sorted : b.parsed.Pairwise fun x y => x.1.le y.1
  failed_sorted : b.failed.Pairwise fun x y => x.1.le y.1

theorem collects_sorted (files : List Path) {arrived outcomes : List Outcome} (h : arrived.Perm outcomes) :
    Collects files outcomes (ofOutcomes files.length arrived).sorted := by
  rw [ofOutcomes_eq]
  constructor
  case discovered => rfl
  case processed => exact h.length_eq
  case parsed =>
    rw [ofOutcomes_eq]
    exact (List.mergeSort_perm _ _).trans (h.filterMap _)
  case failed =>
    rw [ofOutcomes_eq]
    exact (List.mergeSort_perm _ _).trans (h.filterMap _)
  case parsed_sorted => exact pairwise_sort Prod.fst _
  case failed_sorted => exact pairwise_sort Prod.fst _

/-- What some of the first outcomes come to is found again. -/
theorem Collects.of_front {files : List Path} {outcomes front : List Outcome} {b : Batch}
    (h : Collects files outcomes b) (hfront : front <+: outcomes) :
    (∀ found ∈ (ofOutcomes files.length front).parsed, found ∈ b.parsed) ∧
      ∀ failure ∈ (ofOutcomes files.length front).failed, failure ∈ b.failed := by
  have hparsed := h.parsed
  have hfailed := h.failed
  rw [ofOutcomes_eq] at hparsed hfailed
  rw [ofOutcomes_eq]
  exact ⟨fun _ hfound => hparsed.mem_iff.2 ((hfront.filterMap parsed?).subset hfound),
    fun _ hfailure => hfailed.mem_iff.2 ((hfront.filterMap failed?).subset hfailure)⟩

/-- Workers get past the first failure, or to the end of the files if there is none. -/
theorem min_le_chunkedReach (files workers first : Nat) :
    min files (first + 1) ≤ chunkedReach files workers first :=
  Nat.le_min.2 ⟨Nat.min_le_left _ _,
    Nat.le_trans (Nat.min_le_right _ _) (Nat.lt_mul_div_succ first (chunkSize_pos files workers))⟩

section

variable (examine : Examiner) (workers : Nat) (files : List Path)

theorem length_reachedAlone :
    (reachedAlone examine files).length = min files.length (firstFailure examine files.zipIdx + 1) := by
  rw [reachedAlone, List.length_take, List.length_zipIdx, Nat.min_comm]

theorem length_reachedTogether : (reachedTogether examine workers files).length =
    chunkedReach files.length workers (firstFailure examine files.zipIdx) := by
  rw [reachedTogether, List.length_take, List.length_zipIdx]
  exact Nat.min_eq_left (Nat.min_le_left _ _)

theorem reachedAlone_front : reachedAlone examine files <+: reachedTogether examine workers files := by
  rw [reachedAlone, List.take_eq_take_min, List.length_zipIdx, Nat.min_comm]
  exact List.take_prefix_take_left (min_le_chunkedReach files.length workers _)

/-- Without a failure all files are reached. -/
theorem reached_of_none {examine : Examiner} {files : List Path}
    (h : ∀ next ∈ files.zipIdx, fails examine next = false) :
    reachedAlone examine files = files.zipIdx ∧ reachedTogether examine workers files = files.zipIdx := by
  have hlength : files.zipIdx.length = files.length := List.length_zipIdx
  have hfirst : firstFailure examine files.zipIdx = files.zipIdx.length := List.findIdx_eq_length_of_false h
  have hpast := min_le_chunkedReach files.length workers (firstFailure examine files.zipIdx)
  refine ⟨List.take_of_length_le ?_, List.take_of_length_le ?_⟩ <;> omega

theorem flatten_handedOut_blocks :
    (handedOut examine (blocks (chunkSize files.length workers) files.zipIdx)).flatten =
      reachedTogether examine workers files := by
  rw [handedOut, flatten_take_blocks (chunkSize_pos files.length workers), List.take_eq_take_min, List.length_zipIdx,
    Nat.min_comm]
  rfl

end

section

variable {examine : Examiner} (hisolated : Isolated examine) (files : List Path) (events : Array Event)

include hisolated

theorem ofSequence_failFast : ofSequence examine true files events =
    (ofOutcomes files.length ((reachedAlone examine files).map (outcomeOf examine)),
      stopping (files.zipIdx.any (fails examine)) (examined examine events (reachedAlone examine files))) :=
  runSequence_failFast hisolated _ _ _

theorem ofWorkers_failFast {arrival : Arrival} (harrival : ∀ shares, Interleaves shares (arrival shares))
    {workers : Nat} (hworkers : 0 < workers) :
    ∃ outcomes : List Outcome, ofWorkers examine arrival workers true files events =
        ((ofOutcomes files.length outcomes).sorted, stopping (files.zipIdx.any (fails examine))
          (examined examine events (reachedTogether examine workers files))) ∧
      outcomes.Perm ((reachedTogether examine workers files).map (outcomeOf examine)) := by
  obtain ⟨outcomes, hchunks, hperm⟩ := runChunks_failFast hisolated harrival hworkers
    (chunkSize files.length workers) (b := { discovered := files.length }) rfl
    (blocks (chunkSize files.length workers) files).zipIdx events
  have hnumbered := map_numberedChunk (chunkSize_pos files.length workers) files 0
  rw [Nat.zero_mul] at hnumbered
  rw [hnumbered, flatten_handedOut_blocks, flatten_blocks] at hchunks
  rw [hnumbered, flatten_handedOut_blocks] at hperm
  have hrun : ofWorkers examine arrival workers true files events =
      ((runChunks examine arrival workers (chunkSize files.length workers) true { discovered := files.length }
          (blocks (chunkSize files.length workers) files).zipIdx events).1.sorted,
        (runChunks examine arrival workers (chunkSize files.length workers) true { discovered := files.length }
          (blocks (chunkSize files.length workers) files).zipIdx events).2) := rfl
  rw [hchunks] at hrun
  exact ⟨outcomes, hrun, hperm⟩

end

theorem sorted_reachedTogether {examine : Examiner} {workers : Nat} {files : List Path} {outcomes : List Outcome}
    (hfiles : files.Pairwise fun p q => q.le p = false)
    (h : outcomes.Perm ((reachedTogether examine workers files).map (outcomeOf examine))) :
    (ofOutcomes files.length outcomes).sorted =
      ofOutcomes files.length ((reachedTogether examine workers files).map (outcomeOf examine)) := by
  have htaken : List.Sublist ((reachedTogether examine workers files).map (outcomeOf examine))
      (files.zipIdx.map (outcomeOf examine)) := (List.take_sublist _ _).map _
  exact sorted_ofOutcomes files.length h ((pairwise_outcomes hfiles examine).sublist htaken)

/-- A batch that stops at failures, of files that are examined apart from each other. One after the other the files
up to the first failure are examined, each once, and what became of them is the batch. Among any number of workers,
whatever the order in which outcomes arrive, the files up to the end of the chunk with the first failure are examined,
each once, and the batch is what became of these. Without a failure all files are examined. What the one batch holds
of a file the other holds too. -/
theorem fail_fast_reach {examine : Examiner} (hisolated : Isolated examine) {arrival : Arrival}
    (harrival : ∀ shares, Interleaves shares (arrival shares)) {workers : Nat} (hworkers : 0 < workers)
    (files : List Path) (events : Array Event) :
    let first := firstFailure examine files.zipIdx
    let alone := reachedAlone examine files
    let together := reachedTogether examine workers files
    let behind := stopping (files.zipIdx.any (fails examine))
    ∃ batch batch', ofSequence examine true files events = (batch, behind (examined examine events alone)) ∧
      batch = ofOutcomes files.length (alone.map (outcomeOf examine)) ∧
      batch.processed = min files.length (first + 1) ∧
      ofWorkers examine arrival workers true files events = (batch', behind (examined examine events together)) ∧
      Collects files (together.map (outcomeOf examine)) batch' ∧
      batch'.processed = chunkedReach files.length workers first ∧
      ((files.Pairwise fun p q => q.le p = false) →
        batch' = ofOutcomes files.length (together.map (outcomeOf examine))) ∧
      ((∀ next ∈ files.zipIdx, fails examine next = false) →
        alone = files.zipIdx ∧ together = files.zipIdx) ∧
      (∀ found ∈ batch.parsed, found ∈ batch'.parsed) ∧ ∀ failure ∈ batch.failed, failure ∈ batch'.failed := by
  intro first alone together behind
  obtain ⟨outcomes, htogether, hperm⟩ := ofWorkers_failFast hisolated files events harrival hworkers
  have hcollects := collects_sorted files hperm
  have hfront : alone.map (outcomeOf examine) <+: together.map (outcomeOf examine) :=
    (reachedAlone_front examine workers files).map _
  refine ⟨_, _, ofSequence_failFast hisolated files events, rfl, ?_, htogether, hcollects, ?_, ?_,
    reached_of_none workers, ?_⟩
  · rw [ofOutcomes_eq, List.length_map, length_reachedAlone]
  · rw [hcollects.processed, List.length_map, length_reachedTogether]
  · exact fun hfiles => sorted_reachedTogether hfiles hperm
  · exact hcollects.of_front hfront

/-- Two workers get three of five files at a time, the second of which fails. -/
theorem fail_fast_reach_lateFirst :
    Isolated secondFails ∧ (∀ shares, Interleaves shares (lateFirst shares)) ∧
      ∃ batch batch',
        ofSequence secondFails true [⟨"a.txt"⟩, ⟨"b.txt"⟩, ⟨"c.txt"⟩, ⟨"d.txt"⟩, ⟨"e.txt"⟩] #[] =
          (batch, #[Event.info "a.txt", Event.info "b.txt",
            Event.warning "Fail-fast mode enabled, stopping batch processing"]) ∧
        ofWorkers secondFails lateFirst 2 true [⟨"a.txt"⟩, ⟨"b.txt"⟩, ⟨"c.txt"⟩, ⟨"d.txt"⟩, ⟨"e.txt"⟩] #[] =
          (batch', #[Event.info "a.txt", Event.info "b.txt", Event.info "c.txt",
            Event.warning "Fail-fast mode enabled, stopping batch processing"]) ∧
        batch.processed = 2 ∧ batch'.processed = 3 ∧
        batch'.parsed.map Prod.fst = [⟨"a.txt"⟩, ⟨"c.txt"⟩] ∧ batch'.failed.map Prod.fst = [⟨"b.txt"⟩] := by
  have hisolated : Isolated secondFails := fun _ _ _ => rfl
  obtain ⟨batch, batch', hsequence, -, halone, hworkers, -, hshared, hstrict, -⟩ :=
    fail_fast_reach hisolated interleaves_lateFirst Nat.two_pos
      [⟨"a.txt"⟩, ⟨"b.txt"⟩, ⟨"c.txt"⟩, ⟨"d.txt"⟩, ⟨"e.txt"⟩] #[]
  have hbatch := hstrict (by decide)
  refine ⟨hisolated, interleaves_lateFirst, batch, batch', hsequence, hworkers, halone, hshared, ?_, ?_⟩
  · rw [hbatch]
    rfl
  · rw [hbatch]
    rfl

end CalExport.Batch
