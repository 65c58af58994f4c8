import CalExport.Batch.Run
import Mathlib.Data.List.Pairwise

namespace CalExport

namespace Path

theorem namesLe_total (a b : List String) : (namesLe a b || namesLe b a) = true := by
  induction a generalizing b with
  | nil => rfl
  | cons x a ih =>
      cases b with
      | nil => rfl
      | cons y b =>
          by_cases hxy : x = y
          · subst hxy
            simpa [namesLe] using ih b
          · have hlt : x < y ∨ y < x := by
              apply Classical.byContradiction
              intro h
              rw [not_or, String.not_lt, String.not_lt] at h
              exact hxy (String.le_antisymm h.2 h.1)
            simpa [namesLe, hxy, Ne.symm hxy] using hlt

theorem namesLe_trans {a b c : List String} (hab : namesLe a b = true) (hbc : namesLe b c = true) :
    namesLe a c = true := by
  induction a generalizing b c with
  | nil => rfl
  | cons x a ih =>
      cases b with
      | nil => simp [namesLe] at hab
      | cons y b =>
          cases c with
          | nil => simp [namesLe] at hbc
          | cons z c =>
              by_cases hxy : x = y <;> by_cases hyz : y = z <;> simp only [namesLe, hxy, hyz, if_true, if_false,
                decide_eq_true_eq] at hab hbc ⊢
              · exact ih hab hbc
              · exact hbc
              · subst hyz
                simpa [hxy] using hab
              · have hxz := String.lt_trans hab hbc
                have hne : x ≠ z := by
                  rintro rfl
                  exact String.lt_irrefl x hxz
                simpa [hne] using hxz

theorem le_total (p q : Path) : (p.le q || q.le p) = true := namesLe_total p.names q.names

theorem le_trans {p q r : Path} (hpq : p.le q = true) (hqr : q.le r = true) : p.le r = true :=
  namesLe_trans hpq hqr

end Path

namespace Batch

variable {α : Type}

theorem flatten_blocks (size : Nat) (l : List α) : (blocks size l).flatten = l := by
  fun_induction blocks size l with
  | case1 => rfl
  | case2 a rest ih => rw [List.flatten_cons, ih, List.cons_append, List.take_append_drop]

theorem le_mul_ceilDiv (num : Nat) {den : Nat} (h : 0 < den) : num ≤ den * ceilDiv num den := by
  have hdiv := Nat.div_add_mod (num + den - 1) den
  have hmod := Nat.mod_lt (num + den - 1) h
  unfold ceilDiv
  omega

theorem chunkSize_pos (files workers : Nat) : 0 < chunkSize files workers := by
  unfold chunkSize maxChunk
  omega

theorem workers_pos (o : BatchOptions) : 0 < o.workers := by
  unfold BatchOptions.workers maxWorkers
  omega

def numbered (firstId : Nat) (share : Nat × List Path) : List (Path × Nat) :=
  share.2.zipIdx.map fun (path, localId) => (path, firstId + share.1 + localId)

theorem numbered_eq (firstId : Nat) (share : Nat × List Path) :
    numbered firstId share = share.2.zipIdx (firstId + share.1) := by
  rw [List.zipIdx_eq_map_add]
  rfl

/-- From the `first`-th worker on the shares lie end to end, each numbered from its start. -/
theorem flatMap_numbered_from {chunk : List Path} {size : Nat} (firstId workers first : Nat)
    (h : chunk.length ≤ (first + workers) * size) :
    (((List.range' first workers).takeWhile fun worker => worker * size < chunk.length).map fun worker =>
        (worker * size, chunk.extract (worker * size) (min ((worker + 1) * size) chunk.length))).flatMap
      (numbered firstId) = (chunk.drop (first * size)).zipIdx (firstId + first * size) := by
  induction workers generalizing first with
  | zero =>
      rw [Nat.add_zero] at h
      rw [List.drop_of_length_le h]
      rfl
  | succ workers ih =>
      rw [List.range'_succ, List.takeWhile_cons]
      by_cases hmore : first * size < chunk.length
      · have hrest := ih (first + 1) (by rwa [Nat.add_assoc, Nat.add_comm 1 workers])
        have hshare : chunk.extract (first * size) (min ((first + 1) * size) chunk.length) =
            (chunk.drop (first * size)).take size := by
          rw [List.extract_eq_take_drop, Nat.succ_mul, List.take_eq_take_iff, List.length_drop]
          omega
        rw [decide_eq_true hmore, if_pos rfl, List.map_cons, List.flatMap_cons, hrest, hshare, numbered_eq,
          ← List.take_append_drop size (chunk.drop (first * size)), List.zipIdx_append, List.take_append_drop,
          List.drop_drop, ← Nat.succ_mul]
        congr 1
        -- behind a share that is not full nothing is left
        rcases Nat.le_total size (chunk.drop (first * size)).length with hfull | hshort
        · rw [List.length_take, Nat.min_eq_left hfull, Nat.succ_mul, Nat.add_assoc]
        · rw [List.length_drop] at hshort
          rw [List.drop_of_length_le (by rw [Nat.succ_mul]; omega)]
          rfl
      · rw [decide_eq_false hmore, if_neg Bool.false_ne_true, List.drop_of_length_le (Nat.le_of_not_lt hmore)]
        rfl

/-- Whatever the number of workers, their shares are the chunk, numbered from its first file on. -/
theorem flatMap_numbered {workers : Nat} (h : 0 < workers) (firstId : Nat) (chunk : List Path) :
    (shares workers chunk).flatMap (numbered firstId) = chunk.zipIdx firstId := by
  have hfits : chunk.length ≤ (0 + workers) * ceilDiv chunk.length workers := by
    rw [Nat.zero_add]
    exact le_mul_ceilDiv chunk.length h
  have hall := flatMap_numbered_from firstId workers 0 hfits
  rwa [← List.range_eq_range', Nat.zero_mul, List.drop_zero, Nat.add_zero] at hall

theorem length_shares_le (workers : Nat) (chunk : List Path) : (shares workers chunk).length ≤ workers := by
  have htaken := (List.takeWhile_sublist (fun worker => decide (worker * ceilDiv chunk.length workers < chunk.length))
    (l := List.range workers)).length_le
  rw [List.length_range] at htaken
  rw [shares, List.length_map]
  exact htaken

def numberedChunk (size : Nat) (chunk : List Path × Nat) : List (Path × Nat) := chunk.1.zipIdx (chunk.2 * size)

theorem take_zipIdx (n i : Nat) (l : List α) : (l.zipIdx i).take n = (l.take n).zipIdx i := by
  induction l generalizing n i with
  | nil => simp
  | cons a l ih => cases n <;> simp [ih]

theorem drop_zipIdx (n i : Nat) (l : List α) : (l.zipIdx i).drop n = (l.drop n).zipIdx (i + n) := by
  induction l generalizing n i with
  | nil => simp
  | cons a l ih => cases n <;> simp [ih, Nat.add_assoc, Nat.add_comm 1]

/-- Cutting a list and numbering the chunks comes to the same as cutting the numbered list. -/
theorem map_numberedChunk {size : Nat} (h : 0 < size) (files : List Path) (index : Nat) :
    ((blocks size files).zipIdx index).map (numberedChunk size) = blocks size (files.zipIdx (index * size)) := by
  fun_induction blocks size files generalizing index with
  | case1 => simp [blocks]
  | case2 path rest ih =>
      have hnext : index * size + 1 + (size - 1) = (index + 1) * size := by
        rw [Nat.succ_mul]
        omega
      rw [List.zipIdx_cons, List.map_cons, ih, numberedChunk, List.zipIdx_cons, List.zipIdx_cons, blocks,
        take_zipIdx, drop_zipIdx, hnext]

/-- All that the workers are given, chunk by chunk and share by share, with the numbers that they examine it under. -/
def given (workers : Nat) (files : List Path) : List (Path × Nat) :=
  let size := chunkSize files.length workers
  (blocks size files).zipIdx.flatMap fun (chunk, index) => (shares workers chunk).flatMap (numbered (index * size))

/-- Every file is given to one worker, and its number is its place in the list. -/
theorem given_eq {workers : Nat} (h : 0 < workers) (files : List Path) : given workers files = files.zipIdx := by
  have hchunks := map_numberedChunk (chunkSize_pos files.length workers) files 0
  rw [Nat.zero_mul] at hchunks
  have hgiven : given workers files =
      (((blocks (chunkSize files.length workers) files).zipIdx 0).map
        (numberedChunk (chunkSize files.length workers))).flatten :=
    congrArg List.flatten (List.map_congr_left fun chunk _ => flatMap_numbered h _ _)
  rw [hgiven, hchunks, flatten_blocks]

def ofOutcomes (discovered : Nat) (outcomes : List Outcome) : Batch := outcomes.foldl add { discovered }

def parsed? (o : Outcome) : Option (Path × FileAnalysis) := o.result.toOption.map (o.path, ·)

def failed? (o : Outcome) : Option (Path × FileFailure) :=
  match o.result with
  | .ok _ => none
  | .error cause => some (o.path, cause)

theorem foldl_add (b : Batch) (outcomes : List Outcome) : outcomes.foldl add b =
    ⟨b.parsed ++ outcomes.filterMap parsed?, b.failed ++ outcomes.filterMap failed?, b.processed + outcomes.length,
      b.discovered⟩ := by
  induction outcomes generalizing b with
  | nil => simp
  | cons o outcomes ih =>
      rw [List.foldl_cons, ih]
      cases hresult : o.result with
      | ok found =>
          have hadd : b.add o = b.addParsed o.path found := by rw [add, hresult]
          have hparsed : parsed? o = some (o.path, found) := by rw [parsed?, hresult]; rfl
          have hfailed : failed? o = none := by rw [failed?, hresult]
          simp [hadd, addParsed, hparsed, hfailed, Nat.add_comm 1, Nat.add_assoc]
      | error cause =>
          have hadd : b.add o = b.addFailed o.path cause := by rw [add, hresult]
          have hparsed : parsed? o = none := by rw [parsed?, hresult]; rfl
          have hfailed : failed? o = some (o.path, cause) := by rw [failed?, hresult]
          simp [hadd, addFailed, hparsed, hfailed, Nat.add_comm 1, Nat.add_assoc]

theorem ofOutcomes_eq (discovered : Nat) (outcomes : List Outcome) : ofOutcomes discovered outcomes =
    ⟨outcomes.filterMap parsed?, outcomes.filterMap failed?, outcomes.length, discovered⟩ := by
  simp [ofOutcomes, foldl_add]

/-- The batch of a chunk, behind the chunks before it. -/
theorem merge_foldl_add (b : Batch) (outcomes : List Outcome) :
    b.merge (outcomes.foldl add {}) = outcomes.foldl add b := by
  simp [merge, foldl_add]

/-- The counter of a batch counts what parsed and what failed. -/
theorem length_foldl_add {b : Batch} (h : b.processed = b.parsed.length + b.failed.length) (outcomes : List Outcome) :
    (outcomes.foldl add b).processed = (outcomes.foldl add b).parsed.length + (outcomes.foldl add b).failed.length := by
  induction outcomes generalizing b with
  | nil => exact h
  | cons o outcomes ih =>
      apply ih
      unfold add
      split
      · simp only [addParsed, List.length_append, List.length_singleton]
        omega
      · simp only [addFailed, List.length_append, List.length_singleton]
        omega

/-- What an examination yields and reports depends on the file and its number alone. -/
def Isolated (examine : Examiner) : Prop :=
  ∀ id path events, examine id path events = ((examine id path #[]).1, events ++ (examine id path #[]).2)

theorem attributed_apply (on : Bool) (file : String) (id : Nat) (work : Work α) (events : Array Event) :
    Work.attributed on file id work events =
      ((work #[]).1, events ++ if on then (work #[]).2.map fun e => e.within file id else (work #[]).2) := rfl

/-- The files of a directory are examined apart from each other. -/
theorem isolated_examiner (p : Preferences) (fs : FileSystem) : Isolated (examiner p fs) := by
  intro id path events
  simp only [examiner, attributed_apply, Array.empty_append]

def outcomeOf (examine : Examiner) (work : Path × Nat) : Outcome := ⟨work.1, (examine work.2 work.1 #[]).1⟩

/-- The events behind `events` when each of these files was examined once, in this order, under its number. -/
def examined (examine : Examiner) (events : Array Event) (work : List (Path × Nat)) : Array Event :=
  work.foldl (fun events next => events ++ (examine next.2 next.1 #[]).2) events

theorem examined_cons (examine : Examiner) (events : Array Event) (next : Path × Nat) (work : List (Path × Nat)) :
    examined examine events (next :: work) = examined examine (events ++ (examine next.2 next.1 #[]).2) work := rfl

theorem examined_append (examine : Examiner) (events : Array Event) (work more : List (Path × Nat)) :
    examined examine events (work ++ more) = examined examine (examined examine events work) more :=
  List.foldl_append

/-- What yields `value a` when it examines the files `work a` does so for a whole list. -/
theorem mapM_apply {examine : Examiner} {β : Type} {f : α → Work β} {value : α → β} {work : α → List (Path × Nat)}
    (h : ∀ a events, f a events = (value a, examined examine events (work a))) (l : List α) (events : Array Event) :
    l.mapM f events = (l.map value, examined examine events (l.flatMap work)) := by
  induction l generalizing events with
  | nil => rfl
  | cons a l ih =>
      have hstep : (a :: l).mapM f events =
          ((f a events).1 :: (l.mapM f (f a events).2).1, (l.mapM f (f a events).2).2) := by
        rw [List.mapM_cons]
        rfl
      rw [hstep, h, ih, List.flatMap_cons, examined_append]
      rfl

/-- The outcomes of all workers reach the collector one by one, each time the next one of some worker. -/
inductive Interleaves : List (List α) → List α → Prop where
  | done {shares : List (List α)} : (∀ share ∈ shares, share = []) → Interleaves shares []
  | append {before after : List (List α)} {a : α} {share arrived : List α} :
      Interleaves (before ++ share :: after) arrived → Interleaves (before ++ (a :: share) :: after) (a :: arrived)

theorem Interleaves.perm {shares : List (List α)} {arrived : List α} (h : Interleaves shares arrived) :
    arrived.Perm shares.flatten := by
  induction h with
  | done hall => rw [List.flatten_eq_nil_iff.2 hall]
  | @append before after a share arrived _ ih =>
      rw [List.flatten_append, List.flatten_cons] at ih ⊢
      exact (ih.cons a).trans List.perm_middle.symm

section

variable {examine : Examiner} (hisolated : Isolated examine)

include hisolated

theorem runSequence_apply (b : Batch) (work : List (Path × Nat)) (events : Array Event) :
    runSequence examine false b work events =
      ((work.map (outcomeOf examine)).foldl add b, examined examine events work) := by
  induction work generalizing b events with
  | nil => rfl
  | cons next work ih =>
      obtain ⟨path, id⟩ := next
      have hstep : runSequence examine false b ((path, id) :: work) events =
          runSequence examine false (b.add ⟨path, (examine id path events).1⟩) work (examine id path events).2 := rfl
      rw [hstep, hisolated id path events, ih, examined_cons]
      rfl

theorem runShare_apply (firstId : Nat) (share : Nat × List Path) (events : Array Event) :
    runShare examine firstId share events =
      ((numbered firstId share).map (outcomeOf examine), examined examine events (numbered firstId share)) := by
  have hfile : ∀ (file : Path × Nat) (events : Array Event),
      (do return (⟨file.1, ← examine (firstId + share.1 + file.2) file.1⟩ : Outcome) : Work Outcome) events =
        (outcomeOf examine (file.1, firstId + share.1 + file.2),
          examined examine events [(file.1, firstId + share.1 + file.2)]) := by
    intro file events
    rw [examined_cons]
    exact congrArg (fun found => ((⟨file.1, found.1⟩ : Outcome), found.2)) (hisolated _ file.1 events)
  have hall := mapM_apply hfile share.2.zipIdx events
  rw [← List.map_eq_flatMap] at hall
  rw [numbered, List.map_map]
  exact hall

theorem shares_apply (firstId : Nat) (given : List (Nat × List Path)) (events : Array Event) :
    given.mapM (runShare examine firstId) events =
      (given.map fun share => (numbered firstId share).map (outcomeOf examine),
        examined examine events (given.flatMap (numbered firstId))) :=
  mapM_apply (runShare_apply hisolated firstId) given events

section

variable {arrival : Arrival} (harrival : ∀ shares, Interleaves shares (arrival shares)) {workers : Nat}
  (hworkers : 0 < workers)

include harrival hworkers

/-- A chunk comes to the outcomes of its files in some order, and every file of it was examined once. -/
theorem runChunk_apply (firstId : Nat) (chunk : List Path) (events : Array Event) :
    ∃ outcomes : List Outcome, runChunk examine arrival workers firstId chunk events =
        (outcomes.foldl add {}, examined examine events (chunk.zipIdx firstId)) ∧
      outcomes.Perm ((chunk.zipIdx firstId).map (outcomeOf examine)) := by
  have hstep : runChunk examine arrival workers firstId chunk events =
      ((arrival ((shares workers chunk).mapM (runShare examine firstId) events).1).foldl add {},
        ((shares workers chunk).mapM (runShare examine firstId) events).2) := rfl
  rw [shares_apply hisolated, flatMap_numbered hworkers] at hstep
  refine ⟨_, hstep, ?_⟩
  have hperm := (harrival ((shares workers chunk).map fun share =>
    (numbered firstId share).map (outcomeOf examine))).perm
  rwa [← List.flatMap_def, ← List.map_flatMap, flatMap_numbered hworkers] at hperm

theorem runChunks_apply (size : Nat) (b : Batch) (chunks : List (List Path × Nat)) (events : Array Event) :
    ∃ outcomes : List Outcome, runChunks examine arrival workers size false b chunks events =
        (outcomes.foldl add b, examined examine events (chunks.flatMap (numberedChunk size))) ∧
      outcomes.Perm ((chunks.flatMap (numberedChunk size)).map (outcomeOf examine)) := by
  induction chunks generalizing b events with
  | nil => exact ⟨[], rfl, List.Perm.refl _⟩
  | cons chunk chunks ih =>
      obtain ⟨chunk, index⟩ := chunk
      obtain ⟨first, hfirst, hperm⟩ := runChunk_apply hisolated harrival hworkers (index * size) chunk events
      obtain ⟨more, hmore, hperm'⟩ := ih (first.foldl add b) (examined examine events (chunk.zipIdx (index * size)))
      have hstep : runChunks examine arrival workers size false b ((chunk, index) :: chunks) events =
          runChunks examine arrival workers size false
            (b.merge (runChunk examine arrival workers (index * size) chunk events).1) chunks
            (runChunk examine arrival workers (index * size) chunk events).2 := rfl
      rw [hfirst, merge_foldl_add, hmore, ← List.foldl_append] at hstep
      refine ⟨first ++ more, ?_, ?_⟩
      · rw [hstep, List.flatMap_cons, examined_append]
        rfl
      · rw [List.flatMap_cons, List.map_append]
        exact hperm.append hperm'

end

end

theorem pairwise_sort (key : α → Path) (found : List α) :
    (found.mergeSort fun x y => (key x).le (key y)).Pairwise fun x y => (key x).le (key y) = true := by
  have htotal : ∀ x y, ((key x).le (key y) || (key y).le (key x)) = true := fun x y => Path.le_total (key x) (key y)
  have htrans : ∀ x y z, (key x).le (key y) = true → (key y).le (key z) = true → (key x).le (key z) = true :=
    fun _ _ _ => Path.le_trans
  exact List.pairwise_mergeSort htrans htotal found

/-- What is told apart by paths in strict order comes back in that order, whatever order it arrived in. -/
theorem mergeSort_eq_of_perm (key : α → Path) {arrived ordered : List α} (h : arrived.Perm ordered)
    (hordered : ordered.Pairwise fun x y => (key y).le (key x) = false) :
    arrived.mergeSort (fun x y => (key x).le (key y)) = ordered := by
  have hsorted := pairwise_sort key arrived
  have hperm := (arrived.mergeSort_perm fun x y => (key x).le (key y)).trans h
  refine List.Perm.eq_of_pairwise ?_ hsorted ?_ hperm
  · intro x y hx hy hxy hyx
    -- two of the ordered ones that come before each other are one
    have hapart : ordered.Pairwise fun x y => ¬ ((key x).le (key y) = true ∧ (key y).le (key x) = true) := by
      refine hordered.imp ?_
      intro x y hyx
      simp [hyx]
    have : Std.Symm fun x y : α => ¬ ((key x).le (key y) = true ∧ (key y).le (key x) = true) :=
      ⟨fun _ _ h h' => h h'.symm⟩
    apply Classical.byContradiction
    intro hne
    exact hapart.forall (hperm.mem_iff.1 hx) hy hne ⟨hxy, hyx⟩
  · refine hordered.imp ?_
    intro x y hyx
    simpa [hyx] using Path.le_total (key x) (key y)

/-- The same for what is kept of outcomes under their paths. -/
theorem mergeSort_filterMap {kept : Outcome → Option (Path × α)} (hkept : ∀ o x, kept o = some x → x.1 = o.path)
    {arrived ordered : List Outcome} (h : arrived.Perm ordered)
    (hordered : ordered.Pairwise fun o o' => o'.path.le o.path = false) :
    (arrived.filterMap kept).mergeSort (fun x y => x.1.le y.1) = ordered.filterMap kept := by
  refine mergeSort_eq_of_perm Prod.fst (h.filterMap kept) (hordered.filterMap kept ?_)
  intro o o' ho x hx y hy
  rwa [hkept o x hx, hkept o' y hy]

theorem path_parsed? (o : Outcome) {x : Path × FileAnalysis} (h : parsed? o = some x) : x.1 = o.path := by
  obtain ⟨found, -, rfl⟩ := Option.map_eq_some_iff.1 h
  rfl

theorem path_failed? (o : Outcome) {x : Path × FileFailure} (h : failed? o = some x) : x.1 = o.path := by
  unfold failed? at h
  split at h
  · cases h
  · cases h
    rfl

theorem sorted_ofOutcomes (discovered : Nat) {arrived ordered : List Outcome} (h : arrived.Perm ordered)
    (hordered : ordered.Pairwise fun o o' => o'.path.le o.path = false) :
    (ofOutcomes discovered arrived).sorted = ofOutcomes discovered ordered := by
  rw [ofOutcomes_eq, ofOutcomes_eq, sorted]
  simp only [mergeSort_filterMap path_parsed? h hordered, mergeSort_filterMap path_failed? h hordered, h.length_eq]

theorem pairwise_outcomes {files : List Path} (hfiles : files.Pairwise fun p q => q.le p = false)
    (examine : Examiner) :
    (files.zipIdx.map (outcomeOf examine)).Pairwise fun o o' => o'.path.le o.path = false := by
  rw [← List.zipIdx_map_fst 0 files, List.pairwise_map] at hfiles
  rw [List.pairwise_map]
  exact hfiles

section

variable {examine : Examiner} (hisolated : Isolated examine) (files : List Path) (events : Array Event)

include hisolated

theorem ofSequence_apply : ofSequence examine false files events =
    (ofOutcomes files.length (files.zipIdx.map (outcomeOf examine)), examined examine events files.zipIdx) :=
  runSequence_apply hisolated _ _ _

theorem ofWorkers_apply {arrival : Arrival} (harrival : ∀ shares, Interleaves shares (arrival shares)) {workers : Nat}
    (hworkers : 0 < workers) : ∃ outcomes : List Outcome, ofWorkers examine arrival workers false files events =
        ((ofOutcomes files.length outcomes).sorted, examined examine events files.zipIdx) ∧
      outcomes.Perm (files.zipIdx.map (outcomeOf examine)) := by
  have hchunks := map_numberedChunk (chunkSize_pos files.length workers) files 0
  obtain ⟨outcomes, hrun, hperm⟩ := runChunks_apply hisolated harrival hworkers (chunkSize files.length workers)
    { discovered := files.length } (blocks (chunkSize files.length workers) files).zipIdx events
  rw [List.flatMap_def, hchunks, flatten_blocks, Nat.zero_mul] at hrun hperm
  have hstep : ofWorkers examine arrival workers false files events =
      ((runChunks examine arrival workers (chunkSize files.length workers) false { discovered := files.length }
          (blocks (chunkSize files.length workers) files).zipIdx events).1.sorted,
        (runChunks examine arrival workers (chunkSize files.length workers) false { discovered := files.length }
          (blocks (chunkSize files.length workers) files).zipIdx events).2) := rfl
  rw [hrun] at hstep
  exact ⟨outcomes, hstep, hperm⟩

/-- In strict order of their paths the files come to the same batch, shared or not. -/
theorem ofWorkers_eq_ofSequence {arrival : Arrival} (harrival : ∀ shares, Interleaves shares (arrival shares))
    {workers : Nat} (hworkers : 0 < workers) (hfiles : files.Pairwise fun p q => q.le p = false) :
    ofWorkers examine arrival workers false files events = ofSequence examine false files events := by
  obtain ⟨outcomes, hrun, hperm⟩ := ofWorkers_apply hisolated files events harrival hworkers
  rw [hrun, ofSequence_apply hisolated, sorted_ofOutcomes _ hperm (pairwise_outcomes hfiles examine)]

end

/-- Files in strict order of their paths, examined apart from each other: shared among any number of workers, and
whatever the order in which their outcomes arrive, they come to the same batch as one after the other. Each is given to
one worker, whose arithmetic comes to its place in the list, is examined once under this number, and is counted once. -/
theorem workers_agree {examine : Examiner} (hisolated : Isolated examine) {arrival : Arrival}
    (harrival : ∀ shares, Interleaves shares (arrival shares)) (o : BatchOptions) {files : List Path}
    (hfiles : files.Pairwise fun p q => q.le p = false) (events : Array Event) :
    ∃ batch, ofWorkers examine arrival o.workers false files events = (batch, examined examine events files.zipIdx) ∧
      ofSequence examine false files events = (batch, examined examine events files.zipIdx) ∧
      given o.workers files = files.zipIdx ∧
      batch.discovered = files.length ∧ batch.processed = files.length ∧
      batch.parsed.length + batch.failed.length = files.length ∧
      ∀ chunk ∈ blocks (chunkSize files.length o.workers) files, (shares o.workers chunk).length ≤ o.workers := by
  have hsequence := ofSequence_apply hisolated files events
  have hworkers := ofWorkers_eq_ofSequence hisolated files events harrival (workers_pos o) hfiles
  rw [hsequence] at hworkers
  have hprocessed : (ofOutcomes files.length (files.zipIdx.map (outcomeOf examine))).processed = files.length := by
    simp [ofOutcomes_eq]
  have hcounted : (ofOutcomes files.length (files.zipIdx.map (outcomeOf examine))).processed = _ :=
    length_foldl_add rfl _
  exact ⟨_, hworkers, hsequence, given_eq (workers_pos o) files, by rw [ofOutcomes_eq], hprocessed,
    hcounted.symm.trans hprocessed, fun chunk _ => length_shares_le o.workers chunk⟩

def lateFirst : Arrival := fun shares => shares.reverse.flatten

theorem Interleaves.last {shares : List (List α)} {arrived : List α} (h : Interleaves shares arrived)
    (share : List α) : Interleaves (share :: shares) (arrived ++ share) := by
  induction h with
  | done hall =>
      induction share with
      | nil => exact .done (List.forall_mem_cons.2 ⟨rfl, hall⟩)
      | cons a share ih => exact @Interleaves.append α [] _ a share share ih
  | @append before after a rest arrived _ ih =>
      exact @Interleaves.append α (share :: before) after a rest (arrived ++ share) ih

theorem interleaves_lateFirst (shares : List (List Outcome)) : Interleaves shares (lateFirst shares) := by
  induction shares with
  | nil => exact .done nofun
  | cons share shares ih =>
      have hlast := ih.last share
      rwa [lateFirst, ← List.flatten_concat, ← List.reverse_cons] at hlast

def secondFails : Examiner := fun id path events =>
  (if id = 1 then .error (.reading (.notFound path.text))
    else .ok ⟨⟨path, 0, none, 0, .utf8⟩, ⟨⟨none, Text.Span.origin⟩, [], [], 0, {}⟩⟩,
    events.push (Event.info path.text))

/-- Two workers share three files, of which the second fails. -/
theorem workers_agree_lateFirst :
    ([⟨"a.txt"⟩, ⟨"b/c.txt"⟩, ⟨"b.txt"⟩] : List Path).Pairwise (fun p q => q.le p = false) ∧
      ∃ batch, ofWorkers secondFails lateFirst 2 false [⟨"a.txt"⟩, ⟨"b/c.txt"⟩, ⟨"b.txt"⟩] #[] =
          (batch, #[Event.info "a.txt", Event.info "b/c.txt", Event.info "b.txt"]) ∧
        batch.parsed.length = 2 ∧ batch.failed.length = 1 := by
  have hisolated : Isolated secondFails := fun _ _ _ => rfl
  have hfiles : ([⟨"a.txt"⟩, ⟨"b/c.txt"⟩, ⟨"b.txt"⟩] : List Path).Pairwise (fun p q => q.le p = false) := by decide
  obtain ⟨batch, hworkers, hsequence, -⟩ :=
    workers_agree hisolated interleaves_lateFirst { threads := 2 } hfiles #[]
  obtain ⟨rfl, -⟩ := Prod.mk.inj hsequence
  exact ⟨hfiles, _, hworkers, rfl, rfl⟩

end Batch

end CalExport
