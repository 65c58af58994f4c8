import CalExport.Proofs.Discovery
import CalExport.Proofs.FailFast

namespace CalExport.Batch

open Selection

theorem Interleaves.first {α : Type} {shares : List (List α)} {arrived : List α} (h : Interleaves shares arrived)
    (share : List α) : Interleaves (share :: shares) (share ++ arrived) := by
  induction share with
  | nil =>
      induction h with
      | done hall => exact .done (List.forall_mem_cons.2 ⟨rfl, hall⟩)
      | @append before after a rest arrived _ ih => exact @Interleaves.append α ([] :: before) after a rest arrived ih
  | cons a share ih => exact @Interleaves.append α [] shares a share _ ih

theorem interleaves_flatten (shares : List (List Outcome)) : Interleaves shares shares.flatten := by
  induction shares with
  | nil => exact .done nofun
  | cons share shares ih => exact ih.first share

def found (o : BatchOptions) (dir : Path) (entries : List (String × Node)) : List Path :=
  sortedFiles o.preferences.files.accepts o.selection.recursive dir entries

def taken (o : BatchOptions) (dir : Path) (entries : List (String × Node)) : List Path :=
  o.selection.wanted (found o dir entries)

def collected (o : BatchOptions) (fs : FileSystem) (dir : Path) (entries : List (String × Node))
    (reached : List Path → List (Path × Nat)) : Except BatchError Batch :=
  if found o dir entries = [] then .error (.noFiles dir.text)
  else .ok (ofOutcomes (taken o dir entries).length
    ((reached (taken o dir entries)).map (outcomeOf (examiner o.preferences fs))))

section

variable (o : BatchOptions) {fs : FileSystem} {dir : Path} {entries : List (String × Node)}
  (hdir : fs.find? dir = some (.directory entries))
  (hfew : (acceptedFiles o.preferences.files.accepts o.selection.recursive dir entries).length ≤ maxBatchFiles)
  {reached : List Path → List (Path × Nat)} (events : Array Event)

include hdir hfew

theorem discover_taken (events : Array Event) : (o.selection.discover o.preferences.files fs dir events).1 =
    if found o dir entries = [] then .error (.noFiles dir.text) else .ok (taken o dir entries) :=
  o.selection.discover_fst o.preferences.files hdir hfew events

theorem sequential_fst
    (h : ∀ events, (ofSequence (examiner o.preferences fs) o.failFast (taken o dir entries) events).1 =
      ofOutcomes (taken o dir entries).length
        ((reached (taken o dir entries)).map (outcomeOf (examiner o.preferences fs)))) :
    (sequential o fs dir events).1 = collected o fs dir entries reached := by
  have hdiscover := discover_taken o hdir hfew
  rw [sequential, report_apply, collected]
  split
  case isTrue hnone => exact bind_fst_of_error _ (by rw [hdiscover, if_pos hnone])
  case isFalse hsome =>
    rw [bind_apply_of_ok (by rw [hdiscover, if_neg hsome])]
    exact congrArg Except.ok (h _)

theorem parallel_fst
    (h : ∀ events, (ofWorkers (examiner o.preferences fs) List.flatten o.workers o.failFast (taken o dir entries)
        events).1 =
      ofOutcomes (taken o dir entries).length
        ((reached (taken o dir entries)).map (outcomeOf (examiner o.preferences fs)))) :
    (parallel o fs dir events).1 = collected o fs dir entries reached := by
  have hdiscover := discover_taken o hdir hfew
  rw [parallel, report_apply, collected]
  split
  case isTrue hnone => exact bind_fst_of_error _ (by rw [hdiscover, if_pos hnone])
  case isFalse hsome =>
    rw [bind_apply_of_ok (by rw [hdiscover, if_neg hsome]), report_apply]
    exact congrArg Except.ok (h _)

end

theorem pairwise_taken (o : BatchOptions) (dir : Path) {entries : List (String × Node)}
    (h : (Node.directory entries).Named) : (taken o dir entries).Pairwise fun p q => q.le p = false := by
  have hfound : (found o dir entries).Pairwise fun p q => q.le p = false := pairwise_sortedFiles _ _ dir h
  unfold taken wanted
  split
  · exact hfound.sublist (List.take_sublist _ _)
  · exact hfound

section

variable (o : BatchOptions) {fs : FileSystem} {dir : Path} {entries : List (String × Node)}
  (hdir : fs.find? dir = some (.directory entries)) (hnamed : (Node.directory entries).Named)
  (hfew : (acceptedFiles o.preferences.files.accepts o.selection.recursive dir entries).length ≤ maxBatchFiles)
  (events : Array Event)

include hdir hnamed hfew

/-- With workers or without, a directory comes to what became of every file found in it. -/
theorem directory_agrees (ho : o.failFast = false) :
    (sequential o fs dir events).1 = collected o fs dir entries List.zipIdx ∧
      (parallel o fs dir events).1 = collected o fs dir entries List.zipIdx ∧
      (run o fs dir events).1 = collected o fs dir entries List.zipIdx := by
  have hisolated := isolated_examiner o.preferences fs
  have hfiles := pairwise_taken o dir hnamed
  have hsequential : (sequential o fs dir events).1 = collected o fs dir entries List.zipIdx := by
    refine sequential_fst o hdir hfew events ?_
    intro events
    rw [ho, ofSequence_apply hisolated]
  have hparallel : (parallel o fs dir events).1 = collected o fs dir entries List.zipIdx := by
    refine parallel_fst o hdir hfew events ?_
    intro events
    rw [ho, ofWorkers_eq_ofSequence hisolated _ _ interleaves_flatten (workers_pos o) hfiles,
      ofSequence_apply hisolated]
  refine ⟨hsequential, hparallel, ?_⟩
  unfold run
  split
  · exact hsequential
  · exact hparallel

/-- When failures stop the batch, it comes to what became of the files up to the first failure, or up to the end of
its chunk. -/
theorem directory_failFast (ho : o.failFast = true) :
    (sequential o fs dir events).1 =
        collected o fs dir entries (reachedAlone (examiner o.preferences fs)) ∧
      (parallel o fs dir events).1 =
        collected o fs dir entries (reachedTogether (examiner o.preferences fs) o.workers) := by
  have hisolated := isolated_examiner o.preferences fs
  have hfiles := pairwise_taken o dir hnamed
  constructor
  case left =>
    refine sequential_fst o hdir hfew events ?_
    intro events
    rw [ho, ofSequence_failFast hisolated]
  case right =>
    refine parallel_fst o hdir hfew events ?_
    intro events
    obtain ⟨outcomes, hrun, hperm⟩ := ofWorkers_failFast hisolated
      (taken o dir entries) events interleaves_flatten
      (workers_pos o)
    rw [ho, hrun]
    exact sorted_reachedTogether hfiles hperm

end

end CalExport.Batch
