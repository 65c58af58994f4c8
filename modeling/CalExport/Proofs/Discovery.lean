import CalExport.Proofs.BatchAgreement
import Mathlib.Data.Set.Card

namespace CalExport

open Text

namespace Text

theorem parts_append (separator : Char) (front behind : List Char) :
    parts separator (front ++ separator :: behind) = parts separator front ++ parts separator behind := by
  induction front with
  | nil => simp [parts]
  | cons c front ih =>
      by_cases hc : c = separator
      · simp [parts, hc, ih]
      · cases hfront : parts separator front with
        | nil => exact absurd hfront (parts_ne_nil separator front)
        | cons part more => simp [parts, hc, ih, hfront]

theorem parts_of_not_mem {separator : Char} {cs : List Char} (h : separator ∉ cs) : parts separator cs = [cs] := by
  induction cs with
  | nil => rfl
  | cons c cs ih =>
      rw [List.mem_cons, not_or] at h
      simp [parts, Ne.symm h.1, ih h.2]

end Text

structure IsName (name : String) : Prop where
  ne_empty : name ≠ ""
  ne_dot : name ≠ "."
  no_slash : '/' ∉ name.toList

namespace Path

theorem names_child (dir : Path) {name : String} (h : IsName name) : (dir.child name).names = dir.names ++ [name] := by
  have hname : ((parts '/' name.toList).filter fun part => part ≠ [] && part ≠ ['.']).map String.ofList = [name] := by
    have hempty : name.toList ≠ [] := fun he => h.ne_empty (String.toList_inj.1 he)
    have hdot : name.toList ≠ ['.'] := fun he => h.ne_dot (String.toList_inj.1 he)
    simp [parts_of_not_mem h.no_slash, hempty, hdot]
  unfold child
  split
  case h_1 hlast =>
    have htext : dir.text.toList = [] := List.getLast?_eq_none_iff.1 hlast
    simp only [names, String.toList_append, htext, List.nil_append, hname]
    rfl
  case h_2 hlast =>
    -- the last part of the directory is empty and is left out
    obtain ⟨front, htext⟩ := List.getLast?_eq_some_iff.1 hlast
    have hslash : front ++ ['/'] ++ name.toList = front ++ '/' :: name.toList := by simp
    simp only [names, String.toList_append, htext, hslash, parts_append, List.filter_append, List.map_append, hname]
    simp [parts]
  case h_3 =>
    have hslash : dir.text.toList ++ "/".toList ++ name.toList = dir.text.toList ++ '/' :: name.toList := by simp
    simp only [names, String.toList_append, hslash, parts_append, List.filter_append, List.map_append, hname]

theorem namesLe_antisymm {a b : List String} (hab : namesLe a b = true) (hba : namesLe b a = true) : a = b := by
  induction a generalizing b with
  | nil =>
      cases b with
      | nil => rfl
      | cons y b => simp [namesLe] at hba
  | cons x a ih =>
      cases b with
      | nil => simp [namesLe] at hab
      | cons y b =>
          by_cases hxy : x = y
          · subst hxy
            simp only [namesLe, if_true] at hab hba
            rw [ih hab hba]
          · simp only [namesLe, hxy, Ne.symm hxy, if_false, decide_eq_true_eq] at hab hba
            exact absurd (String.lt_trans hab hba) (String.lt_irrefl x)

/-- There is but one list of these paths in strict order. -/
theorem eq_of_ordered {paths others : List Path} (h : paths.Pairwise fun p q => q.le p = false)
    (hothers : others.Pairwise fun p q => q.le p = false) (hmem : ∀ p, p ∈ paths ↔ p ∈ others) : paths = others := by
  have hnodup : ∀ {l : List Path}, (l.Pairwise fun p q => q.le p = false) → l.Nodup := by
    intro l hl
    refine hl.imp ?_
    rintro p q hqp rfl
    simpa [hqp] using le_total p p
  refine List.Perm.eq_of_pairwise ?_ h hothers ((List.perm_ext_iff_of_nodup (hnodup h) (hnodup hothers)).2 hmem)
  intro p q _ _ hqp hpq
  simpa [hqp, hpq] using le_total p q

end Path

inductive FileAt (recursive : Bool) : Path → Node → Path → Prop
  | file {path content} : FileAt recursive path (.file content) path
  | inside {path entries name node file} : recursive = true → (name, node) ∈ entries →
      FileAt recursive (path.child name) node file → FileAt recursive path (.directory entries) file

/-- The files of a directory and, with `recursive`, of the directories in it. -/
def FileIn (recursive : Bool) (dir : Path) (entries : List (String × Node)) (file : Path) : Prop :=
  ∃ name node, (name, node) ∈ entries ∧ FileAt recursive (dir.child name) node file

/-- A tree as a file system holds it: in each directory every entry has a name of its own. -/
inductive Node.Named : Node → Prop
  | file {content} : Named (.file content)
  | directory {entries} : (∀ entry ∈ entries, IsName entry.1) → (entries.map Prod.fst).Nodup →
      (∀ entry ∈ entries, Named entry.2) → Named (.directory entries)

/-- The same tree, with the entries of its directories in another order. -/
inductive Relisted : List (String × Node) → List (String × Node) → Prop
  | perm {entries entries'} : entries.Perm entries' → Relisted entries entries'
  | inside {before after name inner inner'} : Relisted inner inner' →
      Relisted (before ++ (name, .directory inner) :: after) (before ++ (name, .directory inner') :: after)
  | trans {first second third} : Relisted first second → Relisted second third → Relisted first third

mutual

def acceptedAt (accepts : Path → Bool) (recursive : Bool) (path : Path) : Node → List Path
  | .file _ => if accepts path then [path] else []
  | .directory entries => if recursive then acceptedFiles accepts recursive path entries else []

def acceptedFiles (accepts : Path → Bool) (recursive : Bool) (dir : Path) : List (String × Node) → List Path
  | [] => []
  | (name, node) :: rest =>
    acceptedAt accepts recursive (dir.child name) node ++ acceptedFiles accepts recursive dir rest

end

section

variable {accepts : Path → Bool} {recursive : Bool}

theorem fileIn_cons {dir file : Path} {name : String} {node : Node} {rest : List (String × Node)} :
    FileIn recursive dir ((name, node) :: rest) file ↔
      FileAt recursive (dir.child name) node file ∨ FileIn recursive dir rest file := by
  constructor
  · rintro ⟨name', node', hmem, hfile⟩
    rcases List.mem_cons.1 hmem with heq | hmem
    · cases heq
      exact .inl hfile
    · exact .inr ⟨name', node', hmem, hfile⟩
  · rintro (hfile | ⟨name', node', hmem, hfile⟩)
    · exact ⟨name, node, List.mem_cons_self, hfile⟩
    · exact ⟨name', node', List.mem_cons_of_mem _ hmem, hfile⟩

theorem fileAt_file {path file : Path} {content : Content} :
    FileAt recursive path (.file content) file ↔ file = path :=
  ⟨fun h => by cases h; rfl, fun h => h ▸ .file⟩

theorem fileAt_directory {path file : Path} {entries : List (String × Node)} :
    FileAt recursive path (.directory entries) file ↔ recursive = true ∧ FileIn recursive path entries file := by
  constructor
  · rintro (_ | ⟨hrecursive, hmem, hfile⟩)
    exact ⟨hrecursive, _, _, hmem, hfile⟩
  · rintro ⟨hrecursive, name, node, hmem, hfile⟩
    exact .inside hrecursive hmem hfile

theorem mem_acceptedFiles {dir file : Path} {entries : List (String × Node)} :
    file ∈ acceptedFiles accepts recursive dir entries ↔ FileIn recursive dir entries file ∧ accepts file = true := by
  induction dir, entries using acceptedFiles.induct accepts recursive
    (fun path node => file ∈ acceptedAt accepts recursive path node ↔
      FileAt recursive path node file ∧ accepts file = true) with
  | case1 path content haccepts =>
      rw [acceptedAt, if_pos haccepts, List.mem_singleton, fileAt_file]
      exact ⟨fun h => ⟨h, h ▸ haccepts⟩, And.left⟩
  | case2 path content haccepts =>
      rw [acceptedAt, if_neg haccepts, fileAt_file]
      constructor
      · nofun
      · rintro ⟨rfl, h⟩
        exact absurd h haccepts
  | case3 path entries hrecursive ih =>
      rw [acceptedAt, if_pos hrecursive, ih, fileAt_directory]
      exact ⟨fun h => ⟨⟨hrecursive, h.1⟩, h.2⟩, fun h => ⟨h.1.2, h.2⟩⟩
  | case4 path entries hrecursive =>
      rw [acceptedAt, if_neg hrecursive, fileAt_directory]
      exact ⟨nofun, fun h => absurd h.1.1 hrecursive⟩
  | case5 dir =>
      rw [acceptedFiles]
      exact ⟨nofun, fun ⟨⟨_, _, hmem, _⟩, _⟩ => nomatch hmem⟩
  | case6 dir name node rest ihnode ihrest =>
      rw [acceptedFiles, List.mem_append, ihnode, ihrest, fileIn_cons, or_and_right]

theorem mem_acceptedAt {dir file : Path} {name : String} {node : Node} :
    file ∈ acceptedAt accepts recursive (dir.child name) node ↔
      FileAt recursive (dir.child name) node file ∧ accepts file = true := by
  have hnone : ¬ FileIn recursive dir [] file := fun ⟨_, _, hmem, _⟩ => nomatch hmem
  have halone := @mem_acceptedFiles accepts recursive dir file [(name, node)]
  rwa [acceptedFiles, acceptedFiles, List.append_nil, fileIn_cons, or_iff_left hnone] at halone

theorem FileAt.names_prefix {path file : Path} {node : Node} (h : FileAt recursive path node file)
    (hnamed : node.Named) : path.names <+: file.names := by
  induction h with
  | file => exact List.prefix_rfl
  | @inside path entries name node file _ hmem _ ih =>
      obtain _ | ⟨hnames, -, hinner⟩ := hnamed
      have hprefix := ih (hinner _ hmem)
      rw [Path.names_child path (hnames _ hmem)] at hprefix
      exact (List.prefix_append _ _).trans hprefix

theorem Node.Named.entry {entries : List (String × Node)} (h : (Node.directory entries).Named) {name : String}
    {node : Node} (hmem : (name, node) ∈ entries) : node.Named := by
  obtain _ | ⟨-, -, hinner⟩ := h
  exact hinner _ hmem

theorem Node.Named.tail {entry : String × Node} {rest : List (String × Node)}
    (h : (Node.directory (entry :: rest)).Named) : (Node.directory rest).Named := by
  obtain _ | ⟨hnames, hdistinct, hinner⟩ := h
  rw [List.map_cons, List.nodup_cons] at hdistinct
  exact .directory (fun e he => hnames e (List.mem_cons_of_mem _ he)) hdistinct.2
    fun e he => hinner e (List.mem_cons_of_mem _ he)

/-- Files below different entries of a directory have different names from there on. -/
theorem names_ne_of_head {dir file other : Path} {name : String} {node : Node} {rest : List (String × Node)}
    (hnamed : (Node.directory ((name, node) :: rest)).Named) (hfile : FileAt recursive (dir.child name) node file)
    (hother : FileIn recursive dir rest other) : file.names ≠ other.names := by
  obtain _ | ⟨hnames, hdistinct, hinner⟩ := hnamed
  obtain ⟨name', node', hmem, hother⟩ := hother
  have hmem' := List.mem_cons_of_mem (name, node) hmem
  have hfirst := hfile.names_prefix (hinner _ List.mem_cons_self)
  have hsecond := hother.names_prefix (hinner _ hmem')
  rw [Path.names_child dir (hnames _ List.mem_cons_self)] at hfirst
  rw [Path.names_child dir (hnames _ hmem')] at hsecond
  intro heq
  rw [heq] at hfirst
  have hsame := List.prefix_of_prefix_length_le hfirst hsecond (by simp)
  have hname : name = name' := by simpa using hsame
  rw [List.map_cons, List.nodup_cons] at hdistinct
  exact hdistinct.1 (List.mem_map.2 ⟨(name', node'), hmem, hname.symm⟩)

theorem acceptedFiles_distinct {dir : Path} {entries : List (String × Node)} (h : (Node.directory entries).Named) :
    (acceptedFiles accepts recursive dir entries).Pairwise fun p q => p.names ≠ q.names := by
  induction dir, entries using acceptedFiles.induct accepts recursive
    (fun path node => node.Named → (acceptedAt accepts recursive path node).Pairwise fun p q => p.names ≠ q.names) with
  | case1 path content haccepts hnamed =>
      rw [acceptedAt, if_pos haccepts]
      exact List.pairwise_singleton _ _
  | case2 path content haccepts hnamed =>
      rw [acceptedAt, if_neg haccepts]
      exact .nil
  | case3 path entries hrecursive ih hnamed =>
      rw [acceptedAt, if_pos hrecursive]
      exact ih hnamed
  | case4 path entries hrecursive hnamed =>
      rw [acceptedAt, if_neg hrecursive]
      exact .nil
  | case5 dir =>
      rw [acceptedFiles]
      exact .nil
  | case6 dir name node rest ihnode ihrest =>
      rw [acceptedFiles, List.pairwise_append]
      refine ⟨ihnode (h.entry List.mem_cons_self), ihrest h.tail, ?_⟩
      intro file hfile other hother
      rw [mem_acceptedFiles] at hother
      exact names_ne_of_head h (mem_acceptedAt.1 hfile).1 hother.1

end

section

variable (accepts : Path → Bool) (recursive : Bool)

theorem acceptedFiles_eq_flatMap (dir : Path) (entries : List (String × Node)) :
    acceptedFiles accepts recursive dir entries =
      entries.flatMap fun entry => acceptedAt accepts recursive (dir.child entry.1) entry.2 := by
  induction entries with
  | nil => rfl
  | cons entry entries ih => rw [acceptedFiles, ih, List.flatMap_cons]

theorem Relisted.acceptedFiles_perm {entries entries' : List (String × Node)} (h : Relisted entries entries')
    (dir : Path) :
    (acceptedFiles accepts recursive dir entries).Perm (acceptedFiles accepts recursive dir entries') := by
  induction h generalizing dir with
  | perm hperm =>
      rw [acceptedFiles_eq_flatMap, acceptedFiles_eq_flatMap]
      exact hperm.flatMap_right _
  | @inside before after name inner inner' _ ih =>
      have hplace : (acceptedAt accepts recursive (dir.child name) (.directory inner)).Perm
          (acceptedAt accepts recursive (dir.child name) (.directory inner')) := by
        rw [acceptedAt, acceptedAt]
        split
        · exact ih _
        · exact .refl _
      rw [acceptedFiles_eq_flatMap, acceptedFiles_eq_flatMap, List.flatMap_append, List.flatMap_append,
        List.flatMap_cons, List.flatMap_cons]
      exact (hplace.append_right _).append_left _
  | trans _ _ ih ih' => exact (ih dir).trans (ih' dir)

/-- While there is room in the batch nothing is left out. -/
theorem toList_gather (dir : Path) (found : Array Path) (entries : List (String × Node))
    (h : found.size + (acceptedFiles accepts recursive dir entries).length ≤ maxBatchFiles) :
    (gather accepts recursive dir found entries).toList =
      found.toList ++ acceptedFiles accepts recursive dir entries := by
  induction dir, entries using acceptedFiles.induct accepts recursive
    (fun path node => ∀ found : Array Path,
      found.size + (acceptedAt accepts recursive path node).length ≤ maxBatchFiles →
      (gatherAt accepts recursive path found node).toList =
        found.toList ++ acceptedAt accepts recursive path node) generalizing found with
  | case1 path content haccepts found _ =>
    rw [gatherAt, acceptedAt, if_pos haccepts, if_pos haccepts, Array.toList_push]
  | case2 path content haccepts found _ =>
    rw [gatherAt, acceptedAt, if_neg haccepts, if_neg haccepts, List.append_nil]
  | case3 path entries hrecursive ih found hroom =>
      rw [acceptedAt, if_pos hrecursive] at hroom ⊢
      rw [gatherAt, if_pos hrecursive, ih found hroom]
  | case4 path entries hrecursive found _ =>
    rw [gatherAt, acceptedAt, if_neg hrecursive, if_neg hrecursive, List.append_nil]
  | case5 dir => rw [gather, acceptedFiles, List.append_nil]
  | case6 dir name node rest ihnode ihrest =>
      rw [acceptedFiles, List.length_append] at h
      have hmore := ihnode found (by omega)
      have hsize : (gatherAt accepts recursive (dir.child name) found node).size =
          found.size + (acceptedAt accepts recursive (dir.child name) node).length := by
        rw [← Array.length_toList, hmore, List.length_append, Array.length_toList]
      have hroom : ¬ maxBatchFiles < (gatherAt accepts recursive (dir.child name) found node).size := by omega
      rw [gather, acceptedFiles]
      simp only [hroom, decide_false, Bool.and_false, Bool.false_eq_true, if_false]
      rw [ihrest _ (by omega), hmore, List.append_assoc]

theorem encard_accepted (dir : Path) {entries : List (String × Node)} (h : (Node.directory entries).Named) :
    {file | FileIn recursive dir entries file ∧ accepts file = true}.encard =
      (acceptedFiles accepts recursive dir entries).length := by
  have hnodup : (acceptedFiles accepts recursive dir entries).Nodup :=
    (acceptedFiles_distinct h).imp fun hne heq => hne (congrArg Path.names heq)
  have hset : {file | FileIn recursive dir entries file ∧ accepts file = true} =
      ((acceptedFiles accepts recursive dir entries).toFinset : Set Path) := by
    ext file
    rw [Set.mem_ofPred_eq, Finset.mem_coe, List.mem_toFinset, mem_acceptedFiles]
  rw [hset, Set.encard_coe_eq_coe_finsetCard, List.toFinset_card_of_nodup hnodup]

def sortedFiles (dir : Path) (entries : List (String × Node)) : List Path :=
  (acceptedFiles accepts recursive dir entries).mergeSort Path.le

theorem length_sortedFiles (dir : Path) (entries : List (String × Node)) :
    (sortedFiles accepts recursive dir entries).length = (acceptedFiles accepts recursive dir entries).length :=
  List.length_mergeSort _

theorem mem_sortedFiles {dir file : Path} {entries : List (String × Node)} :
    file ∈ sortedFiles accepts recursive dir entries ↔ FileIn recursive dir entries file ∧ accepts file = true := by
  rw [sortedFiles, List.mem_mergeSort, mem_acceptedFiles]

theorem pairwise_sortedFiles (dir : Path) {entries : List (String × Node)} (h : (Node.directory entries).Named) :
    (sortedFiles accepts recursive dir entries).Pairwise fun p q => q.le p = false := by
  have hsorted : (sortedFiles accepts recursive dir entries).Pairwise fun p q => p.le q = true :=
    Batch.pairwise_sort id _
  have hdistinct : (sortedFiles accepts recursive dir entries).Pairwise fun p q => p.names ≠ q.names :=
    (acceptedFiles_distinct h).perm (List.mergeSort_perm _ _).symm fun hne => Ne.symm hne
  refine (hsorted.and hdistinct).imp ?_
  rintro p q ⟨hle, hne⟩
  apply Bool.eq_false_iff.2
  intro hge
  exact hne (Path.namesLe_antisymm hle hge)

theorem Relisted.sortedFiles_eq {entries entries' : List (String × Node)} (h : Relisted entries entries') (dir : Path)
    (hnamed : (Node.directory entries).Named) :
    sortedFiles accepts recursive dir entries' = sortedFiles accepts recursive dir entries := by
  refine Batch.mergeSort_eq_of_perm id ?_ (pairwise_sortedFiles accepts recursive dir hnamed)
  exact (h.acceptedFiles_perm accepts recursive dir).symm.trans (List.mergeSort_perm _ _).symm

end

namespace Selection

/-- What is wanted of the files that were found: the first ones, when there is a wish for fewer. -/
def wanted (s : Selection) (files : List Path) : List Path :=
  match s.maxFiles with
  | some most => files.take most
  | none => files

theorem report_apply {ε α : Type} (e : Event) (rest : Attempt ε α) (events : Array Event) :
    (do Attempt.report e; rest) events = rest (events.push e) := rfl

theorem bind_apply_of_ok {ε α β : Type} {x : Attempt ε α} {f : α → Attempt ε β} {events : Array Event} {a : α}
    (h : (x events).1 = .ok a) : (x >>= f) events = f a (x events).2 := by
  rcases hx : x events with ⟨result, more⟩
  rw [hx] at h
  subst h
  show ExceptT.bindCont f (x events).1 (x events).2 = f a more
  rw [hx]
  rfl

theorem bind_fst_of_error {ε α β : Type} {x : Attempt ε α} (f : α → Attempt ε β) {events : Array Event} {e : ε}
    (h : (x events).1 = .error e) : ((x >>= f) events).1 = .error e := by
  rcases hx : x events with ⟨result, more⟩
  rw [hx] at h
  subst h
  show (ExceptT.bindCont f (x events).1 (x events).2).1 = _
  rw [hx]
  rfl

theorem cut_fst (s : Selection) {files : List Path} (h : files.length ≤ maxBatchFiles) (events : Array Event) :
    (s.cut files events).1 = .ok (s.wanted files) := by
  unfold cut wanted
  cases hmost : s.maxFiles with
  | none =>
      have hroom : ¬ s.limit < files.length := by simp only [limit, hmost]; omega
      rw [if_neg hroom]
      rfl
  | some most =>
      have hlimit : s.limit = min most maxBatchFiles := by simp only [limit, hmost]
      by_cases hroom : s.limit < files.length
      · have hleast : s.limit = most := by omega
        rw [if_pos hroom, Option.isNone_some, if_neg Bool.false_ne_true, report_apply, hleast]
        rfl
      · have hall : files.take most = files := List.take_of_length_le (by omega)
        rw [if_neg hroom]
        simp only [hall]
        rfl

/-- A directory without files to take is an error; otherwise those that are wanted are taken. -/
theorem select_fst (s : Selection) (dir : Path) {found : List Path} (h : found.length ≤ maxBatchFiles)
    (events : Array Event) :
    (s.select dir found events).1 = if found = [] then .error (.noFiles dir.text) else .ok (s.wanted found) := by
  cases hfound : found with
  | nil => rfl
  | cons first rest =>
      rw [if_neg (List.cons_ne_nil first rest), ← hfound, select, hfound, List.isEmpty_cons,
        if_neg Bool.false_ne_true, ← hfound, bind_apply_of_ok (s.cut_fst h events)]
      rfl

/-- What is found depends on the accepted files alone. -/
theorem discover_apply (s : Selection) (p : FilePreferences) {fs : FileSystem} {dir : Path}
    {entries : List (String × Node)} (hdir : fs.find? dir = some (.directory entries))
    (hfew : (acceptedFiles p.accepts s.recursive dir entries).length ≤ maxBatchFiles) (events : Array Event) :
    s.discover p fs dir events =
      s.select dir (sortedFiles p.accepts s.recursive dir entries) (events.push
        (((Event.info "Starting file discovery").set "directory" dir.text).set "recursive" (toString s.recursive))) := by
  have hgather := toList_gather p.accepts s.recursive dir #[] entries (by simpa using hfew)
  rw [List.nil_append] at hgather
  rw [sortedFiles, ← hgather, discover, report_apply, hdir]

/-- A directory fails for want of accepted files only. -/
theorem discover_fst (s : Selection) (p : FilePreferences) {fs : FileSystem} {dir : Path}
    {entries : List (String × Node)} (hdir : fs.find? dir = some (.directory entries))
    (hfew : (acceptedFiles p.accepts s.recursive dir entries).length ≤ maxBatchFiles) (events : Array Event) :
    (s.discover p fs dir events).1 =
      if sortedFiles p.accepts s.recursive dir entries = [] then .error (.noFiles dir.text)
      else .ok (s.wanted (sortedFiles p.accepts s.recursive dir entries)) := by
  rw [s.discover_apply p hdir hfew, select_fst]
  rwa [length_sortedFiles]

/-- Discovery does not depend on the order of listing, and finds all there is to find: in a directory, with no more
accepted files in it than a batch may have, it finds just these, each once and in the order of their paths, and takes
as many from the front as are wanted. It fails just when there is none. In whatever order directories list their
entries, it comes to the same and tells the same. -/
theorem discovery_canonical (s : Selection) (p : FilePreferences) {fs : FileSystem} {dir : Path}
    {entries : List (String × Node)} (hdir : fs.find? dir = some (.directory entries))
    (hnamed : (Node.directory entries).Named)
    (hfew : {file | FileIn s.recursive dir entries file ∧ p.accepts file = true}.encard ≤ maxBatchFiles)
    (events : Array Event) :
    ∃ found : List Path,
      (∀ file, file ∈ found ↔ FileIn s.recursive dir entries file ∧ p.accepts file = true) ∧
      found.Pairwise (fun file next => next.le file = false) ∧
      (s.discover p fs dir events).1 =
        (if found = [] then .error (.noFiles dir.text) else .ok (s.wanted found)) ∧
      ∀ fs' entries', fs'.find? dir = some (.directory entries') → Relisted entries entries' →
        s.discover p fs' dir events = s.discover p fs dir events := by
  have hlength : (acceptedFiles p.accepts s.recursive dir entries).length ≤ maxBatchFiles := by
    rw [encard_accepted p.accepts s.recursive dir hnamed] at hfew
    exact_mod_cast hfew
  have hdiscover := s.discover_apply p hdir hlength
  refine ⟨sortedFiles p.accepts s.recursive dir entries, fun _ => mem_sortedFiles _ _,
    pairwise_sortedFiles _ _ dir hnamed, ?_, ?_⟩
  · exact s.discover_fst p hdir hlength events
  · intro fs' entries' hdir' hrelisted
    have hlength' : (acceptedFiles p.accepts s.recursive dir entries').length ≤ maxBatchFiles := by
      rwa [← (hrelisted.acceptedFiles_perm p.accepts s.recursive dir).length_eq]
    rw [hdiscover, s.discover_apply p hdir' hlength', hrelisted.sortedFiles_eq p.accepts s.recursive dir hnamed]

def listing : List (String × Node) :=
  [("b.TXT", .file (.zeros 1)), ("notes.md", .file (.zeros 1)),
    ("a", .directory [("old.md", .file (.zeros 1)), ("c.cal", .file (.zeros 1))])]

def otherListing : List (String × Node) :=
  [("a", .directory [("c.cal", .file (.zeros 1)), ("old.md", .file (.zeros 1))]),
    ("b.TXT", .file (.zeros 1)), ("notes.md", .file (.zeros 1))]

theorem named_listing : (Node.directory listing).Named := by
  have hinner : (Node.directory [("old.md", .file (.zeros 1)), ("c.cal", .file (.zeros 1))]).Named := by
    refine .directory ?_ (by decide) ?_
    · simp only [List.forall_mem_cons]
      exact ⟨⟨by decide, by decide, by decide⟩, ⟨by decide, by decide, by decide⟩, nofun⟩
    · simp only [List.forall_mem_cons]
      exact ⟨.file, .file, nofun⟩
  refine .directory ?_ (by decide) ?_
  · simp only [listing, List.forall_mem_cons]
    exact ⟨⟨by decide, by decide, by decide⟩, ⟨by decide, by decide, by decide⟩, ⟨by decide, by decide, by decide⟩,
      nofun⟩
  · simp only [listing, List.forall_mem_cons]
    exact ⟨.file, .file, hinner, nofun⟩

theorem relisted_listing : Relisted listing otherListing := by
  refine .trans (.perm (@List.perm_append_comm _ [_, _] [_])) ?_
  exact @Relisted.inside [] _ _ _ _ (.perm (.swap _ _ _))

/-- The first export of a directory with two of them, listed in either order. -/
theorem discovery_canonical_first :
    let p : FilePreferences := {}
    let fs := (Node.directory [("exports", .directory listing)]).resolve
    let fs' := (Node.directory [("exports", .directory otherListing)]).resolve
    fs.find? ⟨"exports"⟩ = some (.directory listing) ∧ (Node.directory listing).Named ∧
      {file | FileIn true ⟨"exports"⟩ listing file ∧ p.accepts file = true}.encard ≤ maxBatchFiles ∧
      (discover { maxFiles := some 1 } p fs ⟨"exports"⟩ #[]).1 = .ok [⟨"exports/a/c.cal"⟩] ∧
      discover { maxFiles := some 1 } p fs' ⟨"exports"⟩ #[] = discover { maxFiles := some 1 } p fs ⟨"exports"⟩ #[] := by
  intro p fs fs'
  have hdir : fs.find? ⟨"exports"⟩ = some (.directory listing) := rfl
  have haccepted : acceptedFiles p.accepts true ⟨"exports"⟩ listing = [⟨"exports/b.TXT"⟩, ⟨"exports/a/c.cal"⟩] := by
    decide
  have hfew : {file | FileIn true ⟨"exports"⟩ listing file ∧ p.accepts file = true}.encard ≤ maxBatchFiles := by
    rw [encard_accepted _ _ _ named_listing, haccepted]
    exact_mod_cast (by decide : 2 ≤ maxBatchFiles)
  obtain ⟨found, hmem, hordered, hrun, horder⟩ :=
    discovery_canonical { maxFiles := some 1 } p hdir named_listing hfew #[]
  have hfound : found = [⟨"exports/a/c.cal"⟩, ⟨"exports/b.TXT"⟩] := by
    refine Path.eq_of_ordered hordered (by decide) ?_
    intro file
    rw [hmem, ← mem_acceptedFiles, haccepted]
    simp [or_comm]
  subst hfound
  exact ⟨hdir, named_listing, hfew, hrun, horder fs' otherListing rfl relisted_listing⟩

end Selection

end CalExport
