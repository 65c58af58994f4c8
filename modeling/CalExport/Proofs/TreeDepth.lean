import CalExport.Proofs.SpanGeometry
import CalExport.Proofs.Statement.InTrigger
import CalExport.Proofs.Upkeep.Object

namespace CalExport

open Rule Text

namespace SyntaxNode

/-- A way down a tree: each node stands directly below the one before it. -/
def Descends (chain : List SyntaxNode) : Prop := chain.IsChain fun n m => m ∈ n.children

def SpineWithin : Nat → SyntaxNode → Prop
  | 0, n => n.spine = []
  | k + 1, n => ∀ child ∈ n.spine, SpineWithin k child

variable {h j k : Nat} {n m : SyntaxNode} {chain : List SyntaxNode}

theorem Reaches.eq_or_inside (h : n.Reaches m) : m = n ∨ ∃ child ∈ n.children, child.Reaches m := by
  cases h with
  | self => exact .inl rfl
  | inside hchild hm => exact .inr ⟨_, hchild, hm⟩

theorem Bends.reaches (hn : Bends h n) (hm : n.Reaches m) : Bends h m := by
  induction hm generalizing h with
  | self n => exact hn
  | inside hchild _ ih =>
      cases hn with
      | node hspine hbranches =>
          rcases List.mem_append.1 hchild with hchild | hchild
          · exact ih (hspine _ hchild)
          · exact ih ((hbranches _ hchild).mono (Nat.le_succ _))

/-- A way down takes a bend at every step that does not follow a spine. -/
theorem Bends.length_le (hn : Bends h n) (hchain : Descends (n :: chain)) (hj : j ≤ k) (hspine : SpineWithin j n)
    (hall : ∀ m, n.Reaches m → SpineWithin k m) : (n :: chain).length + k ≤ j + (k + 1) * h := by
  induction hn generalizing j chain with
  | @node h n _ _ ihspine ihbranches =>
      cases chain with
      | nil =>
          rw [List.length_singleton, Nat.mul_succ]
          omega
      | cons child rest =>
          obtain ⟨hchild, hrest⟩ := List.isChain_cons_cons.1 hchain
          have hbelow : ∀ m, child.Reaches m → SpineWithin k m := fun m hm => hall m (.inside hchild hm)
          rw [List.length_cons]
          rcases List.mem_append.1 hchild with hmem | hmem
          · cases j with
            | zero =>
                rw [SpineWithin] at hspine
                rw [hspine] at hmem
                exact absurd hmem List.not_mem_nil
            | succ j =>
                have hlength := ihspine child hmem hrest (Nat.le_of_succ_le hj) (hspine child hmem) hbelow
                omega
          · have hlength := ihbranches child hmem hrest (Nat.le_refl k) (hbelow child (.self child)) hbelow
            rw [Nat.mul_succ]
            omega

end SyntaxNode

namespace Rule

def Upkeep.nothing : Upkeep where
  holds _ := True
  advance _ := trivial
  report _ _ := trivial
  note _ _ := trivial
  withNesting _ _ := trivial
  recordSkipped _ _ _ _ := trivial

theorem bends_wholeDocument {s : Parser} (hnesting : s.nesting = 0) :
    ∀ n ∈ (wholeDocument s).1.nodes, n.Bends (8 * maxNesting + 3) :=
  (upkeep_wholeDocument (.bends .nothing) (s := s) trivial hnesting).2

end Rule

open SyntaxNode in
/-- For every source: nowhere in the tree does a way down bend more often than the levels of nesting allow. So where no
spine has more than `k` steps, it passes no more nodes than a number that depends on these levels and on `k` alone. -/
theorem depth_within_levels (preferences : ParserPreferences) (source : String) (a : Analysis) (events : Array Event)
    (h : analyse preferences source = (.ok a, events)) :
    (∀ n, a.document.Has n → n.Bends (8 * maxNesting + 3)) ∧
      ∀ k, (∀ n, a.document.Has n → n.SpineWithin k) → ∀ n chain, a.document.Has n → Descends (n :: chain) →
        (n :: chain).length ≤ (k + 1) * (8 * maxNesting + 3) := by
  have hbends : ∀ n, a.document.Has n → n.Bends (8 * maxNesting + 3) := by
    rintro n ⟨root, hroot, hreaches⟩
    unfold analyse at h
    split at h
    · cases h
    · cases h
      exact (bends_wholeDocument rfl root hroot).reaches hreaches
  refine ⟨hbends, ?_⟩
  rintro k hspines n chain hn hchain
  obtain ⟨root, hroot, hreaches⟩ := hn
  have hall : ∀ m, n.Reaches m → SpineWithin k m := fun m hm => hspines m ⟨root, hroot, hreaches.trans hm⟩
  have hlength := (hbends n ⟨root, hroot, hreaches⟩).length_le hchain (Nat.le_refl k) (hall n (.self n)) hall
  omega

def sumTable : String :=
  "OBJECT Table 1 T \x7b PROPERTIES \x7b OnInsert=BEGIN\n x := a + b;\nEND \x7d \x7d"

def isSumOfNames : List SyntaxNode → Bool
  | [.statement (.assign (.identifier ..) .assign (.binary _ (.identifier ..) (.identifier ..) _) _)] => true
  | _ => false

open SyntaxNode in
theorem depth_within_levels_sum : ∃ a events, analyse {} sumTable = (.ok a, events) ∧
    (∀ n, a.document.Has n → n.SpineWithin 1) ∧
    ∀ n chain, a.document.Has n → Descends (n :: chain) → (n :: chain).length ≤ (1 + 1) * (8 * maxNesting + 3) := by
  have hread : Lexer.read sumTable = ((Lexer.read sumTable).1, none) :=
    Prod.ext rfl (by decide +kernel : (Lexer.read sumTable).2 = none)
  have hshape : isSumOfNames (document (readingState {} (Lexer.read sumTable).1)).1.nodes = true := by decide +kernel
  obtain ⟨a, events, hanalyse, hdocument, -⟩ := analyse_of_read {} hread
  rw [← hdocument] at hshape
  have hname : ∀ name span n, (SyntaxNode.expr (.identifier name span)).Reaches n → n.SpineWithin 1 := by
    intro name span n hn
    cases hn with
    | self => exact List.forall_mem_nil _
    | inside hchild _ => exact absurd hchild List.not_mem_nil
  have hspines : ∀ n, a.document.Has n → n.SpineWithin 1 := by
    rintro n ⟨root, hroot, hn⟩
    unfold isSumOfNames at hshape
    split at hshape
    · rename_i hnodes
      rw [hnodes] at hroot
      obtain rfl := List.mem_singleton.1 hroot
      rcases hn.eq_or_inside with rfl | ⟨child, hchild, hn⟩
      · exact List.forall_mem_nil _
      · rcases List.mem_pair.1 hchild with rfl | rfl
        · exact hname _ _ _ hn
        · rcases hn.eq_or_inside with rfl | ⟨child, hchild, hn⟩
          · exact List.forall_mem_singleton.2 rfl
          · rcases List.mem_pair.1 hchild with rfl | rfl
            · exact hname _ _ _ hn
            · exact hname _ _ _ hn
    · cases hshape
  exact ⟨a, events, hanalyse, hspines, (depth_within_levels {} sumTable a events hanalyse).2 1 hspines⟩

section

open Statement SyntaxNode

/-- `a + a + … + a`. -/
def sumOf : Nat → Expr
  | 0 => .identifier "a" .origin
  | n + 1 => .binary .add (sumOf n) (.identifier "a" .origin) .origin

def sumTokens : Nat → List Token
  | 0 => [atOrigin .identifier "a"]
  | n + 1 => sumTokens n ++ [atOrigin .plus "+", atOrigin .identifier "a"]

/-- `x := a + a + … + a`. -/
def sumAssignment (n : Nat) : Statement := .assign (.identifier "x" .origin) .assign (sumOf n) .origin

def assignmentTokens (n : Nat) : List Token :=
  ⟨.identifier, "x", .point ⟨0, 2, 1⟩⟩ :: atOrigin .assign ":=" :: (sumTokens n ++ [atOrigin .semicolon ";"])

variable {n : Nat}

theorem leftGroups_sumOf (n : Nat) : Expr.leftGroups .add (sumOf n) = false := by
  cases n <;> rfl

theorem shown_sumOf (n : Nat) : Shown (sumTokens n) (sumOf n).signs := by
  induction n with
  | zero => exact .cons rfl .nil
  | succ n ih =>
      rw [sumOf, Expr.signs, leftGroups_sumOf]
      exact List.rel_append ih (.cons rfl (.cons rfl .nil))

theorem proper_sumOf (n : Nat) : (sumOf n).proper false = true := by
  induction n with
  | zero => rfl
  | succ n ih => simp [sumOf, Expr.proper, ih]

theorem nesting_sumOf (n : Nat) : (sumOf n).nesting = 0 := by
  induction n with
  | zero => rfl
  | succ n ih =>
      rw [sumOf, Expr.nesting, leftGroups_sumOf, Expr.groupNesting, ih]
      rfl

theorem kind_sumTokens (n : Nat) : ∀ t ∈ sumTokens n, t.kind ≠ .eof := by
  induction n with
  | zero => simp [sumTokens, atOrigin]
  | succ n ih => simpa [sumTokens, atOrigin, or_imp, forall_and] using ih

/-- A way down a sum goes through all of its operators. -/
theorem descends_sumOf (n : Nat) {e : Expr} (h : e.unplaced = (sumOf n).unplaced) :
    ∃ chain, Descends (.expr e :: chain) ∧ chain.length = n := by
  induction n generalizing e with
  | zero => exact ⟨[], .singleton _, rfl⟩
  | succ n ih =>
      cases e with
      | binary op left right span =>
          obtain ⟨-, hleft, -, -⟩ := Expr.binary.inj h
          obtain ⟨chain, hchain, hlength⟩ := ih hleft
          refine ⟨.expr left :: chain, List.isChain_cons_cons.2 ⟨?_, hchain⟩, congrArg (· + 1) hlength⟩
          exact List.mem_append_left _ (List.mem_singleton_self _)
      | _ => cases h

/-- However long the tree is to be, there are tokens without a fault that make it so long. -/
theorem depth_beyond_levels : ¬ ∃ bound : Nat, ∀ (tokens : Array Token) (preferences : ParserPreferences),
    (wholeDocument (.ofTokens tokens preferences)).2.diagnostics = #[] →
    ∀ n chain, (wholeDocument (.ofTokens tokens preferences)).1.Has n → Descends (n :: chain) →
      (n :: chain).length ≤ bound := by
  rintro ⟨bound, hbound⟩
  have hproper : ProperAll [sumAssignment bound] := ⟨⟨rfl, rfl, nofun, proper_sumOf bound⟩, trivial⟩
  have hshown : Shown (assignmentTokens bound) (Statement.signsAll [sumAssignment bound]) :=
    .cons rfl (.cons rfl (List.rel_append (shown_sumOf bound) (.cons rfl .nil)))
  have hlevels : levelsAll [sumAssignment bound] ≤ maxNesting := by
    simp [levelsAll, sumAssignment, Statement.levels, Statement.assigned, AssignOp.binary?, Expr.nesting, nesting_sumOf,
      maxNesting]
  have heof : ∀ t ∈ assignmentTokens bound, t.kind ≠ .eof := by
    simpa [assignmentTokens, atOrigin, or_imp, forall_and] using kind_sumTokens bound
  have hline : ∀ t ∈ (assignmentTokens bound ++ [atOrigin (.keyword .end_) "END"]).head?, 1 < t.span.start.line := by
    simp [assignmentTokens, Span.point]
  obtain ⟨hclean, found, hnodes, hfound⟩ :=
    wholeDocument_of_trigger (readable_all _ hproper) hshown hline heof hlevels {}
  obtain ⟨s, hs, hsame⟩ : ∃ s, found = [s] ∧ s.unplaced = (sumAssignment bound).unplaced := by
    obtain ⟨s, rest, rfl, hsame, hrest⟩ := List.map_eq_cons_iff.1 hfound
    obtain rfl := List.map_eq_nil_iff.1 hrest
    exact ⟨s, rfl, hsame⟩
  cases s with
  | assign target op value span =>
      obtain ⟨-, rfl, hvalue, -⟩ := Statement.assign.inj hsame
      obtain ⟨chain, hchain, hlength⟩ := descends_sumOf bound hvalue
      have hroot : .statement (.assign target .assign value span) ∈
          (wholeDocument (.ofTokens (tableTokens (assignmentTokens bound)).toArray {})).1.nodes := by
        rw [hnodes, hs]
        exact List.mem_singleton_self _
      have hvalueNode : .expr value ∈ (SyntaxNode.statement (.assign target .assign value span)).children := by
        simp [children, branches, Statement.nodes, AssignOp.node, AssignOp.binary?]
      have hlong := hbound _ {} hclean _ (.expr value :: chain) ⟨_, hroot, .self _⟩
        (List.isChain_cons_cons.2 ⟨hvalueNode, hchain⟩)
      rw [List.length_cons, List.length_cons, hlength] at hlong
      omega
  | ifThen _ _ elseBranch _ => cases elseBranch <;> cases hsame
  | caseOf _ _ otherwise _ => cases otherwise <;> cases hsame
  | _ => cases hsame

end

end CalExport
