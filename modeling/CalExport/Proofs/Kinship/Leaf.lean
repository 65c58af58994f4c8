import CalExport.Proofs.Kinship.Rule
import CalExport.Rule.Leaf
import CalExport.Rule.Recovery

namespace CalExport.Rule

variable {α β : Type} {K : Kinship} {r : α → α → Prop}

theorem keeps_semicolon : Keeps K Eq semicolon semicolon := by
  refine (keeps_accept .semicolon).bind_eq fun found => ?_
  split
  · refine keeps_peek.bind fun t t' ht => ?_
    exact keeps_report (.missing ";" ht)
  · exact Keeps.pure rfl

/-- The digits of a number are the same in both runs. -/
theorem keeps_boundedValue (largest : Nat) {t t' : Token} (h : K.akin t t') (hkind : t.kind = .integer) :
    Keeps K Eq (boundedValue largest t) (boundedValue largest t') := by
  unfold boundedValue
  rw [K.number h (.inl hkind)]
  dsimp only
  split
  · exact Keeps.pure rfl
  · refine (keeps_report (.invalidInteger h)).bind_eq fun _ => ?_
    exact Keeps.pure rfl

theorem keeps_integerValue {t t' : Token} (h : K.akin t t') (hkind : t.kind = .integer) :
    Keeps K Eq (integerValue t) (integerValue t') := by
  refine (keeps_boundedValue _ h hkind).bind_eq fun value => ?_
  exact Keeps.pure rfl

theorem keeps_integer : RuleKeeps K Eq integer integer := by
  refine (keeps_accept .minus).step_eq fun negative => ?_
  refine keeps_expect_then fun t t' ht hkind => ?_
  refine (keeps_integerValue ht hkind).step_eq fun value => ?_
  exact RuleKeeps.pure rfl

theorem keeps_size : RuleKeeps K Eq size size := by
  refine keeps_expect_then fun t t' ht hkind => ?_
  exact RuleKeeps.lift (keeps_boundedValue _ ht hkind)

theorem keeps_autoNumber : RuleKeeps K Eq autoNumber autoNumber := by
  refine (keeps_accept .atSign).step_eq fun found => ?_
  split
  · refine keeps_integer.bind_eq fun number => ?_
    exact RuleKeeps.pure rfl
  · exact RuleKeeps.pure rfl

/-- A token that may be a name is no string. -/
theorem ne_string_of_canName {κ : Kind} (h : κ.canName = true) : κ ≠ .string := by
  rintro rfl
  exact absurd h (by decide)

theorem keeps_declaredName (role : String) :
    RuleKeeps K (fun a b => Under K.word a.1 b.1 ∧ b.2 = a.2) (declaredName role) (declaredName role) := by
  refine keeps_peek.step fun t t' ht => ?_
  rw [K.kind_eq ht]
  split
  · rename_i hname
    refine keeps_advance.step fun _ _ _ => ?_
    refine keeps_autoNumber.bind_eq fun number => ?_
    exact RuleKeeps.pure ⟨K.value_word ht (ne_string_of_canName hname), rfl⟩
  · split
    · rw [K.span_eq ht]
      exact RuleKeeps.throw (.refl _)
    · exact RuleKeeps.throw (.expected role ht)

def Taken (K : Kinship) (a b : Array Token × Nat) : Prop :=
  List.Forall₂ K.akin a.1.toList b.1.toList ∧ b.2 = a.2

theorem akin_push {as bs : Array Token} (h : List.Forall₂ K.akin as.toList bs.toList) {t t' : Token}
    (ht : K.akin t t') : List.Forall₂ K.akin (as.push t).toList (bs.push t').toList := by
  rw [Array.toList_push, Array.toList_push]
  exact List.rel_append h (.cons ht .nil)

theorem keeps_raw (stops : Kind → Bool) : Keeps K (List.Forall₂ K.akin) (raw stops) (raw stops) := by
  refine Keeps.bind (r := Taken K) (keeps_loop ?_ ⟨.nil, rfl⟩) ?_
  · rintro ⟨taken, depth⟩ ⟨taken', _⟩ ⟨htaken, rfl⟩
    refine keeps_peekKind.bind_eq fun κ => ?_
    split
    · exact Keeps.pure ⟨htaken, rfl⟩
    · refine keeps_advance.bind fun t t' ht => ?_
      exact Keeps.pure ⟨akin_push htaken ht, rfl⟩
  · rintro ⟨taken, depth⟩ ⟨taken', _⟩ ⟨htaken, rfl⟩
    exact Keeps.pure htaken

theorem keeps_skipWhile {c : Parser → Bool} (h : ∀ s s', K.Near s s' → c s' = c s) :
    Keeps K Eq (skipWhile c) (skipWhile c) := by
  apply keeps_loop_unit
  intro a s s' hs
  unfold skipRound
  rw [hs.cursor.atEnd, h s s' hs]
  split
  · exact ⟨rfl, (keeps_advance s s' hs).2⟩
  · exact ⟨rfl, hs⟩

theorem keeps_skipItem (base : Nat) (recovery : List Kind) :
    Keeps K Eq (skipItem base recovery) (skipItem base recovery) := by
  apply keeps_loop_unit
  intro a
  refine keeps_peekKind.bind_eq fun κ => ?_
  refine (keeps_openBeyond base).bind_eq fun opened => ?_
  split
  · exact Keeps.pure rfl
  · split
    · split
      · exact Keeps.pure rfl
      · refine keeps_advance.bind fun _ _ _ => ?_
        exact Keeps.pure rfl
    · split
      · exact Keeps.pure rfl
      · refine keeps_advance.bind fun _ _ _ => ?_
        exact Keeps.pure rfl

theorem keeps_forceProgress (start : Nat) : Keeps K Eq (forceProgress start) (forceProgress start) := by
  refine keeps_peekKind.bind_eq fun κ => ?_
  refine (keeps_passedSince start).bind_eq fun passed => ?_
  split
  · refine keeps_advance.bind fun _ _ _ => ?_
    exact Keeps.pure rfl
  · exact Keeps.pure rfl

theorem keeps_recoverItem (base start : Nat) (recovery : List Kind) :
    Keeps K Eq (recoverItem base start recovery) (recoverItem base start recovery) := by
  refine keeps_here.bind_eq fun skipStart => ?_
  refine (keeps_skipItem base recovery).bind_eq fun _ => ?_
  refine (keeps_accept .semicolon).bind_eq fun _ => ?_
  refine (keeps_forceProgress start).bind_eq fun _ => ?_
  exact keeps_recordSkipped skipStart _

theorem keeps_withRecovery (recovery : List Kind) {x y : Rule α} (h : RuleKeeps K r x y) :
    Keeps K (Option.Rel r) (withRecovery recovery x) (withRecovery recovery y) := by
  refine keeps_depth.bind_eq fun base => ?_
  refine keeps_here.bind_eq fun start => ?_
  apply h.recover
  · intro a b hab
    exact Keeps.pure (.some hab)
  · intro e e' he
    refine (keeps_report he).bind_eq fun _ => ?_
    refine (keeps_recoverItem base start recovery).bind_eq fun _ => ?_
    exact Keeps.pure .none

/-- What follows an item that was read or passed over. -/
theorem Keeps.recovered {q : β → β → Prop} {x y : Parse (Option α)} {f g : Option α → Parse β}
    (h : Keeps K (Option.Rel r) x y) (hsome : ∀ a b, r a b → Keeps K q (f (some a)) (g (some b)))
    (hnone : Keeps K q (f none) (g none)) : Keeps K q (x >>= f) (y >>= g) := by
  apply h.bind
  rintro _ _ (⟨hab⟩ | _)
  · exact hsome _ _ hab
  · exact hnone

theorem keeps_skipStatement : Keeps K Eq skipStatement skipStatement := by
  refine keeps_here.bind_eq fun start => ?_
  refine (keeps_loop_unit fun _ => ?_).bind_eq fun _ => ?_
  · refine keeps_peekKind.bind_eq fun κ => ?_
    split
    · exact Keeps.pure rfl
    · refine keeps_advance.bind fun _ _ _ => ?_
      exact Keeps.pure rfl
  · exact keeps_recordSkipped start _

theorem sectionStarts_near {s s' : Parser} (hs : K.Near s s') : sectionStarts s' = sectionStarts s := by
  unfold sectionStarts
  rw [hs.cursor.kind_peek, hs.cursor.checkNext]

theorem keeps_skipToSection (depth : Nat) (reason : String) :
    Keeps K Eq (skipToSection depth reason) (skipToSection depth reason) := by
  refine keeps_here.bind_eq fun start => ?_
  refine (keeps_skipWhile ?_).bind_eq fun _ => ?_
  · intro s s' hs
    rw [sectionStarts_near hs, hs.cursor.check, hs.cursor.braceDepth]
  · refine (keeps_passedSince start).bind_eq fun count => ?_
    split
    · refine (keeps_note rfl).bind_eq fun _ => ?_
      exact keeps_recordSkipped start reason
    · exact Keeps.pure rfl

theorem documentationStarts_near {s s' : Parser} (hs : K.Near s s') :
    documentationStarts s' = documentationStarts s := by
  unfold documentationStarts
  rw [hs.cursor.kind_peek, hs.cursor.kind_peekAhead, hs.cursor.kind_peekAhead]

theorem keeps_skipDeclaration (depth : Nat) : Keeps K Eq (skipDeclaration depth) (skipDeclaration depth) := by
  refine keeps_here.bind_eq fun start => ?_
  refine (keeps_skipWhile ?_).bind_eq fun _ => ?_
  · intro s s' hs
    unfold declarationBoundary
    rw [documentationStarts_near hs, hs.cursor.kind_peek, hs.cursor.braceDepth]
  · exact keeps_recordSkipped start _

end CalExport.Rule
