import CalExport.Proofs.Layout.Object
import CalExport.Proofs.Simulation.Object

namespace CalExport.Rule

open Text

variable {F : Fence} {s : Parser} {m : Nat}

def sectionsOf (s : Parser) : List ObjectSection :=
  match heading s with
  | (.ok _, t) => (sections t.braceDepth t).1
  | (.error _, _) => []

/-- How many variables of an object stand outside of its CODE section. -/
def hoistedCount (s : Parser) : Nat := ((sectionsOf s).flatMap ObjectSection.globals?).length

theorem objectBody_of_error {t : Parser} {fault : Fault} (h : heading s = (.error fault, t)) :
    objectBody s = (.error fault, t) := by
  rw [objectBody_eq]
  exact attempt_bind_of_error h _

theorem objectBody_of_ok {t : Parser} {kind : ObjectKind} {id : Int} {name : String}
    (h : heading s = (.ok (kind, id, name), t)) :
    objectBody s = (.ok (.ofSections kind id name (sectionsOf s)), (sections t.braceDepth t).2) := by
  rw [objectBody_eq, sectionsOf, h]
  exact attempt_bind_of_ok h _

section

variable (ho : F.Open)

include ho

theorem lays_objectName : Lays F m objectName fun _ _ => True := by
  apply Lays.look
  intro quoted
  split
  · exact (Lays.pass ho).bind fun _ _ _ _ => Lays.pure fun _ => trivial
  · apply Lays.bind (R := fun _ _ => True)
    · apply Lays.loop (I := fun _ _ => True) fun _ => trivial
      intro tokens k _ _
      apply Lays.look
      intro stop
      split
      · exact Lays.pure fun _ => trivial
      · exact (Lays.pass ho).bind fun _ _ _ _ => Lays.pure fun _ => trivial
    · exact fun _ _ _ _ => Lays.pure fun _ => trivial

theorem lays_reportedName : Lays F m reportedName fun _ _ => True := by
  apply Lays.bind (lays_objectName ho)
  intro name k _ _
  split
  · apply Lays.peek
    exact Lays.report (fun _ => .token F.toCursor k) (Lays.pure fun _ => trivial)
  · exact Lays.pure fun _ => trivial

theorem lays_heading : RuleLays F m heading fun _ k => m < k := by
  have hkind : RuleLays F (m + 1) objectKind fun _ _ => True := by
    apply RuleLays.peek
    split
    · exact RuleLays.expected _
    · rename_i kind hkind
      apply RuleLays.advance
      · apply F.lets_of_open ho
        intro heof
        rw [heof] at hkind
        cases hkind
      · exact fun _ => RuleLays.pure fun _ => trivial
  apply RuleLays.expect (F.passes rfl)
  intro _ _
  apply RuleLays.bind hkind
  intro kind k₁ hk₁ _
  apply RuleLays.bind lays_integer
  intro id k₂ hk₂ _
  apply RuleLays.step (lays_reportedName ho)
  intro name k₃ hk₃ _
  apply RuleLays.expect (F.passes rfl)
  intro _ _
  exact RuleLays.pure fun _ => by omega

theorem lays_closingBrace : Lays F m closingBrace fun _ _ => True := by
  apply Lays.accept (F.passes_brace ho)
  · exact fun _ _ => Lays.pure fun _ => trivial
  · apply Lays.peek
    exact (Lays.reported fun _ => .expected F.toCursor _ m).mono fun _ _ _ _ _ => trivial

omit ho

/-- A CODE section that the source has is wider than one that it does not have. -/
theorem span_ne_absent {c : Cursor} (hc : c.InOrder) {lo hi : Nat} {o : Outline} (h : Solid c lo hi o) :
    o.span ≠ CodeSection.absent.span := by
  obtain ⟨i, j, -, hij, -, hj, hspan, -⟩ := h
  intro habsent
  have hlt := hc.start_lt_over hij hj
  have hwidth : o.span.start.offset < o.span.stop.offset := by rwa [hspan]
  rw [habsent] at hwidth
  exact absurd hwidth (Nat.lt_irrefl 0)

/-- The code of an object: the variables from outside stand in a row, and so does all that the CODE section holds. -/
theorem rows_of_joinCode {c : Cursor} (hc : c.InOrder) {lo hi : Nat} {found : List ObjectSection}
    (h : SectionRows c lo hi found) {list : List Outline}
    (hlist : list ∈ ExportObject.codeLists (found.flatMap ObjectSection.globals?).length (ObjectSection.joinCode found)) :
    Row c lo hi list := by
  have hglobals := h.globals
  have hlast : ∀ s, (found.filterMap ObjectSection.code?).getLast? = some s → Solid c lo hi (s.outline 0) :=
    fun s hs => h.code s (List.mem_of_getLast? hs)
  unfold ObjectSection.joinCode at hlist
  generalize found.flatMap ObjectSection.globals? = outside at hlist hglobals
  generalize (found.filterMap ObjectSection.code?).getLast? = last at hlist hlast
  cases last with
  | none =>
      cases outside with
      | nil => cases hlist
      | cons v outside =>
          simp [ExportObject.codeLists, CodeSection.outlineLists, CodeSection.absent] at hlist
          rcases hlist with rfl | rfl
          · exact hglobals
          · exact .nil
  | some s =>
      have hsolid := hlast s rfl
      have hspan : s.span ≠ CodeSection.absent.span := span_ne_absent hc hsolid
      have hlists : list = outside.map Variable.outline ∨ list = [s.outline 0] := by
        cases outside with
        | nil =>
            simp [ExportObject.codeLists, hspan] at hlist
            exact hlist
        | cons v outside =>
            simp [ExportObject.codeLists, hspan, CodeSection.outline, CodeSection.outlineLists] at hlist
            simpa [CodeSection.outline, CodeSection.outlineLists] using hlist
      rcases hlists with rfl | rfl
      · exact hglobals
      · exact hsolid.row

include ho

/-- An object, with the number of its variables that stand outside of the CODE section. -/
theorem laid_object (hs : Within F s) : Within F (object s).2 ∧ s.position ≤ (object s).2.position ∧
    (F.InOrder → Outcome F (fun o k => Solid F.toCursor s.position k (o.outline (hoistedCount s)))
      (object s).1 (object s).2.position) := by
  obtain ⟨hwithin, hle, hres⟩ := lays_heading ho s hs rfl
  change Within F (heading s).2 at hwithin
  change s.position ≤ (heading s).2.position at hle
  change F.InOrder → Outcome F _ (heading s).1 (heading s).2.position at hres
  rcases hheading : heading s with ⟨fault | ⟨kind, id, name⟩, t⟩
  · rw [object_of_error (objectBody_of_error hheading)]
    rw [hheading] at hwithin hle hres
    exact ⟨hwithin, hle, hres⟩
  · rw [object_of_ok (objectBody_of_ok hheading)]
    rw [hheading] at hwithin hle hres
    obtain ⟨hwithin', hle', hrows⟩ := lays_sections ho t.braceDepth t hwithin rfl
    obtain ⟨hclosed, hle'', -⟩ := lays_closingBrace ho _ hwithin' rfl
    have hsections : sectionsOf s = (sections t.braceDepth t).1 := by rw [sectionsOf, hheading]
    generalize hu : (sections t.braceDepth t).2 = u at hwithin' hle' hrows hclosed hle''
    refine ⟨hclosed, by simp only at hle ⊢; omega, fun hc => ?_⟩
    have hlt : s.position < t.position := hres hc
    have hrows := hrows hc
    rw [← hsections] at hrows
    have hsize : (closingBrace u).2.position ≤ F.tokens.size := Nat.le_trans hclosed.le_limit F.limit_le
    have hinner := hrows.mono (Nat.le_of_lt hlt) (show u.position ≤ (closingBrace u).2.position from hle'')
    show Solid F.toCursor s.position (closingBrace u).2.position _
    apply Solid.node (by omega) hsize (hclosed.spanFrom hc)
    refine List.forall_mem_append.2 ⟨?_, fun list hlist => rows_of_joinCode hc hinner hlist⟩
    simpa [ExportObject.ofSections] using ⟨hinner.properties, hinner.fields, hinner.keys, hinner.fieldGroups⟩

theorem lays_skipTrailing : Lays F m skipTrailing fun _ _ => True := by
  apply Lays.look
  intro stop
  split
  · apply Lays.peek
    apply Lays.report fun _ => .expected F.toCursor _ m
    apply Lays.here
    apply Lays.bind (lays_skipWhile ho _)
    exact fun _ k _ _ => (Lays.skipped m _).mono fun _ _ _ _ _ => trivial
  · exact Lays.pure fun _ => trivial

theorem laid_reportedObject (hs : Within F s) :
    Within F (reportedObject s).2 ∧ s.position ≤ (reportedObject s).2.position ∧ (F.InOrder →
      ∀ o, (reportedObject s).1 = some o →
        Solid F.toCursor s.position (reportedObject s).2.position (o.outline (hoistedCount s))) := by
  obtain ⟨hwithin, hle, hres⟩ := laid_object ho hs
  rw [reportedObject_apply]
  rcases hr : object s with ⟨fault | o, t⟩
  · rw [hr] at hwithin hle hres
    obtain ⟨hwithin', hle', -⟩ := Lays.reported (F := F) (m := t.position) hres t hwithin rfl
    exact ⟨hwithin', Nat.le_trans hle hle', fun _ => nofun⟩
  · rw [hr] at hwithin hle hres
    refine ⟨hwithin, hle, fun hc => ?_⟩
    rintro _ ⟨⟩
    exact hres hc

/-- A document without tokens stands where the input ends, and any other one over all of its tokens. -/
theorem laid_document (hs : Within F s) : Within F (document s).2 ∧ (F.InOrder →
    Row F.toCursor s.position (document s).2.position [(document s).1.outline (hoistedCount s)]) := by
  cases hend : s.atEnd with
  | true =>
      rw [document_of_atEnd hend]
      refine ⟨hs, fun _ => ?_⟩
      have hpoint : s.spanFrom s.position = Span.point (F.tokenAt s.position).span.start := by
        rw [Cursor.spanFrom, if_pos (Nat.le_refl _), hs.peek]
      show Row F.toCursor s.position s.position [.node (s.spanFrom s.position) []]
      rw [hpoint]
      exact .point (Nat.le_refl _) (Nat.le_refl _) .nil
  | false =>
      obtain ⟨hwithin, hle, hobject⟩ := laid_reportedObject ho hs
      obtain ⟨hwithin', hle', -⟩ := lays_skipTrailing ho _ hwithin rfl
      have hlast : s.position < (skipTrailing (reportedObject s).2).2.position := by
        have hall := Cursor.atEnd_iff.1 (skipTrailing_atEnd (reportedObject s).2)
        rw [hall, hwithin'.tokens, ← hs.tokens]
        exact Nat.lt_of_le_of_ne s.position_le fun h => by simp [Cursor.atEnd_iff.2 h] at hend
      have hsize := Nat.le_trans hwithin'.le_limit F.limit_le
      rw [document_apply hend]
      refine ⟨hwithin', fun hc => Solid.row (Solid.node hlast hsize (hwithin'.spanFrom hc) ?_)⟩
      intro list hlist
      obtain ⟨o, ho', rfl⟩ := List.mem_map.1 hlist
      exact (hobject hc o (Option.mem_toList.1 ho')).row.mono (Nat.le_refl _) hle'

end

end CalExport.Rule
