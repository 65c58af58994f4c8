import CalExport.DataType.Rule
import CalExport.Expr.Rule
import CalExport.Proofs.Kinship.Tree
import CalExport.Proofs.LetterCase.Lexing

namespace CalExport

open Text

namespace Text

theorem length_lowerAscii (text : String) : (lowerAscii text).length = text.length := by
  rw [← String.length_toList, toList_lowerAscii, length_lowered, String.length_toList]

theorem lowerAscii_append (a b : String) : lowerAscii (a ++ b) = lowerAscii a ++ lowerAscii b := by
  rw [← String.toList_inj]
  simp only [toList_lowerAscii, String.toList_append, lowered_append]

theorem isEmpty_lowerAscii (text : String) : (lowerAscii text).isEmpty = text.isEmpty := by
  rw [Bool.eq_iff_iff, String.isEmpty_iff, String.isEmpty_iff, ← String.toList_inj, ← String.toList_inj,
    toList_lowerAscii, lowered, String.toList_empty, List.map_eq_nil_iff]

theorem lowered_lowered (cs : List Char) : lowered (lowered cs) = lowered cs := by
  have htwice : ∀ c : Char, c.toLower.toLower = c.toLower :=
    toLower_induction (p := fun c d => d.toLower = c.toLower) (fun _ => rfl) (forall_capitals (by decide))
  rw [lowered, lowered, List.map_map, Function.comp_def]
  simp only [htwice]

theorem sameIgnoringCase_lowerAscii (a b : String) : sameIgnoringCase a (lowerAscii b) = sameIgnoringCase a b := by
  have htwice : lowerAscii (lowerAscii b) = lowerAscii b := by
    rw [← String.toList_inj, toList_lowerAscii, toList_lowerAscii, lowered_lowered]
  rw [sameIgnoringCase, sameIgnoringCase, htwice]

theorem trimmed_lowerAscii (text : String) : trimmed (lowerAscii text) = lowerAscii (trimmed text) := by
  rw [trimmed, toList_lowerAscii, trim_lowered, trimmed, lowerAscii_ofList]

theorem all_isBlank_lowered (cs : List Char) : (lowered cs).all isBlank = cs.all isBlank := by
  simp only [lowered, List.all_map, Function.comp_def, isBlank_toLower]

end Text

theorem Diagnostic.clean_lowerAscii (message : String) : clean (lowerAscii message) = lowerAscii (clean message) := by
  have hchar : ∀ c : Char, (if isControl c.toLower then ' ' else c.toLower) = (if isControl c then ' ' else c).toLower := by
    intro c
    rw [isControl_toLower]
    split <;> rfl
  simp only [clean, toList_lowerAscii, lowerAscii_ofList, lowered, List.map_take, List.map_map, Function.comp_def, hchar]

theorem fragment_lowerAscii (text : String) : fragment (lowerAscii text) = lowerAscii (fragment text) := by
  have hchar : ∀ c : Char, (if isControl c.toLower || c.toLower == '\'' then '?' else c.toLower) =
      (if isControl c || c == '\'' then '?' else c).toLower := by
    intro c
    rw [isControl_toLower, beq_lowered (by decide)]
    split <;> rfl
  have hshown : ((lowered text.toList).take maxFragmentLength).map
      (fun c => if isControl c || c == '\'' then '?' else c) =
      lowered ((text.toList.take maxFragmentLength).map fun c => if isControl c || c == '\'' then '?' else c) := by
    simp only [take_lowered]
    simp only [lowered, List.map_map, Function.comp_def, hchar]
  simp only [fragment, toList_lowerAscii, length_lowered, lowerAscii_ofList, hshown]
  split
  · rw [lowered_append]
    rfl
  · rfl

theorem undouble_lowered (front cs : List Char) : undouble (lowered front) (lowered cs) = lowered (undouble front cs) := by
  fun_induction undouble front cs with
  | case1 front rest ih => exact ih
  | case2 front c rest h ih =>
      rw [lowered_cons, undouble, ← lowered_cons, ih]
      intro tail hc hrest
      obtain ⟨more, rfl⟩ := eq_cons_of_lowered (by decide) hrest
      exact h more ((toLower_eq_iff (by decide) c).1 hc) rfl
  | case3 front => exact reverse_lowered front

theorem stripDelimiters_lowered {x : Char} (hx : x.isAlpha = false) (cs : List Char) :
    stripDelimiters x (lowered cs) = lowered (stripDelimiters x cs) := by
  have hfront : (if cs.head? = some x then (lowered cs).tail else lowered cs) =
      lowered (if cs.head? = some x then cs.tail else cs) := by
    split
    · exact tail_lowered cs
    · rfl
  simp only [stripDelimiters, head?_lowered hx, hfront]
  generalize (if cs.head? = some x then cs.tail else cs) = inner
  simp only [getLast?_lowered hx]
  split
  · exact dropLast_lowered _
  · rfl

theorem Token.value_lower (t : Token) : t.lower.value = lowerAscii t.value := by
  have hquoted : ∀ x : Char, x.isAlpha = false →
      stripDelimiters x (lowerAscii t.text).toList = lowered (stripDelimiters x t.text.toList) := by
    intro x hx
    rw [toList_lowerAscii, stripDelimiters_lowered hx]
  unfold value lower
  generalize t.kind = kind
  dsimp only
  split
  · rw [hquoted _ (by decide), lowerAscii_ofList, ← undouble_lowered]
    rfl
  · rw [hquoted _ (by decide), lowerAscii_ofList]
  · rfl

theorem Rule.withoutSuffix_lowerAscii (n : Nat) (text : String) :
    withoutSuffix n (lowerAscii text) = lowerAscii (withoutSuffix n text) := by
  rw [withoutSuffix, toList_lowerAscii, length_lowerAscii, take_lowered, withoutSuffix, lowerAscii_ofList]

theorem Rule.splitSize_lowerAscii (name : String) :
    splitSize (lowerAscii name) = (lowerAscii (splitSize name).1, (splitSize name).2) := by
  have hdigits : ((lowered name.toList).reverse.takeWhile Char.isDigit).reverse =
      (name.toList.reverse.takeWhile Char.isDigit).reverse := by
    rw [reverse_lowered, takeWhile_lowered isDigit_toLower,
      lowered_of_isDigit (List.all_eq_true.1 List.all_takeWhile)]
  simp only [splitSize, toList_lowerAscii, hdigits, length_lowered, take_lowered, ← lowerAscii_ofList,
    sameIgnoringCase_lowerAscii]
  split <;> rfl

theorem foreignModifier?_lowerAscii (word : String) : foreignModifier? (lowerAscii word) = foreignModifier? word := by
  simp only [foreignModifier?, sameIgnoringCase_lowerAscii]

theorem isKnownTrigger_lowerAscii (name : String) : isKnownTrigger (lowerAscii name) = isKnownTrigger name := by
  simp only [isKnownTrigger, sameIgnoringCase_lowerAscii]

section

variable {x : Char} (hx : x.isAlpha = false)

include hx

theorem afterChar?_lowered (cs : List Char) : afterChar? x (lowered cs) = (afterChar? x cs).map lowered := by
  cases cs with
  | nil => rfl
  | cons c cs =>
      simp only [lowered_cons, afterChar?, toLower_eq_iff hx]
      split <;> rfl

theorem splitAtChar?_lowered (cs : List Char) :
    splitAtChar? x (lowered cs) = (splitAtChar? x cs).map (Prod.map lowered lowered) := by
  rw [splitAtChar?, dropWhile_lowered (bne_lowered hx), takeWhile_lowered (bne_lowered hx), splitAtChar?]
  cases cs.dropWhile (· != x) <;> rfl

end

/-- Two steps whose results differ by `g` when they start from values that differ by `f`. -/
theorem bind_commutes {α β : Type} {f : α → α} {g : β → β} {step step' : α → Option β}
    (h : ∀ a, step' (f a) = (step a).map g) (x : Option α) : (x.map f >>= step') = (x >>= step).map g := by
  cases x with
  | none => rfl
  | some a => exact h a

theorem DotNetInfo.ofString_lowerAscii (s : String) :
    ofString (lowerAscii s) = (ofString s).map (mapText lowerAscii) := by
  have hquoted : ∀ cs, quotedPart? (lowered cs) = (quotedPart? cs).map (Prod.map lowered lowered) := by
    intro cs
    rw [quotedPart?, afterChar?_lowered (by decide)]
    exact bind_commutes (splitAtChar?_lowered (by decide)) _
  rw [ofString, toList_lowerAscii, ofChars, hquoted, ofString, ofChars]
  cases quotedPart? s.toList with
  | none => rfl
  | some parts =>
      obtain ⟨inside, behind⟩ := parts
      simp only [Option.map_some, Prod.map_apply, trim_lowered, isEmpty_lowered, afterChar?_lowered (x := '.') (by decide)]
      split
      · rfl
      · cases afterChar? '.' behind with
        | none => rfl
        | some typeName =>
            simp only [Option.map_some, trim_lowered]
            cases trim typeName with
            | nil => rfl
            | cons c cs => simp only [lowered_cons, Except.map, mapText, lowerAscii_ofList]

namespace AutomationInfo

theorem run?_lowered {p : Char → Bool} (hp : ∀ c, p c.toLower = p c) (cs : List Char) :
    run? p (lowered cs) = (run? p cs).map (Prod.map lowered lowered) := by
  simp only [run?, takeWhile_lowered hp, dropWhile_lowered hp, isEmpty_lowered]
  split <;> rfl

theorem guid?_lowered (cs : List Char) : guid? (lowered cs) = (guid? cs).map (Prod.map lowered lowered) := by
  have hguid : ∀ c : Char, isGuidChar c.toLower = isGuidChar c :=
    toLower_induction (p := fun c d => isGuidChar d = isGuidChar c) (fun _ => rfl) (forall_capitals (by decide))
  rw [guid?, afterChar?_lowered (by decide)]
  refine bind_commutes (fun rest => ?_) _
  rw [run?_lowered hguid]
  refine bind_commutes (fun ⟨inside, behind⟩ => ?_) _
  dsimp only [Prod.map_apply]
  rw [afterChar?_lowered (by decide)]
  refine bind_commutes (fun rest => ?_) _
  rfl

theorem isVersion_lowered (cs : List Char) : isVersion (lowered cs) = isVersion cs := by
  fun_induction isVersion cs with
  | case1 => rfl
  | case2 c => exact isDigit_toLower c
  | case3 rest h =>
      rw [lowered_cons, show Char.toLower '.' = '.' from rfl, isVersion]
      exact fun hrest => h (List.map_eq_nil_iff.1 hrest)
  | case4 c rest h ih =>
      have hlower : c.toLower ≠ '.' := fun hc => h ((toLower_eq_iff (by decide) c).1 hc)
      rw [lowered_cons, lowered_cons, show Char.toLower '.' = '.' from rfl, isVersion, ih, isDigit_toLower]
      exact hlower
  | case5 c rest hnil hfirst hsecond ih =>
      rw [lowered_cons, isVersion, ih, isDigit_toLower]
      · exact fun hrest => hnil (List.map_eq_nil_iff.1 hrest)
      · exact fun hc => hfirst ((toLower_eq_iff (by decide) c).1 hc)
      · intro tail hrest
        obtain ⟨more, rfl⟩ := eq_cons_of_lowered (by decide) hrest
        exact hsecond more rfl

theorem version?_lowered (cs : List Char) : version? (lowered cs) = (version? cs).map (Prod.map lowered lowered) := by
  have hp : ∀ c : Char, (c.toLower.isDigit || c.toLower == '.') = (c.isDigit || c == '.') := by
    intro c
    rw [isDigit_toLower, beq_lowered (by decide)]
  rw [version?, run?_lowered hp]
  refine bind_commutes (fun ⟨found, behind⟩ => ?_) _
  simp only [Prod.map_apply, isVersion_lowered]
  split <;> rfl

theorem ofChars?_lowered (cs : List Char) : ofChars? (lowered cs) = (ofChars? cs).map (mapText lowerAscii) := by
  rw [ofChars?, trim_lowered, guid?_lowered]
  refine bind_commutes (fun ⟨typeLib, rest⟩ => ?_) _
  dsimp only [Prod.map_apply]
  rw [run?_lowered isBlank_toLower]
  refine bind_commutes (fun ⟨_, rest⟩ => ?_) _
  dsimp only [Prod.map_apply]
  rw [version?_lowered]
  refine bind_commutes (fun ⟨version, rest⟩ => ?_) _
  dsimp only [Prod.map_apply]
  rw [afterChar?_lowered (by decide)]
  refine bind_commutes (fun rest => ?_) _
  rw [guid?_lowered]
  refine bind_commutes (fun ⟨classId, rest⟩ => ?_) _
  dsimp only [Prod.map_apply]
  rw [afterChar?_lowered (by decide)]
  refine bind_commutes (fun rest => ?_) _
  rw [afterChar?_lowered (by decide)]
  refine bind_commutes (fun rest => ?_) _
  rw [splitAtChar?_lowered (by decide)]
  refine bind_commutes (fun ⟨library, rest⟩ => ?_) _
  dsimp only [Prod.map_apply]
  rw [afterChar?_lowered (by decide)]
  refine bind_commutes (fun className => ?_) _
  have hcontains : (lowered className).contains '\n' = className.contains '\n' := by
    simp only [List.contains_eq_any_beq, lowered, List.any_map, Function.comp_def, BEq.comm (a := '\n'),
      beq_lowered (x := '\n') (by decide)]
  rw [isEmpty_lowered, hcontains]
  split
  · rfl
  · simp only [Option.map_some, mapText, lowerAscii_ofList]

theorem ofString_lowerAscii (s : String) : ofString (lowerAscii s) = (ofString s).map (mapText lowerAscii) := by
  rw [ofString, toList_lowerAscii, ofChars?_lowered, ofString]
  cases ofChars? s.toList <;> rfl

end AutomationInfo

end CalExport
