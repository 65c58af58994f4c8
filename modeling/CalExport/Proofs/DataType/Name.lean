import CalExport.Proofs.DataType.Form
import CalExport.Proofs.Lexing.Spelling
import CalExport.Proofs.Window.Common

namespace CalExport

open Text

namespace DataType

def unplaced : DataType → DataType
  | .simple name length _ => .simple name length .origin
  | .reference target id _ => .reference target id .origin
  | .array dimensions temporary element _ => .array dimensions temporary element.unplaced .origin
  | .textConst _ => .textConst .origin
  | .dotNet info _ => .dotNet info .origin
  | .automation info _ => .automation info .origin
  | .options literal value _ => .options literal value .origin

def undescribed : DataType → Bool
  | .dotNet .. | .automation .. => false
  | .array _ _ element _ => element.undescribed
  | _ => true

end DataType

namespace Rule

variable {e : Token} {n : Nat} {w more : List Token} {faults : List Fault} {type : DataType} {t : Token}

/-- The name of a type spells at most `count` tokens, and these have its form again, with `n` levels. -/
def ReadsBack (n count : Nat) (type : DataType) : Prop :=
  ∃ l, Spelled type.name.toList l ∧ l.length ≤ count ∧ ∀ (e : Token) (m : Nat) (w : List Token), n ≤ m →
    w.map Token.face = l → ∃ again faults, TypeForm e m w [] faults again ∧ again.unplaced = type.unplaced ∧
      faults.length ≤ n ∧ ∀ fault ∈ faults, fault.code = .arrayDimensionLimit

theorem ReadsBack.mono {count count' : Nat} (h : ReadsBack n count type) (hcount : count ≤ count') :
    ReadsBack n count' type := by
  obtain ⟨l, hspelled, hlength, hforms⟩ := h
  exact ⟨l, hspelled, Nat.le_trans hlength hcount, hforms⟩

/-- A type that no fault is told of when it is read back. -/
theorem ReadsBack.of_clean {count : Nat} {l : List (Kind × String)} (hspelled : Spelled type.name.toList l)
    (hcount : l.length ≤ count) (hform : ∀ (e : Token) (m : Nat) (w : List Token), w.map Token.face = l →
      ∃ again, TypeForm e m w [] [] again ∧ again.unplaced = type.unplaced) : ReadsBack n count type := by
  refine ⟨l, hspelled, hcount, ?_⟩
  intro e m w _ hw
  obtain ⟨again, hagain, heq⟩ := hform e m w hw
  exact ⟨again, [], hagain, heq, Nat.zero_le n, nofun⟩

theorem kind_of_face {κ : Kind} {text : String} (h : t.face = (κ, text)) : t.kind = κ ∧ t.text = text :=
  Prod.mk.inj h

/-- A type whose name is a single token. -/
theorem ReadsBack.of_single {κ : Kind} {text : String} (hspelled : Spelled type.name.toList [(κ, text)])
    (hform : ∀ (e : Token) (m : Nat) (u : Token), u.kind = κ → u.text = text →
      ∃ again, TypeForm e m [u] [] [] again ∧ again.unplaced = type.unplaced) : ReadsBack n 1 type := by
  refine .of_clean hspelled (Nat.le_refl 1) ?_
  intro e m w hw
  obtain ⟨u, rfl, hu⟩ := List.map_eq_singleton_iff.1 hw
  obtain ⟨hkind, htext⟩ := kind_of_face hu
  exact hform e m u hkind htext

/-- Digits are split off a name only behind a type that may have a length, and no more of them are in front. -/
theorem splitSize_cases (name : String) : splitSize name = (name, none) ∨
    ∃ front digits length, name.toList = front ++ digits ∧ front.reverse.takeWhile Char.isDigit = [] ∧
      (∃ x ∈ sizableTypes, sameIgnoringCase x (String.ofList front) = true) ∧
      splitSize name = (String.ofList front, some length) := by
  generalize hdigits : (name.toList.reverse.takeWhile Char.isDigit).reverse = digits
  generalize hfront : (name.toList.reverse.dropWhile Char.isDigit).reverse = front
  have hsplit : name.toList = front ++ digits := by
    rw [← hfront, ← hdigits, ← List.reverse_append, List.takeWhile_append_dropWhile, List.reverse_reverse]
  have hbase : name.toList.take (name.toList.length - digits.length) = front := by
    rw [hsplit, List.length_append, Nat.add_sub_cancel, List.take_left]
  have hnone : front.reverse.takeWhile Char.isDigit = [] := by
    have hhead := List.head?_dropWhile_not Char.isDigit name.toList.reverse
    rw [← hfront, List.reverse_reverse]
    cases hdrop : name.toList.reverse.dropWhile Char.isDigit with
    | nil => rfl
    | cons c cs =>
        rw [hdrop] at hhead
        exact List.takeWhile_cons_of_neg (by simpa using hhead)
  unfold splitSize
  dsimp only
  rw [hdigits, hbase]
  split
  · exact .inl rfl
  · rename_i hcondition
    simp only [Bool.or_eq_true, Bool.not_eq_true', not_or, Bool.not_eq_false] at hcondition
    exact .inr ⟨front, digits, _, hsplit, hnone, List.any_eq_true.1 hcondition.1.2, rfl⟩

theorem splitSize_base {front : List Char} (h : front.reverse.takeWhile Char.isDigit = []) :
    splitSize (String.ofList front) = (String.ofList front, none) := by
  unfold splitSize
  simp [h]

theorem wordKind_sizable {x : String} {cs : List Char} (h : sameIgnoringCase x (String.ofList cs) = true) :
    wordKind cs = wordKind x.toList := by
  have hlower : lowered x.toList = lowered cs := by
    have hsame := congrArg String.toList (sameIgnoringCase_iff.1 h)
    rwa [toList_lowerAscii, toList_lowerAscii, String.toList_ofList] at hsame
  rw [wordKind, ← Keyword.ofWord_lowered cs, ← hlower, Keyword.ofWord_lowered, wordKind]

theorem isWord_append {front back : List Char} (h : isWord (front ++ back) = true) (hfront : front ≠ []) :
    isWord front = true := by
  cases front with
  | nil => exact absurd rfl hfront
  | cons c cs =>
      rw [List.cons_append, isWord, List.all_append, Bool.and_eq_true, Bool.and_eq_true] at h
      rw [isWord, h.1, h.2.1]
      rfl

/-- The front of a word whose digits are a length is a word that names a type, and has no length. -/
theorem base_spec (ht : Faithful t) (hkind : namesType t.kind = true) :
    isWord (splitSize t.text).1.toList = true ∧ namesType (wordKind (splitSize t.text).1.toList) = true ∧
      (splitSize (splitSize t.text).1).1 = (splitSize t.text).1 := by
  have hnames : namesWord t.kind = true := by rcases namesType_iff.1 hkind with h | h <;> rw [h] <;> rfl
  obtain ⟨hword, hsame⟩ := ht.word hnames
  rcases splitSize_cases t.text with hwhole | ⟨front, digits, length, htext, hnone, ⟨x, hx, hsizable⟩, hsplit⟩
  · rw [hwhole]
    refine ⟨hword, by rwa [hsame], ?_⟩
    rw [hwhole]
  · rw [hsplit, String.toList_ofList]
    have hkinds : ∀ x ∈ sizableTypes, namesType (wordKind x.toList) = true := by decide +kernel
    have hfront : front ≠ [] := by
      rintro rfl
      have hempty : ∀ x ∈ sizableTypes, sameIgnoringCase x (String.ofList []) = false := by
        decide +kernel
      rw [hempty x hx] at hsizable
      cases hsizable
    rw [htext] at hword
    refine ⟨isWord_append hword hfront, ?_, ?_⟩
    · rw [wordKind_sizable hsizable]
      exact hkinds x hx
    · rw [splitSize_base hnone]

theorem quiet_of_namesType {κ : Kind} (h : namesType κ = true) : κ.quiet = true ∧ lettered κ = true := by
  rcases namesType_iff.1 h with rfl | rfl <;> exact ⟨rfl, rfl⟩

theorem readsBack_word (ht : Faithful t) (hkind : namesType t.kind = true) (span : Span) :
    ReadsBack n 1 (.simple t.text (splitSize t.text).2 span) := by
  obtain ⟨hquiet, hlettered⟩ := quiet_of_namesType hkind
  refine .of_single (ht.spelled hlettered hquiet) ?_
  intro e m u hu htext
  refine ⟨_, .word (by rwa [hu]) nofun, ?_⟩
  rw [htext]
  rfl

theorem digitsValue_toString (n : Nat) : digitsValue (toString n) = n := by
  rw [digitsValue, Nat.toString_eq_repr, Nat.toList_repr]
  exact Nat.ofDigitChars_toDigits (by decide) (by decide)

theorem boundedNumber_of_text {largest number : Nat} (ht : t.text = toString number) (hle : number ≤ largest) :
    boundedNumber largest t = number ∧ excess largest t = [] := by
  rw [boundedNumber, excess, ht, digitsValue_toString]
  exact ⟨if_pos hle, if_pos hle⟩

theorem readsBack_sized (ht : Faithful t) (hkind : namesType t.kind = true) {size : Nat} (hsize : size ≤ maxSize)
    (span : Span) :
    ReadsBack n 4 (.simple s!"{(splitSize t.text).1}[{size}]" (some size) span) := by
  obtain ⟨hword, hnames, hbase⟩ := base_spec ht hkind
  generalize (splitSize t.text).1 = base at *
  have hspelled : Spelled (base.toList ++ '[' :: ((toString size).toList ++ [']']))
      [(wordKind base.toList, base), (.leftBracket, "["), (.integer, toString size), (.rightBracket, "]")] :=
    Spelled.word hword rfl (quiet_of_namesType hnames).1 (by simp [goesOnWord]; decide)
      (.openingBracket (.number size rfl (.closingBracket .nil)))
  have hname : (DataType.simple s!"{base}[{size}]" (some size) span).name.toList =
      base.toList ++ '[' :: ((toString size).toList ++ [']']) := by
    simp [DataType.name, toString]
  rw [← hname] at hspelled
  refine ReadsBack.of_clean hspelled (Nat.le_refl 4) ?_
  intro e m w hw
  obtain ⟨u, w, rfl, hu, hw⟩ := List.map_eq_cons_iff.1 hw
  obtain ⟨opening, w, rfl, hopening, hw⟩ := List.map_eq_cons_iff.1 hw
  obtain ⟨number, w, rfl, hnumber, hw⟩ := List.map_eq_cons_iff.1 hw
  obtain ⟨closing, rfl, hclosing⟩ := List.map_eq_singleton_iff.1 hw
  obtain ⟨hkind', htext⟩ := kind_of_face hu
  obtain ⟨hinteger, hdigits⟩ := kind_of_face hnumber
  obtain ⟨hvalue, hexcess⟩ := boundedNumber_of_text hdigits hsize
  have hform : TypeForm e m [u, opening, number, closing] [] _ _ := .sized (by rwa [hkind']) (kind_of_face hopening).1
    hinteger (kind_of_face hclosing).1
  rw [hexcess, hvalue, htext, hbase] at hform
  exact ⟨_, hform, rfl⟩

def SpellsKeyword (text : String) (k : Keyword) : Prop :=
  isWord text.toList = true ∧ wordKind text.toList = .keyword k ∧ (Kind.keyword k).quiet = true

instance (text : String) (k : Keyword) : Decidable (SpellsKeyword text k) := inferInstanceAs (Decidable (_ ∧ _ ∧ _))

theorem spelled_keyword {text : String} {k : Keyword} {rest : List Char} {l : List (Kind × String)}
    (htext : SpellsKeyword text k) (hl : l ≠ []) (h : Spelled rest l) :
    Spelled (text.toList ++ ' ' :: rest) ((.keyword k, text) :: l) :=
  .word htext.1 htext.2.1 htext.2.2 (by simp [goesOnWord]; decide) (.blank hl h)

theorem spelled_keywordAlone {text : String} {k : Keyword} (htext : SpellsKeyword text k) :
    Spelled text.toList [(.keyword k, text)] :=
  .wordAlone htext.1 htext.2.1 htext.2.2

theorem spells_targetName {k : Keyword} (hk : refersTo k = true) : SpellsKeyword (DataType.targetName k) k := by
  cases k <;> first | exact absurd hk Bool.false_ne_true | decide +kernel

theorem readsBack_reference {k : Keyword} (hk : refersTo k = true) (span : Span) :
    ReadsBack n 1 (.reference k none span) := by
  refine .of_single (spelled_keywordAlone (spells_targetName hk)) ?_
  intro e m u hu _
  exact ⟨_, .reference hu hk nofun, rfl⟩

theorem readsBack_numbered {k : Keyword} (hk : refersTo k = true) {number : Nat} (hnumber : number ≤ maxInteger)
    (span : Span) : ReadsBack n 2 (.reference k (some number) span) := by
  have hdigits : Spelled (toString number).toList [(.integer, toString number)] := by
    have hspelled := Spelled.number number rfl .nil
    rwa [List.append_nil] at hspelled
  have hspelled : Spelled ((DataType.targetName k).toList ++ ' ' :: (toString number).toList)
      [(.keyword k, DataType.targetName k), (.integer, toString number)] :=
    spelled_keyword (spells_targetName hk) nofun hdigits
  have hname : (DataType.reference k (some (number : Int)) span).name.toList =
      (DataType.targetName k).toList ++ ' ' :: (toString number).toList := by
    have hint : toString (number : Int) = toString number := rfl
    simp [DataType.name, hint]
  rw [← hname] at hspelled
  refine ReadsBack.of_clean hspelled (Nat.le_refl 2) ?_
  intro e m w hw
  obtain ⟨u, w, rfl, hu, hw⟩ := List.map_eq_cons_iff.1 hw
  obtain ⟨digits, rfl, hface⟩ := List.map_eq_singleton_iff.1 hw
  obtain ⟨hinteger, htext⟩ := kind_of_face hface
  obtain ⟨hvalue, hexcess⟩ := boundedNumber_of_text htext hnumber
  have hform : TypeForm e m [u, digits] [] _ _ := .numbered (kind_of_face hu).1 hk hinteger
  rw [hexcess, hvalue] at hform
  exact ⟨_, hform, rfl⟩

theorem readsBack_textConst (span : Span) : ReadsBack n 1 (.textConst span) := by
  have htext : SpellsKeyword "TextConst" .textConst := by decide +kernel
  refine .of_single (spelled_keywordAlone htext) ?_
  intro e m u hu _
  exact ⟨_, .textConst hu (.nil nofun), rfl⟩

theorem readsBack_options (ht : Faithful t) (hkind : t.kind = .string) (span : Span) :
    ReadsBack n 1 (.options t.text t.value span) := by
  refine .of_single (ht.spelled (by rw [hkind]; rfl) (by rw [hkind]; rfl)) ?_
  intro e m u hu htext
  refine ⟨_, .options (hu.trans hkind), ?_⟩
  rw [Token.value, Token.value, hu, htext]
  rfl

def sizeText (sizes : List Nat) : List Char := sizes.flatMap fun size => ',' :: (toString size).toList

def sizeFaces (sizes : List Nat) : List (Kind × String) :=
  sizes.flatMap fun size => [(.comma, ","), (.integer, toString size)]

theorem intercalate_sizes (first : Nat) (sizes : List Nat) :
    (",".intercalate ((first :: sizes).map toString)).toList = (toString first).toList ++ sizeText sizes := by
  rw [String.toList_intercalate]
  induction sizes generalizing first with
  | nil => simp [sizeText]
  | cons size sizes ih =>
      have hrest := ih size
      simp only [List.map_cons] at hrest ⊢
      rw [List.intercalate_cons_cons, hrest]
      simp [sizeText]

theorem length_sizeFaces (sizes : List Nat) : (sizeFaces sizes).length = 2 * sizes.length := by
  induction sizes with
  | nil => rfl
  | cons size sizes ih =>
      have hsplit : sizeFaces (size :: sizes) = (.comma, ",") :: (.integer, toString size) :: sizeFaces sizes := rfl
      rw [hsplit, List.length_cons, List.length_cons, List.length_cons, ih]
      omega

theorem spelled_sizes {rest : List Char} {l : List (Kind × String)} (sizes : List Nat) (hrest : endsNumber rest = true)
    (h : Spelled rest l) :
    endsNumber (sizeText sizes ++ rest) = true ∧ Spelled (sizeText sizes ++ rest) (sizeFaces sizes ++ l) := by
  induction sizes with
  | nil => exact ⟨hrest, h⟩
  | cons size sizes ih =>
      have hsplit : sizeText (size :: sizes) ++ rest = ',' :: ((toString size).toList ++ (sizeText sizes ++ rest)) := by
        simp [sizeText]
      rw [hsplit]
      exact ⟨rfl, .comma (.number size ih.1 ih.2)⟩

theorem dimensionTail_of_faces {sizes : List Nat} (hsizes : ∀ size ∈ sizes, size ≤ maxSize)
    (hw : w.map Token.face = sizeFaces sizes) : DimensionTail w [] sizes := by
  induction sizes generalizing w with
  | nil =>
      obtain rfl := List.map_eq_nil_iff.1 hw
      exact .nil
  | cons size sizes ih =>
      rw [List.forall_mem_cons] at hsizes
      obtain ⟨comma, w, rfl, hcomma, hw⟩ := List.map_eq_cons_iff.1 hw
      obtain ⟨number, w, rfl, hnumber, hw⟩ := List.map_eq_cons_iff.1 hw
      obtain ⟨hinteger, htext⟩ := kind_of_face hnumber
      obtain ⟨hvalue, hexcess⟩ := boundedNumber_of_text htext hsizes.1
      have htail := DimensionTail.cons (kind_of_face hcomma).1 hinteger (ih hsizes.2 hw)
      rwa [hexcess, hvalue] at htail

theorem le_of_dimensionTail {sizes : List Nat} (h : DimensionTail w faults sizes) :
    (∀ size ∈ sizes, size ≤ maxSize) ∧ w.length = 2 * sizes.length := by
  induction h with
  | nil => exact ⟨nofun, rfl⟩
  | cons _ _ _ ih =>
      refine ⟨List.forall_mem_cons.2 ⟨boundedNumber_le _ _, ih.1⟩, ?_⟩
      rw [List.length_cons, List.length_cons, List.length_cons, ih.2]
      omega

theorem code_of_surplus (count : Nat) (span : Span) :
    (surplus count span).length ≤ 1 ∧ ∀ fault ∈ surplus count span, fault.code = .arrayDimensionLimit := by
  unfold surplus
  split
  · exact ⟨Nat.le_refl 1, List.forall_mem_singleton.2 rfl⟩
  · exact ⟨Nat.zero_le 1, nofun⟩

def temporaryText (temporary : Bool) : List Char := if temporary then "TEMPORARY ".toList else []

def temporaryFaces (temporary : Bool) : List (Kind × String) :=
  if temporary then [(.keyword .temporary, "TEMPORARY")] else []

theorem spelled_temporary (temporary : Bool) {rest : List Char} {l : List (Kind × String)} (hl : l ≠ [])
    (h : Spelled rest l) : Spelled (temporaryText temporary ++ rest) (temporaryFaces temporary ++ l) := by
  cases temporary with
  | false => exact h
  | true =>
      have hword : SpellsKeyword "TEMPORARY" .temporary := by decide +kernel
      exact spelled_keyword hword hl h

theorem exists_temporary {temporary : Bool} (hw : w.map Token.face = temporaryFaces temporary) :
    ∃ k : Option Token, k.toList = w ∧ k.isSome = temporary ∧ ∀ t ∈ k, t.kind = .keyword .temporary := by
  cases temporary with
  | false =>
      obtain rfl := List.map_eq_nil_iff.1 hw
      refine ⟨none, rfl, rfl, ?_⟩
      rintro _ ⟨⟩
  | true =>
      obtain ⟨k, rfl, hk⟩ := List.map_eq_singleton_iff.1 hw
      refine ⟨some k, rfl, rfl, ?_⟩
      rintro _ ⟨⟩
      exact (kind_of_face hk).1

theorem toList_arrayName (first : Nat) (sizes : List Nat) (temporary : Bool) (element : DataType) (span : Span) :
    (DataType.array (first :: sizes) temporary element span).name.toList =
      "ARRAY".toList ++ ' ' :: '[' :: ((toString first).toList ++ (sizeText sizes ++ ']' :: ' ' ::
        ("OF".toList ++ ' ' :: (temporaryText temporary ++ element.name.toList)))) := by
  have hsizes := intercalate_sizes first sizes
  rw [DataType.name]
  simp only [String.toList_append, hsizes]
  cases temporary <;> simp [temporaryText]

def arrayFaces (first : Nat) (sizes : List Nat) (temporary : Bool) (l : List (Kind × String)) : List (Kind × String) :=
  (.keyword .array, "ARRAY") :: (.leftBracket, "[") :: (.integer, toString first) ::
    (sizeFaces sizes ++ (.rightBracket, "]") :: (.keyword .of, "OF") :: (temporaryFaces temporary ++ l))

theorem spelled_array {element : DataType} {l : List (Kind × String)} (hl : l ≠ [])
    (h : Spelled element.name.toList l) (first : Nat) (sizes : List Nat) (temporary : Bool) (span : Span) :
    Spelled (DataType.array (first :: sizes) temporary element span).name.toList
      (arrayFaces first sizes temporary l) := by
  have hof : SpellsKeyword "OF" .of := by decide +kernel
  have harray : SpellsKeyword "ARRAY" .array := by decide +kernel
  have htail := spelled_keyword hof (by simp [hl]) (spelled_temporary temporary hl h)
  obtain ⟨hends, hdimensions⟩ := spelled_sizes sizes rfl (.closingBracket (.blank (List.cons_ne_nil _ _) htail))
  rw [toList_arrayName]
  exact spelled_keyword harray (List.cons_ne_nil _ _) (.openingBracket (.number first hends hdimensions))

/-- Tokens with the looks of an array's name end with those of the element, and are an array as soon as these are a
type. -/
theorem arrayForm_of_faces {first : Nat} {sizes : List Nat} {temporary : Bool} {l : List (Kind × String)}
    (hfirst : first ≤ maxSize) (hsizes : ∀ size ∈ sizes, size ≤ maxSize)
    (hw : w.map Token.face = arrayFaces first sizes temporary l) : ∃ v told, v.map Token.face = l ∧
      told.length ≤ 1 ∧ (∀ fault ∈ told, fault.code = .arrayDimensionLimit) ∧
      ∀ faults element, TypeForm e n v [] faults element →
        TypeForm e (n + 1) w [] (told ++ faults) (.array (first :: sizes) temporary element (runSpan w)) := by
  obtain ⟨keyword, w, rfl, hkeyword, hw⟩ := List.map_eq_cons_iff.1 hw
  obtain ⟨opening, w, rfl, hopening, hw⟩ := List.map_eq_cons_iff.1 hw
  obtain ⟨number, w, rfl, hnumber, hw⟩ := List.map_eq_cons_iff.1 hw
  obtain ⟨d, w, rfl, hd, hw⟩ := List.map_eq_append_iff.1 hw
  obtain ⟨closing, w, rfl, hclosing, hw⟩ := List.map_eq_cons_iff.1 hw
  obtain ⟨of, w, rfl, hof, hw⟩ := List.map_eq_cons_iff.1 hw
  obtain ⟨k, v, rfl, hk, hv⟩ := List.map_eq_append_iff.1 hw
  obtain ⟨k, rfl, rfl, hkinds⟩ := exists_temporary hk
  obtain ⟨hinteger, htext⟩ := kind_of_face hnumber
  obtain ⟨hvalue, hexcess⟩ := boundedNumber_of_text htext hfirst
  have hbrackets := DimensionForm.mk (kind_of_face hopening).1 hinteger (dimensionTail_of_faces hsizes hd)
    (kind_of_face hclosing).1
  rw [hexcess, hvalue, List.append_nil, List.nil_append] at hbrackets
  obtain ⟨hsurplus, hlimit⟩ := code_of_surplus (sizes.length + 1) (opening.span.merge closing.span)
  refine ⟨v, _, hv, hsurplus, hlimit, ?_⟩
  intro faults element hform
  simpa using TypeForm.array (kind_of_face hkeyword).1 hbrackets (kind_of_face hof).1 hkinds hform

theorem readsBack_array {first : Nat} {sizes : List Nat} {element : DataType} {count : Nat} (hfirst : first ≤ maxSize)
    (hsizes : ∀ size ∈ sizes, size ≤ maxSize) (helement : ReadsBack n count element) (temporary : Bool) (span : Span) :
    ReadsBack (n + 1) (2 * sizes.length + 5 + (temporaryFaces temporary).length + count)
      (.array (first :: sizes) temporary element span) := by
  obtain ⟨l, hspelled, hcount, hforms⟩ := helement
  have hl : l ≠ [] := by
    rintro rfl
    obtain ⟨again, faults, hform, -⟩ := hforms default n [] (Nat.le_refl n) rfl
    obtain ⟨u, v, hnil⟩ := exists_head hform
    cases hnil
  refine ⟨_, spelled_array hl hspelled first sizes temporary span, ?_, ?_⟩
  · simp only [arrayFaces, List.length_cons, List.length_append, length_sizeFaces]
    omega
  · intro e m w hm hw
    obtain ⟨m, rfl⟩ : ∃ k, m = k + 1 := ⟨m - 1, by omega⟩
    obtain ⟨v, told, hv, hone, hlimit, harray⟩ := arrayForm_of_faces hfirst hsizes hw
    obtain ⟨again, faults, hform, hsame, hlength, hcodes⟩ := hforms e m v (by omega) hv
    refine ⟨_, _, harray faults again hform, ?_, ?_, ?_⟩
    · rw [DataType.unplaced, DataType.unplaced, hsame]
    · rw [List.length_append]
      omega
    · exact List.forall_mem_append.2 ⟨hlimit, hcodes⟩

theorem length_temporaryFaces (temporary : Option Token) :
    (temporaryFaces temporary.isSome).length = temporary.toList.length := by
  cases temporary <;> rfl

/-- The name of a type that has a form reads back, from no more tokens than the form has. -/
theorem readsBack_of_form (h : TypeForm e n w more faults type) (hw : ∀ t ∈ w, Faithful t)
    (hplain : type.undescribed = true) : ReadsBack n w.length type := by
  induction h with
  | word ht => exact readsBack_word (hw _ List.mem_cons_self) ht _
  | sized ht => exact readsBack_sized (hw _ List.mem_cons_self) ht (boundedNumber_le _ _) _
  | reference _ hk => exact readsBack_reference hk _
  | numbered _ hk => exact readsBack_numbered hk (boundedNumber_le _ _) _
  | textConst =>
      refine (readsBack_textConst _).mono ?_
      rw [List.length_cons]
      exact Nat.le_add_left _ _
  | dotNet | automation => cases hplain
  | options ht => exact readsBack_options (hw _ List.mem_cons_self) ht _
  | @array n t of temporary d w more told later sizes element ht hd hof htemporary hform ih =>
      have helement : ReadsBack n w.length element := by
        refine ih (fun u hu => hw u ?_) hplain
        exact List.mem_cons_of_mem _ (List.mem_append_right _ (List.mem_cons_of_mem _ (List.mem_append_right _ hu)))
      obtain ⟨hopening, hnumber, htail, hclosing⟩ := hd
      obtain ⟨hsizes, hlength⟩ := le_of_dimensionTail htail
      refine (readsBack_array (boundedNumber_le _ _) hsizes helement temporary.isSome _).mono ?_
      simp only [length_temporaryFaces, List.length_cons, List.length_append, hlength, List.length_nil]
      omega

variable {source : String} {tokens : Array Token} {metrics : Metrics} {s end' : Parser}

/-- What may stand in front of a parser of some source. -/
theorem ahead_spec (htokens : tokenize source = .ok (tokens, metrics))
    (hs : s.tokens = (Cursor.ofTokens tokens).tokens) :
    (∀ t ∈ ahead s, Faithful t) ∧ (ahead s).length ≤ maxTokenCount := by
  obtain ⟨hfaithful, hsize⟩ := faithful_of_tokenize htokens
  obtain ⟨front, hlist, hkinds, -⟩ := tiled_of_tokenize htokens
  have hfront : s.tokens.toList = front := by
    rw [hs]
    exact Cursor.tokens_ofTokens hlist rfl hkinds
  have hlength := congrArg List.length hlist
  rw [Array.length_toList, List.length_append, List.length_singleton] at hlength
  rw [ahead, hfront]
  refine ⟨?_, ?_⟩
  · intro t ht
    apply hfaithful
    rw [hlist]
    exact List.mem_append_left _ (List.mem_of_mem_drop ht)
  · rw [List.length_drop]
    omega

/-- Tokens that have the looks of `l` and then the end of the input are in front of a fresh parser but for that end. -/
theorem ahead_of_faces (preferences : ParserPreferences) {l : List (Kind × String)} (hl : ∀ face ∈ l, face.1 ≠ .eof)
    (hfaces : tokens.toList.map Token.face = l ++ [(.eof, "")]) :
    (ahead (Parser.ofTokens tokens preferences)).map Token.face = l := by
  obtain ⟨front, last, hlist, rfl, hlast⟩ := List.map_eq_append_iff.1 hfaces
  obtain ⟨u, rfl, hu⟩ := List.map_eq_singleton_iff.1 hlast
  have hfront : withoutEnd front = front := by
    refine List.filter_eq_self.2 fun t ht => ?_
    exact decide_eq_true (hl t.face (List.mem_map_of_mem ht))
  have hend : withoutEnd [u] = [] := by
    refine List.filter_cons_of_neg ?_
    rw [(kind_of_face hu).1]
    decide
  have hwhole : tokens = (front ++ [u]).toArray := by rw [← hlist]
  rw [hwhole, ahead_ofTokens, withoutEnd_append, hfront, hend, List.append_nil]

/-- What a type from a source is called is its normal form: it reads as that type apart from places, whole, and nothing
but a limit on dimensions is reported. -/
theorem name_is_normal (htokens : tokenize source = .ok (tokens, metrics))
    (hs : s.tokens = (Cursor.ofTokens tokens).tokens) (hrun : dataType s = (.ok type, end'))
    (hplain : type.undescribed = true) (preferences : ParserPreferences) :
    ∃ tokens' metrics' type' t, tokenize type.name = .ok (tokens', metrics') ∧
      dataType (Parser.ofTokens tokens' preferences) = (.ok type', t) ∧ t.atEnd = true ∧
      type'.unplaced = type.unplaced ∧ ∀ d ∈ t.diagnostics, d.code = .arrayDimensionLimit := by
  obtain ⟨hfaithful, hroom⟩ := ahead_spec htokens hs
  obtain ⟨w, more, faults, hahead, -, hform⟩ := (dataType_means s rfl rfl type end').1 hrun
  rw [hahead] at hfaithful hroom
  rw [List.length_append] at hroom
  obtain ⟨l, hspelled, hlength, hforms⟩ :=
    readsBack_of_form hform (fun t ht => hfaithful t (List.mem_append_left _ ht)) hplain
  obtain ⟨tokens', metrics', htokenize, hfaces⟩ := tokenize_of_spelled hspelled (by omega)
  have hagain := ahead_of_faces preferences hspelled.kind_ne_eof hfaces
  -- all levels are left to a fresh parser, no fewer than to the one that read the type
  have hlevels : s.freeLevels ≤ (Parser.ofTokens tokens' preferences).freeLevels := Nat.sub_le maxNesting s.nesting
  obtain ⟨type', told, hform', hsame, hcount, hcodes⟩ := hforms _ _ _ hlevels hagain
  have hfew : s.freeLevels ≤ maxDiagnostics := Nat.le_trans (Nat.sub_le maxNesting s.nesting) (by decide)
  obtain ⟨t, hrun', hend, hdiagnostics⟩ := dataType_of_whole hform' rfl (Nat.le_trans hcount hfew)
  refine ⟨tokens', metrics', type', t, htokenize, hrun', hend, hsame, ?_⟩
  rw [hdiagnostics]
  intro d hd
  obtain ⟨fault, hfault, rfl⟩ := List.mem_map.1 (List.mem_toArray.1 hd)
  exact hcodes fault hfault

theorem ok_of_toOption {ε α : Type} {x : Except ε α} {a : α} (h : x.toOption = some a) : x = .ok a := by
  cases x with
  | error _ => cases h
  | ok _ => exact congrArg Except.ok (Option.some.inj h)

/-- A type in the middle of a source, with a size that is too large. -/
theorem name_is_normal_records : ∃ tokens metrics type t tokens' metrics' type' t',
    tokenize "x : array[2,99999999999] of temporary record 18;" = .ok (tokens, metrics) ∧
      dataType (skip 2 (Parser.ofTokens tokens {})) = (.ok type, t) ∧
      type.name = "ARRAY [2,0] OF TEMPORARY Record 18" ∧ type.undescribed = true ∧
      tokenize type.name = .ok (tokens', metrics') ∧ dataType (Parser.ofTokens tokens' {}) = (.ok type', t') ∧
      t'.atEnd = true ∧ type'.unplaced = type.unplaced ∧ ∀ d ∈ t'.diagnostics, d.code = .arrayDimensionLimit := by
  have hread : ((tokenize "x : array[2,99999999999] of temporary record 18;").toOption.bind fun found =>
      (dataType (skip 2 (Parser.ofTokens found.1 {}))).1.toOption.map fun type => (type.name, type.undescribed)) =
        some ("ARRAY [2,0] OF TEMPORARY Record 18", true) := by decide +kernel
  obtain ⟨⟨tokens, metrics⟩, htokens, hread⟩ := Option.bind_eq_some_iff.1 hread
  obtain ⟨type, htype, hfound⟩ := Option.map_eq_some_iff.1 hread
  obtain ⟨hname, hplain⟩ := Prod.mk.inj hfound
  have hrun : dataType (skip 2 (Parser.ofTokens tokens {})) = (.ok type, _) := Prod.ext (ok_of_toOption htype) rfl
  have htokens' := ok_of_toOption htokens
  obtain ⟨tokens', metrics', type', t', hnormal⟩ :=
    name_is_normal htokens' (tokens_skip 2 (Parser.ofTokens tokens {})) hrun hplain {}
  exact ⟨tokens, metrics, type, _, tokens', metrics', type', t', htokens', hrun, hname, hplain, hnormal⟩

end Rule

end CalExport
