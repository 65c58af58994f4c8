import CalExport.DataType.Descriptor
import CalExport.Proofs.Kinship.Basic
import CalExport.Proofs.Lexing.Spelling
import Mathlib.Data.List.Basic

namespace CalExport

open Text

def Bare (cs : List Char) : Prop := (∀ c ∈ cs.head?, isBlank c = false) ∧ ∀ c ∈ cs.getLast?, isBlank c = false

theorem trimLeft_eq_self {cs : List Char} (h : ∀ c ∈ cs.head?, isBlank c = false) : trimLeft cs = cs := by
  cases cs with
  | nil => rfl
  | cons c cs => exact List.dropWhile_cons_of_neg (by rw [h c rfl]; exact Bool.false_ne_true)

theorem trim_of_bare {cs : List Char} (h : Bare cs) : trim cs = cs := by
  have hright : trimLeft cs.reverse = cs.reverse := by
    refine trimLeft_eq_self ?_
    rw [List.head?_reverse]
    exact h.2
  rw [trim, trimLeft_eq_self h.1, trimRight, ← trimLeft, hright, List.reverse_reverse]

theorem getLast_trim (cs : List Char) : ∀ c ∈ (trim cs).getLast?, isBlank c = false := by
  intro c hc
  rw [trim, trimRight, List.getLast?_reverse] at hc
  have hstop := List.head?_dropWhile_not isBlank (trimLeft cs).reverse
  rwa [hc] at hstop

theorem prefix_of_trimRight (cs : List Char) : trimRight cs <+: cs := by
  rw [trimRight, ← List.reverse_suffix, List.reverse_reverse]
  exact List.dropWhile_suffix _

theorem head_trim (cs : List Char) : ∀ c ∈ (trim cs).head?, isBlank c = false := by
  intro c hc
  have hstop := List.head?_dropWhile_not isBlank cs
  obtain ⟨behind, hbehind⟩ := prefix_of_trimRight (trimLeft cs)
  rw [← trimLeft, ← hbehind, List.head?_append, ← trim, hc] at hstop
  exact hstop

theorem trim_trim (cs : List Char) : trim (trim cs) = trim cs := trim_of_bare ⟨head_trim cs, getLast_trim cs⟩

theorem trim_subset (cs : List Char) : trim cs ⊆ cs :=
  fun _ hc => List.dropWhile_subset _ ((prefix_of_trimRight _).subset hc)

theorem trimmed_trimmed (s : String) : trimmed (trimmed s) = trimmed s := by
  rw [trimmed, trimmed, String.toList_ofList, trim_trim]

theorem afterChar_eq_some_iff {c : Char} {cs rest : List Char} : afterChar? c cs = some rest ↔ cs = c :: rest := by
  cases cs with
  | nil => exact ⟨nofun, nofun⟩
  | cons d cs =>
      rw [afterChar?, Option.ite_none_right_eq_some, Option.some.injEq, List.cons.injEq]

/-- Text is cut where the first character stands that is not of a class. -/
theorem cut_iff {p : Char → Bool} {cs front behind : List Char} :
    cs.takeWhile p = front ∧ cs.dropWhile p = behind ↔
      cs = front ++ behind ∧ (∀ c ∈ front, p c = true) ∧ ∀ c ∈ behind.head?, p c = false := by
  constructor
  · rintro ⟨rfl, rfl⟩
    refine ⟨List.takeWhile_append_dropWhile.symm, List.all_eq_true.1 List.all_takeWhile, ?_⟩
    intro c hc
    have hstop := List.head?_dropWhile_not p cs
    rwa [hc] at hstop
  · rintro ⟨rfl, hfront, hbehind⟩
    have htake : (front ++ behind).takeWhile p = front := takeWhile_exact hfront hbehind
    have hall := List.takeWhile_append_dropWhile (p := p) (l := front ++ behind)
    rw [htake] at hall
    exact ⟨htake, List.append_cancel_left hall⟩

theorem splitAtChar_eq_some_iff {c : Char} {cs front behind : List Char} :
    splitAtChar? c cs = some (front, behind) ↔ cs = front ++ c :: behind ∧ c ∉ front := by
  have hcut : splitAtChar? c cs = some (front, behind) ↔
      cs.takeWhile (· != c) = front ∧ cs.dropWhile (· != c) = c :: behind := by
    unfold splitAtChar?
    cases hdrop : cs.dropWhile (· != c) with
    | nil => simp
    | cons d rest =>
        have hstop := List.head?_dropWhile_not (· != c) cs
        rw [hdrop] at hstop
        obtain rfl : d = c := by simpa using hstop
        simp
  have hfront : (∀ d ∈ front, (d != c) = true) ↔ c ∉ front := by
    simp only [bne_iff_ne]
    exact ⟨fun h hc => h c hc rfl, fun h d hd hdc => h (hdc ▸ hd)⟩
  rw [hcut, cut_iff, hfront]
  simp

namespace DotNetInfo

def write (parts : DotNetInfo) : String := "'" ++ parts.assembly ++ "'." ++ parts.typeName

/-- The parts without the white space around them. -/
def bare (parts : DotNetInfo) : DotNetInfo := ⟨trimmed parts.assembly, trimmed parts.typeName⟩

/-- The text is a descriptor of these parts, neither of them blank. -/
structure Spells (parts : DotNetInfo) (text : String) : Prop where
  assembly_plain : '\'' ∉ parts.assembly.toList
  assembly_full : trimmed parts.assembly ≠ ""
  typeName_full : trimmed parts.typeName ≠ ""
  text_eq : text = parts.write

/-- The text does not begin with an assembly in apostrophes. -/
inductive LacksAssembly (text : String) : Prop where
  | unquoted : text.toList.head? ≠ some '\'' → LacksAssembly text
  | unclosed : text.toList.count '\'' < 2 → LacksAssembly text
  | blank {inside behind : String} : text = "'" ++ inside ++ "'" ++ behind →
      (∀ c ∈ inside.toList, isBlank c = true) → LacksAssembly text

theorem quotedPart_eq_some_iff {cs inside behind : List Char} :
    quotedPart? cs = some (inside, behind) ↔ cs = '\'' :: (inside ++ '\'' :: behind) ∧ '\'' ∉ inside := by
  simp only [quotedPart?, Option.bind_eq_bind, Option.bind_eq_some_iff, afterChar_eq_some_iff, splitAtChar_eq_some_iff]
  constructor
  · rintro ⟨_, rfl, rfl, hinside⟩
    exact ⟨rfl, hinside⟩
  · rintro ⟨rfl, hinside⟩
    exact ⟨_, rfl, rfl, hinside⟩

theorem toList_write (parts : DotNetInfo) :
    parts.write.toList = '\'' :: (parts.assembly.toList ++ '\'' :: '.' :: parts.typeName.toList) := by
  simp [write]

theorem trim_eq_nil_of_blank {cs : List Char} (h : ∀ c ∈ cs, isBlank c = true) : trim cs = [] ∧ '\'' ∉ cs := by
  refine ⟨trim_eq_nil_iff.2 h, fun hmem => ?_⟩
  cases h _ hmem

theorem trim_ne_nil_iff {s : String} : trim s.toList ≠ [] ↔ trimmed s ≠ "" := by
  rw [trimmed, ne_eq, ne_eq, String.ofList_eq_empty_iff]

/-- Without apostrophes where they have to be, or with nothing but white space between them, there is no assembly. -/
theorem ofString_of_lacksAssembly {s : String} (h : LacksAssembly s) : ofString s = .error .missingAssembly := by
  unfold ofString ofChars
  rcases hpart : quotedPart? s.toList with _ | ⟨inside, behind⟩
  · rfl
  · obtain ⟨htext, hinside⟩ := quotedPart_eq_some_iff.1 hpart
    have hblank : trim inside = [] := by
      cases h with
      | unquoted hhead =>
          rw [htext] at hhead
          exact absurd rfl hhead
      | unclosed hcount =>
          rw [htext, List.count_cons_self, List.count_append, List.count_cons_self] at hcount
          omega
      | @blank inside' behind' hs hblank =>
          obtain ⟨htrim, hplain⟩ := trim_eq_nil_of_blank hblank
          have hpart' : quotedPart? s.toList = some (inside'.toList, behind'.toList) :=
            quotedPart_eq_some_iff.2 ⟨by simp [hs], hplain⟩
          cases hpart.symm.trans hpart'
          exact htrim
    dsimp only
    rw [hblank]
    rfl

/-- Otherwise there is an assembly. -/
theorem exists_of_not_lacksAssembly {s : String} (h : ¬ LacksAssembly s) :
    ∃ inside behind, quotedPart? s.toList = some (inside, behind) ∧ trim inside ≠ [] := by
  have hhead : s.toList.head? = some '\'' := by
    by_contra hhead
    exact h (.unquoted hhead)
  obtain ⟨rest, htext⟩ := List.head?_eq_some_iff.1 hhead
  have hmem : '\'' ∈ rest := by
    by_contra hplain
    refine h (.unclosed ?_)
    rw [htext, List.count_cons_self, List.count_eq_zero_of_not_mem hplain]
    exact Nat.lt_succ_self 1
  obtain ⟨inside, behind, rfl, hinside⟩ := List.eq_append_cons_of_mem hmem
  refine ⟨inside, behind, quotedPart_eq_some_iff.2 ⟨htext, hinside⟩, fun hblank => h ?_⟩
  refine @LacksAssembly.blank s (.ofList inside) (.ofList behind) ?_ ?_
  · rw [← String.toList_inj, htext]
    simp
  · rw [String.toList_ofList]
    exact trim_eq_nil_iff.1 hblank

/-- A descriptor is decoded to its parts. -/
theorem ofString_of_spells {s : String} {parts : DotNetInfo} (h : parts.Spells s) : ofString s = .ok parts.bare := by
  have hpart : quotedPart? s.toList = some (parts.assembly.toList, '.' :: parts.typeName.toList) :=
    quotedPart_eq_some_iff.2 ⟨by rw [h.text_eq, toList_write], h.assembly_plain⟩
  have hassembly : (trim parts.assembly.toList).isEmpty = false := by
    rw [List.isEmpty_eq_false_iff]
    exact trim_ne_nil_iff.2 h.assembly_full
  obtain ⟨c, cs, htypeName⟩ := List.exists_cons_of_ne_nil (trim_ne_nil_iff.2 h.typeName_full)
  have hbehind : (afterChar? '.' ('.' :: parts.typeName.toList)).map trim = some (c :: cs) := by
    rw [afterChar_eq_some_iff.2 rfl, Option.map_some, htypeName]
  unfold ofString ofChars
  rw [hpart]
  dsimp only
  rw [if_neg (Bool.eq_false_iff.1 hassembly), hbehind]
  dsimp only
  rw [bare, trimmed, trimmed, htypeName]

/-- With an assembly and no type name behind it the type name is missing. -/
theorem ofString_of_not_spells {s : String} (hassembly : ¬ LacksAssembly s) (h : ¬ ∃ parts, Spells parts s) :
    ofString s = .error .missingTypeName := by
  obtain ⟨inside, behind, hpart, hinside⟩ := exists_of_not_lacksAssembly hassembly
  unfold ofString ofChars
  rw [hpart]
  dsimp only
  rw [if_neg (by rwa [List.isEmpty_iff])]
  rcases hbehind : (afterChar? '.' behind).map trim with _ | _ | ⟨c, cs⟩
  · rfl
  · rfl
  · obtain ⟨typeName, hdot, htrim⟩ := Option.map_eq_some_iff.1 hbehind
    rw [afterChar_eq_some_iff] at hdot
    obtain ⟨htext, hplain⟩ := quotedPart_eq_some_iff.1 hpart
    refine absurd ⟨⟨.ofList inside, .ofList typeName⟩, ?_, ?_, ?_, ?_⟩ h
    · rwa [String.toList_ofList]
    · rwa [← trim_ne_nil_iff, String.toList_ofList]
    · rw [← trim_ne_nil_iff, String.toList_ofList, htrim]
      exact List.cons_ne_nil c cs
    · rw [← String.toList_inj, toList_write, htext, hdot, String.toList_ofList, String.toList_ofList]

theorem ofString_cases (s : String) :
    LacksAssembly s ∧ ofString s = .error .missingAssembly ∨
      (∃ parts, Spells parts s ∧ ofString s = .ok parts.bare) ∨
      ¬ LacksAssembly s ∧ (¬ ∃ parts, Spells parts s) ∧ ofString s = .error .missingTypeName := by
  by_cases hassembly : LacksAssembly s
  · exact .inl ⟨hassembly, ofString_of_lacksAssembly hassembly⟩
  · by_cases hspells : ∃ parts, Spells parts s
    · obtain ⟨parts, h⟩ := hspells
      exact .inr (.inl ⟨parts, h, ofString_of_spells h⟩)
    · exact .inr (.inr ⟨hassembly, hspells, ofString_of_not_spells hassembly hspells⟩)

/-- What was found is a descriptor again. -/
theorem Spells.write {s : String} {parts : DotNetInfo} (h : parts.Spells s) : parts.bare.Spells parts.bare.write := by
  refine ⟨?_, ?_, ?_, rfl⟩
  · rw [bare, trimmed, String.toList_ofList]
    exact fun hmem => h.assembly_plain (trim_subset _ hmem)
  · rw [bare, trimmed_trimmed]
    exact h.assembly_full
  · rw [bare, trimmed_trimmed]
    exact h.typeName_full

theorem bare_bare (parts : DotNetInfo) : parts.bare.bare = parts.bare := by
  rw [bare, bare, trimmed_trimmed, trimmed_trimmed]

/-- A descriptor is decoded to the parts it is written with, without the white space around them, whatever the text. It
begins with an assembly in apostrophes that is not blank, and behind it stand a dot and a type name that is not blank;
or the assembly is missing, or it is there and the type name is missing. What is found and written is found again. -/
theorem dotNet_decoded_exactly (s : String) :
    (∀ info, ofString s = .ok info ↔ ∃ parts, Spells parts s ∧ info = parts.bare) ∧
      (ofString s = .error .missingAssembly ↔ LacksAssembly s) ∧
      (ofString s = .error .missingTypeName ↔ ¬ LacksAssembly s ∧ ¬ ∃ parts, Spells parts s) ∧
      ∀ info, ofString s = .ok info → ofString info.write = .ok info := by
  have hok : ∀ info, ofString s = .ok info ↔ ∃ parts, Spells parts s ∧ info = parts.bare := by
    intro info
    constructor
    · intro hfound
      rcases ofString_cases s with ⟨-, hresult⟩ | ⟨parts, h, hresult⟩ | ⟨-, -, hresult⟩
      · cases hfound.symm.trans hresult
      · cases hfound.symm.trans hresult
        exact ⟨parts, h, rfl⟩
      · cases hfound.symm.trans hresult
    · rintro ⟨parts, h, rfl⟩
      exact ofString_of_spells h
  refine ⟨hok, ⟨?lacks, ofString_of_lacksAssembly⟩, ⟨?neither, fun h => ofString_of_not_spells h.1 h.2⟩, ?again⟩
  case lacks =>
    intro hfailed
    rcases ofString_cases s with ⟨h, -⟩ | ⟨parts, -, hresult⟩ | ⟨-, -, hresult⟩
    · exact h
    · cases hfailed.symm.trans hresult
    · cases hfailed.symm.trans hresult
  case neither =>
    intro hfailed
    rcases ofString_cases s with ⟨-, hresult⟩ | ⟨parts, -, hresult⟩ | ⟨h, hnone, -⟩
    · cases hfailed.symm.trans hresult
    · cases hfailed.symm.trans hresult
    · exact ⟨h, hnone⟩
  case again =>
    intro info hfound
    obtain ⟨parts, h, rfl⟩ := (hok info).1 hfound
    rw [ofString_of_spells h.write, bare_bare]

/-- The type name holds apostrophes, dots and blanks, and a wide blank ends it. -/
theorem dotNet_decoded_exactly_separators :
    Spells ⟨" a.b ", "\tT'x'. y\u3000"⟩ "' a.b '.\tT'x'. y\u3000" ∧
      ofString "' a.b '.\tT'x'. y\u3000" = .ok ⟨"a.b", "T'x'. y"⟩ ∧
      ofString "'a.b'.T'x'. y" = .ok ⟨"a.b", "T'x'. y"⟩ := by
  obtain ⟨hfound, -, -, hagain⟩ := dotNet_decoded_exactly "' a.b '.\tT'x'. y\u3000"
  have hspells : Spells ⟨" a.b ", "\tT'x'. y\u3000"⟩ "' a.b '.\tT'x'. y\u3000" :=
    ⟨by decide, by decide, by decide, by decide⟩
  have hok := (hfound ⟨"a.b", "T'x'. y"⟩).2 ⟨_, hspells, by decide⟩
  exact ⟨hspells, hok, hagain _ hok⟩

end DotNetInfo

namespace AutomationInfo

theorem run_eq_some_iff {p : Char → Bool} {cs found behind : List Char} :
    run? p cs = some (found, behind) ↔
      cs = found ++ behind ∧ (found ≠ [] ∧ ∀ c ∈ found, p c = true) ∧ ∀ c ∈ behind.head?, p c = false := by
  have hcut : run? p cs = some (found, behind) ↔
      found ≠ [] ∧ cs.takeWhile p = found ∧ cs.dropWhile p = behind := by
    unfold run?
    dsimp only
    rw [Option.ite_none_left_eq_some, Option.some.injEq, Prod.mk.injEq, List.isEmpty_iff]
    refine and_congr_left ?_
    rintro ⟨rfl, -⟩
    exact Iff.rfl
  rw [hcut, cut_iff, and_left_comm, and_assoc]

def IsGuidChar (c : Char) : Prop := ('0' ≤ c ∧ c ≤ '9') ∨ ('a' ≤ c ∧ c ≤ 'f') ∨ ('A' ≤ c ∧ c ≤ 'F') ∨ c = '-'

def IsGuid (cs : List Char) : Prop := cs ≠ [] ∧ ∀ c ∈ cs, IsGuidChar c

theorem isGuidChar_iff {c : Char} : isGuidChar c = true ↔ IsGuidChar c := by
  simp [isGuidChar, IsGuidChar, Char.isDigit, Char.le_def, or_assoc]

theorem isGuid_iff {cs : List Char} : (!cs.isEmpty && cs.all isGuidChar) = true ↔ IsGuid cs := by
  simp [IsGuid, isGuidChar_iff]

theorem guid_eq_some_iff {cs inside behind : List Char} :
    guid? cs = some (inside, behind) ↔ cs = '\x7b' :: (inside ++ '\x7d' :: behind) ∧ IsGuid inside := by
  simp only [guid?, Option.bind_eq_bind, Option.bind_eq_some_iff, Prod.exists, afterChar_eq_some_iff, run_eq_some_iff,
    Option.pure_def, Option.some.injEq, Prod.mk.injEq, isGuidChar_iff]
  constructor
  · rintro ⟨_, rfl, _, _, ⟨rfl, hinside, -⟩, _, rfl, rfl, rfl⟩
    exact ⟨rfl, hinside⟩
  · rintro ⟨rfl, hinside⟩
    refine ⟨_, rfl, _, _, ⟨rfl, hinside, ?_⟩, _, rfl, rfl, rfl⟩
    rintro _ ⟨⟩
    rfl

inductive IsVersion : List Char → Prop where
  | group {digits : List Char} : digits ≠ [] → (∀ c ∈ digits, c.isDigit = true) → IsVersion digits
  | dot {digits rest : List Char} : digits ≠ [] → (∀ c ∈ digits, c.isDigit = true) → IsVersion rest →
      IsVersion (digits ++ '.' :: rest)

theorem IsVersion.cons {c : Char} {cs : List Char} (hc : c.isDigit = true) (h : IsVersion cs) :
    IsVersion (c :: cs) := by
  cases h with
  | group _ hdigits => exact .group nofun (List.forall_mem_cons.2 ⟨hc, hdigits⟩)
  | @dot digits rest _ hdigits hrest =>
      exact .dot (List.cons_ne_nil c digits) (List.forall_mem_cons.2 ⟨hc, hdigits⟩) hrest

theorem IsVersion.ne_nil {cs : List Char} (h : IsVersion cs) : cs ≠ [] := by
  cases h with
  | group hne => exact hne
  | dot hne => exact List.append_ne_nil_of_left_ne_nil hne _

theorem IsVersion.digit_or_dot {cs : List Char} (h : IsVersion cs) : ∀ c ∈ cs, (c.isDigit || c == '.') = true := by
  induction h with
  | group _ hdigits => exact fun c hc => by rw [hdigits c hc, Bool.true_or]
  | dot _ hdigits _ ih =>
      rw [List.forall_mem_append, List.forall_mem_cons]
      exact ⟨fun c hc => by rw [hdigits c hc, Bool.true_or], rfl, ih⟩

theorem IsVersion.isDigit_head {cs : List Char} (h : IsVersion cs) : ∀ c ∈ cs.head?, c.isDigit = true := by
  cases h with
  | group _ hdigits => exact fun c hc => hdigits c (List.mem_of_head? hc)
  | dot hne hdigits _ =>
      rw [List.head?_append_of_ne_nil _ hne]
      exact fun c hc => hdigits c (List.mem_of_head? hc)

theorem ne_dot_of_isDigit {c : Char} (h : c.isDigit = true) : c ≠ '.' := by
  rintro rfl
  cases h

theorem isVersion_cons {c : Char} {cs : List Char} (hc : c.isDigit = true) (h : isVersion cs = true) :
    isVersion (c :: cs) = true := by
  cases cs with
  | nil => cases h
  | cons d cs =>
      have hd : d ≠ '.' := by
        rintro rfl
        cases cs <;> cases h
      simp [isVersion, ne_dot_of_isDigit hc, hd, hc, h]

/-- Digits in front of what is a version, alone or with a dot behind them. -/
theorem isVersion_append {digits rest : List Char} (hdigits : ∀ c ∈ digits, c.isDigit = true)
    (h : isVersion rest = true) : isVersion (digits ++ rest) = true := by
  induction digits with
  | nil => exact h
  | cons c digits ih =>
      rw [List.forall_mem_cons] at hdigits
      exact isVersion_cons hdigits.1 (ih hdigits.2)

theorem isVersion_iff {cs : List Char} : isVersion cs = true ↔ IsVersion cs := by
  constructor
  · fun_induction isVersion cs with
    | case1 => rintro ⟨⟩
    | case2 c => exact fun h => .group nofun (by simpa using h)
    | case3 => rintro ⟨⟩
    | case4 c rest _ ih =>
        intro h
        rw [Bool.and_eq_true] at h
        exact .dot (List.cons_ne_nil c []) (by simpa using h.1) (ih h.2)
    | case5 c rest _ _ _ ih =>
        intro h
        rw [Bool.and_eq_true] at h
        exact (ih h.2).cons h.1
  · intro h
    induction h with
    | @group digits hne hdigits =>
        obtain ⟨front, c, rfl⟩ := (List.eq_nil_or_concat digits).resolve_left hne
        rw [List.concat_eq_append] at *
        rw [List.forall_mem_append, List.forall_mem_singleton] at hdigits
        exact isVersion_append hdigits.1 hdigits.2
    | @dot digits rest hne hdigits _ ih =>
        obtain ⟨front, c, rfl⟩ := (List.eq_nil_or_concat digits).resolve_left hne
        rw [List.concat_eq_append] at *
        rw [List.forall_mem_append, List.forall_mem_singleton] at hdigits
        have hlast : isVersion (c :: '.' :: rest) = true := by
          simp [isVersion, ne_dot_of_isDigit hdigits.2, hdigits.2, ih]
        rw [List.append_assoc]
        exact isVersion_append hdigits.1 hlast

theorem version_eq_some_iff {cs found behind : List Char} :
    version? cs = some (found, behind) ↔
      cs = found ++ behind ∧ IsVersion found ∧ ∀ c ∈ behind.head?, (c.isDigit || c == '.') = false := by
  simp only [version?, Option.bind_eq_bind, Option.bind_eq_some_iff, Prod.exists, run_eq_some_iff,
    Option.ite_none_right_eq_some, Option.some.injEq, Prod.mk.injEq, isVersion_iff]
  constructor
  · rintro ⟨_, _, ⟨rfl, -, hbehind⟩, hfound, rfl, rfl⟩
    exact ⟨rfl, hfound, hbehind⟩
  · rintro ⟨rfl, hfound, hbehind⟩
    refine ⟨_, _, ⟨rfl, ⟨hfound.ne_nil, hfound.digit_or_dot⟩, hbehind⟩, hfound, rfl, rfl⟩

/-- The text of a descriptor of these parts, with `gap` in front of the version. -/
def write (info : AutomationInfo) (gap : String) : String :=
  "\x7b" ++ info.typeLib ++ "\x7d" ++ gap ++ info.version ++ ":\x7b" ++ info.classId ++ "\x7d:'" ++ info.library ++
    "'." ++ info.className

theorem toList_write (info : AutomationInfo) (gap : String) :
    (info.write gap).toList =
      '\x7b' :: (info.typeLib.toList ++ '\x7d' :: (gap.toList ++ (info.version.toList ++ ':' ::
        '\x7b' :: (info.classId.toList ++ '\x7d' :: ':' ::
          '\'' :: (info.library.toList ++ '\'' :: '.' :: info.className.toList))))) := by
  simp [write]

/-- The text is a descriptor of these parts, with white space in front of the version. -/
structure Spells (info : AutomationInfo) (gap text : String) : Prop where
  typeLib_guid : IsGuid info.typeLib.toList
  gap_blank : gap.toList ≠ [] ∧ ∀ c ∈ gap.toList, isBlank c = true
  version_groups : IsVersion info.version.toList
  classId_guid : IsGuid info.classId.toList
  library_plain : '\'' ∉ info.library.toList
  className_line : info.className.toList ≠ [] ∧ '\n' ∉ info.className.toList
  text_eq : text = info.write gap

theorem isBlank_of_isDigit {c : Char} (h : c.isDigit = true) : isBlank c = false := by
  rw [Bool.eq_false_iff]
  intro hblank
  rw [not_isDigit_of_isBlank hblank] at h
  cases h

/-- The descriptor that is found is the one that is written there. -/
theorem ofString_eq_ok_iff {s : String} {info : AutomationInfo} :
    ofString s = .ok info ↔ ∃ gap, info.Spells gap (trimmed s) := by
  have hchars : ofString s = .ok info ↔ ofChars? s.toList = some info := by
    unfold ofString
    cases ofChars? s.toList <;> simp
  rw [hchars]
  simp only [ofChars?, Option.bind_eq_bind, Option.bind_eq_some_iff, Prod.exists, afterChar_eq_some_iff,
    splitAtChar_eq_some_iff, run_eq_some_iff, guid_eq_some_iff, version_eq_some_iff, Option.ite_none_left_eq_some,
    Option.some.injEq]
  have hline : ∀ cs : List Char, ¬ (cs.isEmpty || cs.contains '\n') = true ↔ cs ≠ [] ∧ '\n' ∉ cs := by
    intro cs
    simp
  simp only [hline]
  constructor
  · rintro ⟨typeLib, _, ⟨htext, htypeLib⟩, gap, _, ⟨rfl, hgap, -⟩, version, _, ⟨rfl, hversion, -⟩, _, rfl, classId, _,
      ⟨rfl, hclassId⟩, _, rfl, _, rfl, library, _, ⟨rfl, hlibrary⟩, className, rfl, hclassName, rfl⟩
    refine ⟨String.ofList gap, ?_, ?_, ?_, ?_, ?_, ?_, ?_⟩
    case refine_7 =>
      rw [← String.toList_inj, toList_write, trimmed, htext]
      simp only [String.toList_ofList]
    all_goals simpa only [String.toList_ofList]
  · rintro ⟨gap, h⟩
    have htext : trim s.toList = (info.write gap).toList := by
      rw [← h.text_eq, trimmed, String.toList_ofList]
    rw [toList_write] at htext
    refine ⟨_, _, ⟨htext, h.typeLib_guid⟩, _, _, ⟨rfl, h.gap_blank, ?behindGap⟩, _, _,
      ⟨rfl, h.version_groups, ?behindVersion⟩, _, rfl, _, _, ⟨rfl, h.classId_guid⟩, _, rfl, _, rfl, _, _,
      ⟨rfl, h.library_plain⟩, _, rfl, h.className_line, ?parts⟩
    case behindGap =>
      rw [List.head?_append_of_ne_nil _ h.version_groups.ne_nil]
      exact fun c hc => isBlank_of_isDigit (h.version_groups.isDigit_head c hc)
    case behindVersion =>
      rintro _ ⟨⟩
      rfl
    case parts => simp only [String.ofList_toList]

theorem Spells.unique {s : String} {info info' : AutomationInfo} {gap gap' : String} (h : info.Spells gap (trimmed s))
    (h' : info'.Spells gap' (trimmed s)) : info' = info ∧ gap' = gap := by
  have hfound : Except.ok info' = Except.ok info :=
    (ofString_eq_ok_iff.2 ⟨gap', h'⟩).symm.trans (ofString_eq_ok_iff.2 ⟨gap, h⟩)
  obtain rfl := Except.ok.inj hfound
  have htext := congrArg String.toList (h'.text_eq.symm.trans h.text_eq)
  rw [toList_write, toList_write, List.cons_inj_right, List.append_cancel_left_eq, List.cons_inj_right,
    List.append_cancel_right_eq, String.toList_inj] at htext
  exact ⟨rfl, htext⟩

theorem getLast_write {info : AutomationInfo} (h : info.className.toList ≠ []) (gap : String) :
    (info.write gap).toList.getLast? = info.className.toList.getLast? := by
  rw [AutomationInfo.write, String.toList_append, List.getLast?_append_of_ne_nil _ h]

/-- What was found can be written with any white space in front of the version. -/
theorem Spells.write {s : String} {info : AutomationInfo} {gap gap' : String} (h : info.Spells gap (trimmed s))
    (hgap : gap'.toList ≠ [] ∧ ∀ c ∈ gap'.toList, isBlank c = true) : info.Spells gap' (trimmed (info.write gap')) := by
  have hbare : Bare (info.write gap').toList := by
    refine ⟨?_, ?_⟩
    · rw [toList_write]
      rintro _ ⟨⟩
      rfl
    · rw [getLast_write h.className_line.1, ← getLast_write h.className_line.1 gap, ← h.text_eq, trimmed,
        String.toList_ofList]
      exact getLast_trim s.toList
  refine ⟨h.typeLib_guid, hgap, h.version_groups, h.classId_guid, h.library_plain, h.className_line, ?_⟩
  rw [trimmed, trim_of_bare hbare, String.ofList_toList]

/-- A descriptor is decoded to the parts it is written with, whatever the text. Without white space around it the text
is an identifier in braces, white space, a version, a colon, another identifier in braces, a colon, a library in
apostrophes, a dot and a class name, in one way only, and these parts are found; or it is no such text, and it is
malformed. What is found and written with one blank is found again. -/
theorem automation_decoded_exactly (s : String) :
    (∀ info, ofString s = .ok info ↔ ∃ gap, info.Spells gap (trimmed s)) ∧
      ((¬ ∃ info gap, Spells info gap (trimmed s)) → ofString s = .error .malformedAutomation) ∧
      (∀ info gap info' gap', Spells info gap (trimmed s) → Spells info' gap' (trimmed s) →
        info' = info ∧ gap' = gap) ∧
      ∀ info, ofString s = .ok info → ofString (info.write " ") = .ok info := by
  refine ⟨fun info => ofString_eq_ok_iff, ?malformed, fun info gap info' gap' => Spells.unique, ?again⟩
  case malformed =>
    intro hnone
    cases hfound : ofChars? s.toList with
    | none => rw [ofString, hfound]
    | some info => exact absurd ⟨info, ofString_eq_ok_iff.1 (by rw [ofString, hfound])⟩ hnone
  case again =>
    intro info hfound
    obtain ⟨gap, h⟩ := ofString_eq_ok_iff.1 hfound
    exact ofString_eq_ok_iff.2 ⟨" ", h.write ⟨by decide, List.all_eq_true.1 (by decide)⟩⟩

def hostShell : AutomationInfo := ⟨"F935-20", "1.0", "0d43", "Host: 1.0", "Shell'.:\x7b1\x7d"⟩

theorem automation_decoded_exactly_separators :
    hostShell.Spells "\t " (trimmed " \x7bF935-20\x7d\t 1.0:\x7b0d43\x7d:'Host: 1.0'.Shell'.:\x7b1\x7d\n") ∧
      ofString " \x7bF935-20\x7d\t 1.0:\x7b0d43\x7d:'Host: 1.0'.Shell'.:\x7b1\x7d\n" = .ok hostShell ∧
      ofString (hostShell.write " ") = .ok hostShell := by
  obtain ⟨hfound, -, -, hagain⟩ :=
    automation_decoded_exactly " \x7bF935-20\x7d\t 1.0:\x7b0d43\x7d:'Host: 1.0'.Shell'.:\x7b1\x7d\n"
  have hspells : hostShell.Spells "\t "
      (trimmed " \x7bF935-20\x7d\t 1.0:\x7b0d43\x7d:'Host: 1.0'.Shell'.:\x7b1\x7d\n") := by
    refine ⟨isGuid_iff.1 (by decide), ⟨by decide, List.all_eq_true.1 (by decide)⟩, isVersion_iff.1 (by decide),
      isGuid_iff.1 (by decide), by decide, by decide, ?text⟩
    case text =>
      rw [← String.toList_inj, toList_write, trimmed, String.toList_ofList]
      decide
  have hok := (hfound _).2 ⟨_, hspells⟩
  exact ⟨hspells, hok, hagain _ hok⟩

end AutomationInfo

end CalExport
