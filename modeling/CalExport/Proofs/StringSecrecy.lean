import CalExport.Proofs.Kinship.Object

namespace CalExport

open Text

structure Masked (t t' : Token) : Prop where
  kind : t.kind = .string
  kind_eq : t'.kind = t.kind
  span_eq : t'.span = t.span
  length_eq : t'.value.length = t.value.length
  quoted : t.text.toList.head? = some '\''
  quoted' : t'.text.toList.head? = some '\''

def Token.inFront (t : Token) (before : Kind) : Kind := if t.kind = .eof then before else t.kind

/-- Tokens that are the same but for the contents of strings. A string directly behind `DotNet` or `Automation` is the
same. `before` is the kind of the token in front of them. -/
inductive SameButStrings : Kind → List Token → List Token → Prop
  | nil {before} : SameButStrings before [] []
  | same {before t ts ts'} : SameButStrings (t.inFront before) ts ts' → SameButStrings before (t :: ts) (t :: ts')
  | masked {before t t' ts ts'} : before.describes = false → Masked t t' → SameButStrings .string ts ts' →
    SameButStrings before (t :: ts) (t' :: ts')

namespace Token

def Hides (t t' : Token) : Prop := t' = t ∨ Masked t t'

namespace Hides

variable {t t' : Token}

theorem kind_eq (h : t.Hides t') : t'.kind = t.kind := by
  rcases h with rfl | h
  · rfl
  · exact h.kind_eq

theorem span_eq (h : t.Hides t') : t'.span = t.span := by
  rcases h with rfl | h
  · rfl
  · exact h.span_eq

theorem eq_of_ne_string (h : t.Hides t') (hkind : t.kind ≠ .string) : t' = t := by
  rcases h with rfl | h
  · rfl
  · exact absurd h.kind hkind

/-- Of a string only the length is told. -/
theorem description_eq (h : t.Hides t') : t'.description = t.description := by
  rcases h with rfl | h
  · rfl
  · unfold Token.description
    rw [h.kind_eq, h.kind, h.length_eq]

/-- A string is never blank: it begins with an apostrophe. -/
theorem blank_eq (h : t.Hides t') : t'.text.toList.all isBlank = t.text.toList.all isBlank := by
  have hquoted : ∀ cs : List Char, cs.head? = some '\'' → cs.all isBlank = false := by
    intro cs hcs
    obtain ⟨rest, rfl⟩ := List.head?_eq_some_iff.1 hcs
    rw [List.all_cons, show isBlank '\'' = false by decide, Bool.false_and]
  rcases h with rfl | h
  · rfl
  · rw [hquoted _ h.quoted, hquoted _ h.quoted']

end Hides

end Token

def Kinship.hidingStrings : Kinship where
  akin := Token.Hides
  word := id
  text _ := ""
  akin_refl _ := .inl rfl
  kind_eq := Token.Hides.kind_eq
  span_eq := Token.Hides.span_eq
  text_word h hkind := by rw [h.eq_of_ne_string hkind]
  value_word h hkind := by rw [h.eq_of_ne_string hkind]
  text_text _ := rfl
  value_text _ := rfl
  number h hkind := by rw [h.eq_of_ne_string (by rcases hkind with hkind | hkind <;> rw [hkind] <;> rintro ⟨⟩)]
  description h := h.description_eq.symm
  blank := isEmpty_joinTokens Token.Hides.blank_eq
  word_append h h' := congrArg₂ (· ++ ·) h h'
  word_clean h := congrArg Diagnostic.clean h
  word_isEmpty h := congrArg String.isEmpty h.symm
  text_of_word _ := rfl
  text_append _ _ := rfl
  text_trimmed _ := rfl
  text_withoutSuffix _ _ := rfl
  splitSize h := ⟨congrArg (fun a => (Rule.splitSize a).1) h, congrArg (fun a => (Rule.splitSize a).2) h.symm⟩
  modifier h := congrArg foreignModifier? h.symm
  trigger h := congrArg isKnownTrigger h.symm
  dotNet h := congrArg (fun a => (DotNetInfo.ofString a).map _) h
  automation h := congrArg (fun a => (AutomationInfo.ofString a).map _) h

namespace SameButStrings

variable {before : Kind} {ts ts' : List Token}

theorem hides (h : SameButStrings before ts ts') : List.Forall₂ Token.Hides ts ts' := by
  induction h with
  | nil => exact .nil
  | same _ ih => exact .cons (.inl rfl) ih
  | masked _ hmasked _ ih => exact .cons (.inr hmasked) ih

abbrev seen (ts : List Token) : List Token := ts.filter fun t => t.kind ≠ .eof

/-- What may be said of tokens with one of the given kind in front: behind a word that a descriptor follows they are the
same. -/
structure Behind (before : Kind) (us us' : List Token) : Prop where
  first : before.describes = true → us'.head? = us.head?
  later : ∀ i u, us[i]? = some u → u.kind.describes = true → us'[i + 1]? = us[i + 1]?

theorem Behind.cons {us us' : List Token} {t t' : Token} (h : Behind t.kind us us')
    (hfirst : before.describes = true → t' = t) : Behind before (t :: us) (t' :: us') := by
  refine ⟨fun hbefore => congrArg some (hfirst hbefore), ?_⟩
  intro i u hu hdescribes
  cases i with
  | zero =>
      obtain rfl : t = u := by simpa using hu
      simpa [List.head?_eq_getElem?] using h.first hdescribes
  | succ i => simpa using h.later i u (by simpa using hu) hdescribes

theorem behind (h : SameButStrings before ts ts') : Behind before (seen ts) (seen ts') := by
  induction h with
  | nil => exact ⟨fun _ => rfl, fun _ _ _ _ => rfl⟩
  | @same before t ts ts' _ ih =>
      by_cases hkind : t.kind = .eof
      · rw [Token.inFront, if_pos hkind] at ih
        simpa [seen, hkind] using ih
      · rw [Token.inFront, if_neg hkind] at ih
        simpa [seen, hkind] using ih.cons fun _ => rfl
  | @masked before t t' ts ts' hbefore hmasked _ ih =>
      rw [← hmasked.kind] at ih
      have hkind : t.kind ≠ .eof := by
        rw [hmasked.kind]
        rintro ⟨⟩
      have hfirst : before.describes = true → t' = t := fun h => absurd (hbefore.symm.trans h) Bool.false_ne_true
      have hbehind := ih.cons hfirst
      simpa [seen, hkind, hmasked.kind_eq] using hbehind

end SameButStrings

open SameButStrings (seen) in
theorem SameButStrings.near (preferences : ParserPreferences) {tokens tokens' : Array Token}
    (h : SameButStrings .eof tokens.toList tokens'.toList) :
    Kinship.hidingStrings.Near (Parser.ofTokens tokens preferences) (Parser.ofTokens tokens' preferences) := by
  obtain ⟨htokens, heof⟩ := Kinship.akin_ofTokens (K := Kinship.hidingStrings) h.hides
  refine ⟨⟨htokens, heof, ?_, rfl, rfl⟩, rfl, rfl, rfl, rfl, rfl, rfl⟩
  intro i (hdescribes : ((Cursor.ofTokens tokens).tokenAt i).kind.describes = true)
  show Under id ((Cursor.ofTokens tokens).tokenAt (i + 1)).value ((Cursor.ofTokens tokens').tokenAt (i + 1)).value
  have hseen : ∀ (ts : Array Token) (j : Nat), (Cursor.ofTokens ts).tokens[j]? = (seen ts.toList)[j]? := by
    intro ts j
    rw [← Array.getElem?_toList, seen, ← Array.toList_filter]
    rfl
  cases hi : (seen tokens.toList)[i]? with
  | none =>
      rw [Cursor.tokenAt, hseen, hi, Option.getD_none, Cursor.kind_eof] at hdescribes
      cases hdescribes
  | some t =>
      rw [Cursor.tokenAt, hseen, hi, Option.getD_some] at hdescribes
      have hnext := h.behind.later i t hi hdescribes
      rw [Cursor.tokenAt, Cursor.tokenAt, hseen, hseen, hnext]
      cases (seen tokens.toList)[i + 1]? <;> rfl

/-- The diagnostics, the stretches passed over and the events say nothing of what stands in a string. -/
theorem Rule.strings_untold (preferences : ParserPreferences) {tokens tokens' : Array Token}
    (h : SameButStrings .eof tokens.toList tokens'.toList) :
    let told := (wholeDocument (Parser.ofTokens tokens preferences)).2
    let told' := (wholeDocument (Parser.ofTokens tokens' preferences)).2
    told'.diagnostics = told.diagnostics ∧
      told'.skipped.map (fun region => (region.span, region.reason, region.tokenCount)) =
        told.skipped.map (fun region => (region.span, region.reason, region.tokenCount)) ∧
      told'.events = told.events := by
  obtain ⟨-, hnear⟩ := keeps_wholeDocument _ _ (h.near preferences)
  refine ⟨?_, ?_, ?_⟩
  · have hword : Diagnostic.mapText Kinship.hidingStrings.word = id := rfl
    simpa only [hword, Under, Array.map_id] using hnear.diagnostics.symm
  · have hskipped := congrArg (Array.map fun region : SkippedRegion => (region.span, region.reason, region.tokenCount))
      hnear.skipped.symm
    simpa only [Array.map_map, Function.comp_def, SkippedRegion.mapText] using hskipped
  · have hword : Event.mapText Kinship.hidingStrings.word = id := by
      funext e
      exact congrArg (fun context => { e with context }) (List.map_id e.context)
    simpa only [hword, Under, Array.map_id] using hnear.events.symm

instance (t t' : Token) : Decidable (Masked t t') :=
  decidable_of_iff (t.kind = .string ∧ t'.kind = t.kind ∧ t'.span = t.span ∧ t'.value.length = t.value.length ∧
      t.text.toList.head? = some '\'' ∧ t'.text.toList.head? = some '\'')
    ⟨fun ⟨hkind, hkind', hspan, hlength, hquoted, hquoted'⟩ => ⟨hkind, hkind', hspan, hlength, hquoted, hquoted'⟩,
      fun ⟨hkind, hkind', hspan, hlength, hquoted, hquoted'⟩ => ⟨hkind, hkind', hspan, hlength, hquoted, hquoted'⟩⟩

theorem sameButStrings_cons {before : Kind} {t t' : Token} {ts ts' : List Token} :
    SameButStrings before (t :: ts) (t' :: ts') ↔ t' = t ∧ SameButStrings (t.inFront before) ts ts' ∨
      before.describes = false ∧ Masked t t' ∧ SameButStrings .string ts ts' := by
  constructor
  · intro h
    cases h with
    | same h => exact .inl ⟨rfl, h⟩
    | masked hbefore hmasked h => exact .inr ⟨hbefore, hmasked, h⟩
  · rintro (⟨rfl, h⟩ | ⟨hbefore, hmasked, h⟩)
    · exact .same h
    · exact .masked hbefore hmasked h

instance decidableSameButStrings : ∀ before ts ts', Decidable (SameButStrings before ts ts')
  | _, [], [] => isTrue .nil
  | _, [], _ :: _ => isFalse nofun
  | _, _ :: _, [] => isFalse nofun
  | before, t :: ts, _ :: ts' =>
      have := decidableSameButStrings (t.inFront before) ts ts'
      have := decidableSameButStrings .string ts ts'
      decidable_of_iff _ sameButStrings_cons.symm

/-- A string as the value of a property, as the name of a procedure and as the label of a CASE branch. The string behind
`DotNet` is always the same. -/
def secretTable (secret : String) : Array Token :=
  (Lexer.read ("OBJECT Table 1 T\x7bPROPERTIES\x7bCaption=" ++ secret ++ ";\x7d" ++
    "CODE\x7bVAR x : DotNet '''mscorlib''.System.Text';PROCEDURE " ++ secret ++ "();BEGIN END;" ++
    "PROCEDURE P();BEGIN CASE x OF " ++ secret ++ ": ; END; END;\x7d\x7d")).1.tokens

theorem Rule.strings_untold_ann_bob :
    (wholeDocument (Parser.ofTokens (secretTable "'ann'") {})).2.diagnostics.toList.map Diagnostic.message =
        ["Expected procedure name, found string literal (3 chars)"] ∧
      (wholeDocument (Parser.ofTokens (secretTable "'bob'") {})).2.diagnostics =
        (wholeDocument (Parser.ofTokens (secretTable "'ann'") {})).2.diagnostics := by
  have h : SameButStrings .eof (secretTable "'ann'").toList (secretTable "'bob'").toList := by decide +kernel
  exact ⟨by decide +kernel, (strings_untold {} h).1⟩

end CalExport
