import CalExport.Proofs.Kinship.Object
import CalExport.Proofs.LetterCase.Leaf

namespace CalExport

open Text

/-- The analysis with every text of its tree and of its reports changed. -/
def Analysis.mapText (f : String → String) (a : Analysis) : Analysis :=
  { a with
    document := a.document.mapText f
    diagnostics := a.diagnostics.map (Diagnostic.mapText f)
    skipped := a.skipped.map (SkippedRegion.mapText f) }

structure Token.Respells (t t' : Token) : Prop where
  kind_eq : t'.kind = t.kind
  span_eq : t'.span = t.span
  text_eq : lowerAscii t.text = lowerAscii t'.text
  plain : t.kind.isLetterless = true → t'.text = t.text

namespace Token.Respells

variable {t t' : Token}

theorem value_eq (h : t.Respells t') : lowerAscii t.value = lowerAscii t'.value := by
  have hlower : t'.lower = t.lower := by
    rw [Token.lower, h.kind_eq, h.span_eq, ← h.text_eq, Token.lower]
  rw [← value_lower, ← value_lower, hlower]

theorem fragment_eq {a a' : String} (h : lowerAscii a = lowerAscii a') :
    lowerAscii (fragment a) = lowerAscii (fragment a') := by
  rw [← fragment_lowerAscii, ← fragment_lowerAscii, h]

theorem description_eq (h : t.Respells t') : lowerAscii t.description = lowerAscii t'.description := by
  have hlength : t'.value.length = t.value.length := by
    rw [← length_lowerAscii, ← h.value_eq, length_lowerAscii]
  unfold description
  rw [h.kind_eq]
  cases hkind : t.kind with
  | identifier | quotedIdentifier => simp only [lowerAscii_append, fragment_eq h.value_eq]
  | integer | decimal | date | time | dateTime => simp only [lowerAscii_append, fragment_eq h.text_eq]
  | string => rw [hlength]
  | unknown => rw [h.plain (by rw [hkind]; rfl)]
  | _ => rfl

theorem blank_eq (h : t.Respells t') : t'.text.toList.all isBlank = t.text.toList.all isBlank := by
  rw [← all_isBlank_lowered, ← toList_lowerAscii, ← h.text_eq, toList_lowerAscii, all_isBlank_lowered]

end Token.Respells

/-- What commutes with making letters small is the same with small letters, in either spelling. -/
theorem under_lowerAscii {α : Type} {read : String → α} {f : α → α} (h : ∀ a, read (lowerAscii a) = f (read a))
    {a a' : String} (ha : Under lowerAscii a a') : Under f (read a) (read a') := by
  rw [Under, ← h, ← h, ha]

/-- What is blind to letter case. -/
theorem eq_of_lowerAscii {α : Type} {read : String → α} (h : ∀ a, read (lowerAscii a) = read a) {a a' : String}
    (ha : Under lowerAscii a a') : read a' = read a := by
  rw [← h, ← ha, h]

def Kinship.ignoringCase : Kinship where
  akin := Token.Respells
  word := lowerAscii
  text := lowerAscii
  akin_refl _ := ⟨rfl, rfl, rfl, fun _ => rfl⟩
  kind_eq := Token.Respells.kind_eq
  span_eq := Token.Respells.span_eq
  text_word h _ := h.text_eq
  value_word h _ := h.value_eq
  text_text := Token.Respells.text_eq
  value_text := Token.Respells.value_eq
  number h hkind := h.plain (by rcases hkind with hkind | hkind <;> rw [hkind] <;> rfl)
  description := Token.Respells.description_eq
  blank := isEmpty_joinTokens Token.Respells.blank_eq
  word_append h h' := by rw [Under, lowerAscii_append, lowerAscii_append, h, h']
  word_clean := under_lowerAscii Diagnostic.clean_lowerAscii
  word_isEmpty := eq_of_lowerAscii isEmpty_lowerAscii
  text_of_word h := h
  text_append h h' := by rw [Under, lowerAscii_append, lowerAscii_append, h, h']
  text_trimmed := under_lowerAscii trimmed_lowerAscii
  text_withoutSuffix n := under_lowerAscii (Rule.withoutSuffix_lowerAscii n)
  splitSize h := by
    obtain ⟨hbase, hsize⟩ := Prod.mk.inj (under_lowerAscii (f := Prod.map lowerAscii id) Rule.splitSize_lowerAscii h)
    exact ⟨hbase, hsize.symm⟩
  modifier := eq_of_lowerAscii foreignModifier?_lowerAscii
  trigger := eq_of_lowerAscii isKnownTrigger_lowerAscii
  dotNet := under_lowerAscii DotNetInfo.ofString_lowerAscii
  automation := under_lowerAscii AutomationInfo.ofString_lowerAscii

theorem respells_of_map {ts ts' : List Token} (hplain : ∀ t ∈ ts, t.IsPlain) (hplain' : ∀ t ∈ ts', t.IsPlain)
    (h : ts'.map Token.lower = ts.map Token.lower) : List.Forall₂ Token.Respells ts ts' := by
  induction ts generalizing ts' with
  | nil =>
      obtain rfl : ts' = [] := List.map_eq_nil_iff.1 h
      exact .nil
  | cons t ts ih =>
      obtain ⟨t', rest', rfl, ht, hrest⟩ := List.map_eq_cons_iff.1 h
      simp only [List.mem_cons, forall_eq_or_imp] at hplain hplain'
      obtain ⟨hkind, htext, hspan⟩ := Token.mk.inj ht
      refine .cons ⟨hkind, hspan, htext.symm, fun hletterless => ?_⟩ (ih hplain.2 hplain'.2 hrest)
      rw [← hplain.1 hletterless, ← htext, hplain'.1 (hkind ▸ hletterless)]

theorem near_ignoringCase (preferences : ParserPreferences) {lexed lexed' : Lexer} (hplain : lexed.Plain)
    (hplain' : lexed'.Plain) (h : lexed'.lower = lexed.lower) :
    Kinship.ignoringCase.Near { Parser.ofTokens lexed.tokens preferences with events := lexed.events }
      { Parser.ofTokens lexed'.tokens preferences with events := lexed'.events } := by
  obtain ⟨-, -, htokens, -, hevents⟩ := Lexer.mk.inj h
  have hrespells : List.Forall₂ Token.Respells lexed.tokens.toList lexed'.tokens.toList := by
    apply respells_of_map (fun t ht => hplain t (by simpa using ht)) (fun t ht => hplain' t (by simpa using ht))
    simpa using congrArg Array.toList htokens
  obtain ⟨hseen, heof⟩ := Kinship.akin_ofTokens (K := Kinship.ignoringCase) hrespells
  refine ⟨⟨hseen, heof, fun i _ => ?_, rfl, rfl⟩, rfl, rfl, rfl, rfl, rfl, ?_⟩
  · exact (Kinship.akin_tokenAt hseen heof (i + 1)).value_eq
  · rw [hevents]

/-- Letter case is not seen: reading fails on both sources or on none, the tokens have the same kinds and places and the
same counts, and the trees and all that is told of them differ in the case of letters only. -/
theorem letter_case_unseen (preferences : ParserPreferences) {source source' : String}
    (h : lowerAscii source' = lowerAscii source) :
    (tokenize source').map (Prod.map (Array.map Token.lower) id) =
        (tokenize source).map (Prod.map (Array.map Token.lower) id) ∧
      (analyse preferences source').1.map (Analysis.mapText lowerAscii) =
        (analyse preferences source).1.map (Analysis.mapText lowerAscii) ∧
      (analyse preferences source').2.map (Event.mapText lowerAscii) =
        (analyse preferences source).2.map (Event.mapText lowerAscii) := by
  have hread : ((Lexer.read source').1.lower, (Lexer.read source').2) =
      ((Lexer.read source).1.lower, (Lexer.read source).2) := by
    rw [← Lexer.read_lowerAscii, ← Lexer.read_lowerAscii, h]
  unfold tokenize analyse
  rcases hlexed : Lexer.read source with ⟨lexed, stop⟩
  rcases hlexed' : Lexer.read source' with ⟨lexed', stop'⟩
  rw [hlexed, hlexed'] at hread
  obtain ⟨hlower, rfl⟩ := Prod.mk.inj hread
  obtain ⟨-, -, htokens, hmetrics, hevents⟩ := Lexer.mk.inj hlower
  cases stop' with
  | some e => exact ⟨rfl, rfl, congrArg _ hevents⟩
  | none =>
      have hnear := near_ignoringCase preferences (Lexer.plain_read hlexed) (Lexer.plain_read hlexed') hlower
      obtain ⟨hdocument, hafter⟩ := Rule.keeps_wholeDocument _ _ hnear
      refine ⟨congrArg Except.ok (Prod.ext htokens hmetrics), congrArg Except.ok ?_, hafter.events.symm⟩
      have hdiagnostics := congrArg Array.toList hafter.diagnostics.symm
      have hskipped := congrArg Array.toList hafter.skipped.symm
      have hcount := congrArg Array.size htokens
      simp only [Array.toList_map, Array.size_map] at hdiagnostics hskipped hcount
      rw [Analysis.mapText, Analysis.mapText, Analysis.mk.injEq]
      exact ⟨hdocument.symm, hdiagnostics, hskipped, hcount, hmetrics⟩

/-- A table with a field, in two spellings: the length in the type of the field is read in both. -/
theorem letter_case_unseen_table :
    (analyse {} "object TABLE 1 a\x7bFields\x7b\x7b1;;b;CODE20\x7d\x7d\x7d").1.map (Analysis.mapText lowerAscii) =
        (analyse {} "OBJECT Table 1 A\x7bFIELDS\x7b\x7b1;;B;Code20\x7d\x7d\x7d").1.map (Analysis.mapText lowerAscii) ∧
      ((analyse {} "OBJECT Table 1 A\x7bFIELDS\x7b\x7b1;;B;Code20\x7d\x7d\x7d").1.toOption.bind fun a =>
        a.document.object.map fun o => o.fields.map fun f => (f.name, f.dataType.length)) = some [("B", some 20)] := by
  have h : lowerAscii "object TABLE 1 a\x7bFields\x7b\x7b1;;b;CODE20\x7d\x7d\x7d" =
      lowerAscii "OBJECT Table 1 A\x7bFIELDS\x7b\x7b1;;B;Code20\x7d\x7d\x7d" := by
    rw [← String.toList_inj, toList_lowerAscii, toList_lowerAscii]
    decide +kernel
  exact ⟨(letter_case_unseen {} h).2.1, by decide +kernel⟩

end CalExport
