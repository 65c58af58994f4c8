import CalExport.Object.Rule
import CalExport.Proofs.Kinship.Tree
import CalExport.Proofs.Simulation.Rule
import Mathlib.Data.List.Forall2
import Mathlib.Data.List.TakeWhile

namespace CalExport

open Text

def Diagnostic.mapText (f : String → String) (d : Diagnostic) : Diagnostic := { d with message := f d.message }

def SkippedRegion.mapText (f : String → String) (region : SkippedRegion) : SkippedRegion :=
  { region with text := f region.text }

/-- The event with the values of its context changed. -/
def Event.mapText (f : String → String) (e : Event) : Event :=
  { e with context := e.context.map fun (key, value) => (key, f value) }

theorem Event.mapText_set (f : String → String) (e : Event) (key value : String) :
    (e.set key value).mapText f = (e.mapText f).set key (f value) := by
  have hinsert : ∀ context : List (String × String),
      (Event.insertContext key value context).map (fun (key, value) => (key, f value)) =
        Event.insertContext key (f value) (context.map fun (key, value) => (key, f value)) := by
    intro context
    induction context with
    | nil => rfl
    | cons entry context ih =>
        simp only [Event.insertContext, List.map_cons]
        split
        · rfl
        · split
          · rfl
          · rw [List.map_cons, ih]
  exact congrArg (fun context => { e with context }) (hinsert e.context)

def Kind.describes : Kind → Bool
  | .keyword .dotNet | .keyword .automation => true
  | _ => false

/-- How far the texts of two runs may differ. What is left of a word or a message by `word` is the same in both, and of
any text what is left by `text`, which is less. -/
structure Kinship where
  akin : Token → Token → Prop
  word : String → String
  text : String → String
  akin_refl (t) : akin t t
  kind_eq {t t'} : akin t t' → t'.kind = t.kind
  span_eq {t t'} : akin t t' → t'.span = t.span
  text_word {t t'} : akin t t' → t.kind ≠ .string → Under word t.text t'.text
  value_word {t t'} : akin t t' → t.kind ≠ .string → Under word t.value t'.value
  text_text {t t'} : akin t t' → Under text t.text t'.text
  value_text {t t'} : akin t t' → Under text t.value t'.value
  number {t t'} : akin t t' → t.kind = .integer ∨ t.kind = .decimal → t'.text = t.text
  description {t t'} : akin t t' → Under word t.description t'.description
  /-- Whether a column is empty. -/
  blank {ts ts'} : List.Forall₂ akin ts ts' →
    (trimmed (joinTokens ts')).isEmpty = (trimmed (joinTokens ts)).isEmpty
  word_append {a a' b b'} : Under word a a' → Under word b b' → Under word (a ++ b) (a' ++ b')
  word_clean {a a'} : Under word a a' → Under word (Diagnostic.clean a) (Diagnostic.clean a')
  word_isEmpty {a a'} : Under word a a' → a'.isEmpty = a.isEmpty
  text_of_word {a a'} : Under word a a' → Under text a a'
  text_append {a a' b b'} : Under text a a' → Under text b b' → Under text (a ++ b) (a' ++ b')
  text_trimmed {a a'} : Under text a a' → Under text (trimmed a) (trimmed a')
  text_withoutSuffix {a a'} (n) : Under text a a' → Under text (Rule.withoutSuffix n a) (Rule.withoutSuffix n a')
  splitSize {a a'} : Under word a a' →
    Under word (Rule.splitSize a).1 (Rule.splitSize a').1 ∧ (Rule.splitSize a').2 = (Rule.splitSize a).2
  modifier {a a'} : Under word a a' → foreignModifier? a' = foreignModifier? a
  trigger {a a'} : Under word a a' → isKnownTrigger a' = isKnownTrigger a
  dotNet {a a'} : Under word a a' →
    Under (Except.map (DotNetInfo.mapText text)) (DotNetInfo.ofString a) (DotNetInfo.ofString a')
  automation {a a'} : Under word a a' →
    Under (Except.map (AutomationInfo.mapText text)) (AutomationInfo.ofString a) (AutomationInfo.ofString a')

theorem Cursor.peek_next {c : Cursor} (h : c.atEnd = false) : c.next.peek = c.tokenAt (c.position + 1) := by
  simp only [peek, tokenAt, tokens_next, eof_next, position_next h]

/-- Texts joined at the same gaps. -/
theorem joinTokens_under {f : String → String}
    (happend : ∀ {a a' b b'}, Under f a a' → Under f b b' → Under f (a ++ b) (a' ++ b')) {ts ts' : List Token}
    (h : List.Forall₂ (fun t t' => t'.span = t.span ∧ Under f t.text t'.text) ts ts') :
    Under f (joinTokens ts) (joinTokens ts') := by
  cases h with
  | nil => rfl
  | @cons t t' rest rest' ht hrest =>
      show Under f (joinTokens.go t.text t rest) (joinTokens.go t'.text t' rest')
      obtain ⟨hspan, htext⟩ := ht
      generalize t.text = text at htext
      generalize t'.text = text' at htext
      induction hrest generalizing t t' text text' with
      | nil => exact htext
      | @cons u u' rest rest' hu _ ih =>
          have hfollows : u'.follows t' = u.follows t := by
            simp only [Token.follows, hspan, hu.1]
          unfold joinTokens.go
          rw [hfollows]
          apply ih hu.1
          split
          · exact happend htext hu.2
          · exact happend (happend htext rfl) hu.2

theorem trim_eq_nil_iff {cs : List Char} : trim cs = [] ↔ ∀ c ∈ cs, isBlank c = true := by
  have hright : ∀ cs : List Char, trimRight cs = [] ↔ ∀ c ∈ cs, isBlank c = true := by
    intro cs
    simp [trimRight, List.dropWhile_eq_nil_iff]
  rw [trim, hright, trimLeft]
  refine ⟨?_, fun h c hc => h c (List.dropWhile_subset _ hc)⟩
  intro h
  have hnil : cs.dropWhile isBlank = [] := by
    by_contra hne
    have hhead := List.head_dropWhile_not isBlank hne
    rw [h _ (List.head_mem hne)] at hhead
    cases hhead
  exact List.dropWhile_eq_nil_iff.1 hnil

theorem isEmpty_trimmed (text : String) : (trimmed text).isEmpty = text.toList.all isBlank := by
  rw [Bool.eq_iff_iff, List.all_eq_true, ← trim_eq_nil_iff, trimmed]
  simp

theorem blank_joinTokens (ts : List Token) :
    (joinTokens ts).toList.all isBlank = ts.all fun t => t.text.toList.all isBlank := by
  have hgo : ∀ (rest : List Token) (text : String) (previous : Token),
      (joinTokens.go text previous rest).toList.all isBlank =
        (text.toList.all isBlank && rest.all fun t => t.text.toList.all isBlank) := by
    intro rest
    induction rest with
    | nil => simp [joinTokens.go]
    | cons t rest ih =>
        intro text previous
        have hspace : isBlank ' ' = true := by decide
        rw [joinTokens.go, ih, List.all_cons]
        split <;> simp [hspace, Bool.and_assoc]
  cases ts with
  | nil => rfl
  | cons t rest => rw [joinTokens, hgo, List.all_cons]

/-- Whether a column is empty hangs on which of its tokens hold nothing but blanks. -/
theorem isEmpty_joinTokens {akin : Token → Token → Prop}
    (h : ∀ {t t'}, akin t t' → t'.text.toList.all isBlank = t.text.toList.all isBlank) {ts ts' : List Token}
    (hts : List.Forall₂ akin ts ts') : (trimmed (joinTokens ts')).isEmpty = (trimmed (joinTokens ts)).isEmpty := by
  rw [isEmpty_trimmed, isEmpty_trimmed, blank_joinTokens, blank_joinTokens]
  induction hts with
  | nil => rfl
  | cons ht _ ih => rw [List.all_cons, List.all_cons, h ht, ih]

namespace Kinship

variable (K : Kinship)

structure Beside (c c' : Cursor) : Prop where
  tokens : List.Forall₂ K.akin c.tokens.toList c'.tokens.toList
  eof : K.akin c.eof c'.eof
  /-- A descriptor is a word, even in a string. -/
  described : ∀ i, (c.tokenAt i).kind.describes = true →
    Under K.word (c.tokenAt (i + 1)).value (c'.tokenAt (i + 1)).value
  position : c'.position = c.position
  braceDepth : c'.braceDepth = c.braceDepth

/-- States of two runs that have come as far as each other and recorded the same. -/
structure Near (s s' : Parser) : Prop where
  cursor : K.Beside s.toCursor s'.toCursor
  nesting : s'.nesting = s.nesting
  capped : s'.capped = s.capped
  preferences : s'.preferences = s.preferences
  diagnostics : Under (Array.map (Diagnostic.mapText K.word)) s.diagnostics s'.diagnostics
  skipped : Under (Array.map (SkippedRegion.mapText K.text)) s.skipped s'.skipped
  events : Under (Array.map (Event.mapText K.word)) s.events s'.events

structure Blames (e e' : Fault) : Prop where
  code : e'.code = e.code
  span : e'.span = e.span
  message : Under K.word e.message e'.message

def Outcome {α : Type} (r : α → α → Prop) : Except Fault α → Except Fault α → Prop
  | .ok a, .ok b => r a b
  | .error e, .error e' => K.Blames e e'
  | _, _ => False

def Round {α : Type} (r : α → α → Prop) : ForInStep α → ForInStep α → Prop
  | .yield a, .yield b => r a b
  | .done a, .done b => r a b
  | _, _ => False

variable {K}

theorem Blames.refl (e : Fault) : K.Blames e e := ⟨rfl, rfl, rfl⟩

theorem join_text {ts ts' : List Token} (h : List.Forall₂ K.akin ts ts') :
    Under K.text (joinTokens ts) (joinTokens ts') :=
  joinTokens_under K.text_append (h.imp fun _ _ ht => ⟨K.span_eq ht, K.text_text ht⟩)

theorem akin_tokenAt {c c' : Cursor} (htokens : List.Forall₂ K.akin c.tokens.toList c'.tokens.toList)
    (heof : K.akin c.eof c'.eof) (i : Nat) : K.akin (c.tokenAt i) (c'.tokenAt i) := by
  have hsize : c'.tokens.size = c.tokens.size := by simpa using htokens.length_eq.symm
  unfold Cursor.tokenAt
  by_cases hi : i < c.tokens.size
  · rw [Array.getElem?_eq_getElem hi, Array.getElem?_eq_getElem (hsize ▸ hi)]
    simpa using htokens.get (i := i) (by simpa using hi) (by simpa [hsize] using hi)
  · rw [Array.getElem?_eq_none (by omega), Array.getElem?_eq_none (by omega)]
    exact heof

namespace Beside

variable {c c' : Cursor} (h : K.Beside c c')

include h

theorem size : c'.tokens.size = c.tokens.size := by
  simpa using h.tokens.length_eq.symm

theorem tokenAt (i : Nat) : K.akin (c.tokenAt i) (c'.tokenAt i) := akin_tokenAt h.tokens h.eof i

theorem peekAhead (n : Nat) : K.akin (c.peekAhead n) (c'.peekAhead n) := by
  unfold Cursor.peekAhead
  rw [h.position]
  exact h.tokenAt _

theorem peek : K.akin c.peek c'.peek := h.peekAhead 0

theorem kind_peek : c'.peek.kind = c.peek.kind := K.kind_eq h.peek

theorem kind_peekAhead (n : Nat) : (c'.peekAhead n).kind = (c.peekAhead n).kind := K.kind_eq (h.peekAhead n)

theorem check (κ : Kind) : c'.check κ = c.check κ := by
  rw [Cursor.check, Cursor.check, h.kind_peek]

theorem checkNext (κ : Kind) : c'.checkNext κ = c.checkNext κ := by
  rw [Cursor.checkNext, Cursor.checkNext, h.kind_peekAhead]

theorem atEnd : c'.atEnd = c.atEnd := by
  rw [Cursor.atEnd, Cursor.atEnd, h.size, h.position]

theorem left : c'.left = c.left := by
  rw [Cursor.left, Cursor.left, h.size, h.position]

theorem previous : K.akin c.previous c'.previous := by
  unfold Cursor.previous
  rw [h.position]
  split
  · exact h.peek
  · exact h.tokenAt _

theorem spanFrom (start : Nat) : c'.spanFrom start = c.spanFrom start := by
  unfold Cursor.spanFrom
  rw [h.position, K.span_eq h.peek, K.span_eq (h.tokenAt start), K.span_eq h.previous]

theorem tokensBetween (start stop : Nat) :
    List.Forall₂ K.akin (c.tokensBetween start stop) (c'.tokensBetween start stop) := by
  unfold Cursor.tokensBetween
  rw [Array.toList_extract, Array.toList_extract]
  exact List.forall₂_take _ (List.forall₂_drop _ h.tokens)

theorem next : K.Beside c.next c'.next := by
  have hend := h.atEnd
  cases hc : c.atEnd with
  | true =>
      rw [hc] at hend
      simpa only [Cursor.next, hc, hend, dite_true] using h
  | false =>
      rw [hc] at hend
      refine ⟨?_, ?_, ?_, ?_, ?_⟩
      · simpa using h.tokens
      · simpa using h.eof
      · simpa [Cursor.tokenAt] using h.described
      · rw [Cursor.position_next hc, Cursor.position_next hend, h.position]
      · rw [Cursor.braceDepth_next hc, Cursor.braceDepth_next hend, h.braceDepth, h.kind_peek]

end Beside

theorem map_span {ts ts' : List Token} (h : List.Forall₂ K.akin ts ts') : ts'.map Token.span = ts.map Token.span := by
  induction h with
  | nil => rfl
  | cons ht _ ih => rw [List.map_cons, List.map_cons, K.span_eq ht, ih]

/-- The end of the input stands behind the last token in both runs. -/
theorem akin_ofTokens {tokens tokens' : Array Token} (h : List.Forall₂ K.akin tokens.toList tokens'.toList) :
    List.Forall₂ K.akin (Cursor.ofTokens tokens).tokens.toList (Cursor.ofTokens tokens').tokens.toList ∧
      K.akin (Cursor.ofTokens tokens).eof (Cursor.ofTokens tokens').eof := by
  have hseen : List.Forall₂ K.akin (Cursor.ofTokens tokens).tokens.toList (Cursor.ofTokens tokens').tokens.toList := by
    simp only [Cursor.ofTokens, Array.toList_filter]
    refine List.rel_filter (fun t t' ht => ?_) h
    simp only [K.kind_eq ht]
  have hspans : ∀ {ts ts' : Array Token}, List.Forall₂ K.akin ts.toList ts'.toList →
      ts'.back?.map Token.span = ts.back?.map Token.span := by
    intro ts ts' hts
    rw [← Array.getLast?_toList, ← Array.getLast?_toList, ← List.getLast?_map, ← List.getLast?_map, map_span hts]
  have heof : (Cursor.ofTokens tokens').eof = (Cursor.ofTokens tokens).eof := by
    have hlast := hspans hseen
    simp only [Cursor.ofTokens] at hlast ⊢
    simp only [Option.orElse_eq_orElse, Option.orElse_eq_or, Option.map_or, hlast, hspans h]
  exact ⟨hseen, heof ▸ K.akin_refl _⟩

end Kinship

namespace Rule

variable {α β : Type} {K : Kinship} {r : α → α → Prop} {q : β → β → Prop}

/-- Two steps end near each other, with related results, wherever they start near each other. -/
def Keeps (K : Kinship) (r : α → α → Prop) (x y : Parse α) : Prop :=
  ∀ s s', K.Near s s' → r (x s).1 (y s').1 ∧ K.Near (x s).2 (y s').2

/-- The same for rules. -/
def RuleKeeps (K : Kinship) (r : α → α → Prop) (x y : Rule α) : Prop :=
  Keeps K (K.Outcome r) (attempt x) (attempt y)

namespace Keeps

variable {x y : Parse α} {f g : α → Parse β}

theorem pure {a b : α} (h : r a b) : Keeps K r (pure a) (pure b) := fun _ _ hs => ⟨h, hs⟩

theorem mono {p : α → α → Prop} (h : Keeps K p x y) (hp : ∀ a b, p a b → r a b) : Keeps K r x y := by
  intro s s' hs
  obtain ⟨hresult, hnear⟩ := h s s' hs
  exact ⟨hp _ _ hresult, hnear⟩

theorem bind (hx : Keeps K r x y) (hf : ∀ a b, r a b → Keeps K q (f a) (g b)) : Keeps K q (x >>= f) (y >>= g) := by
  intro s s' hs
  obtain ⟨hresult, hnear⟩ := hx s s' hs
  exact hf _ _ hresult _ _ hnear

/-- A first step with the same result in both runs. -/
theorem bind_eq (hx : Keeps K Eq x y) (hf : ∀ a, Keeps K q (f a) (g a)) : Keeps K q (x >>= f) (y >>= g) := by
  apply hx.bind
  rintro a _ rfl
  exact hf a

theorem map (hx : Keeps K r x y) {h h' : α → β} (hq : ∀ a b, r a b → q (h a) (h' b)) :
    Keeps K q (h <$> x) (h' <$> y) := by
  intro s s' hs
  obtain ⟨hresult, hnear⟩ := hx s s' hs
  exact ⟨hq _ _ hresult, hnear⟩

theorem look {h h' : Parser → α} (hlook : ∀ s s', K.Near s s' → r (h s) (h' s')) :
    Keeps K r (Rule.look h) (Rule.look h') := fun s s' hs => ⟨hlook s s' hs, hs⟩

end Keeps

theorem keeps_peek : Keeps K K.akin peek peek := Keeps.look fun _ _ hs => hs.cursor.peek

theorem keeps_peekKind : Keeps K Eq peekKind peekKind := Keeps.look fun _ _ hs => hs.cursor.kind_peek.symm

theorem keeps_check (κ : Kind) : Keeps K Eq (check κ) (check κ) := Keeps.look fun _ _ hs => (hs.cursor.check κ).symm

theorem keeps_atEnd : Keeps K Eq atEnd atEnd := Keeps.look fun _ _ hs => hs.cursor.atEnd.symm

theorem keeps_here : Keeps K Eq here here := Keeps.look fun _ _ hs => hs.cursor.position.symm

theorem keeps_passedSince (start : Nat) : Keeps K Eq (passedSince start) (passedSince start) :=
  Keeps.look fun _ _ hs => congrArg (· - start) hs.cursor.position.symm

theorem keeps_depth : Keeps K Eq depth depth := Keeps.look fun _ _ hs => hs.cursor.braceDepth.symm

theorem keeps_openBeyond (base : Nat) : Keeps K Eq (openBeyond base) (openBeyond base) :=
  Keeps.look fun _ _ hs => congrArg (· - base) hs.cursor.braceDepth.symm

theorem keeps_spanFrom (start : Nat) : Keeps K Eq (spanFrom start) (spanFrom start) :=
  Keeps.look fun _ _ hs => (hs.cursor.spanFrom start).symm

/-- A test that sees the same of both runs. -/
theorem keeps_test {c : Parser → Bool} (h : ∀ s s', K.Near s s' → c s' = c s) : Keeps K Eq (test c) (test c) :=
  Keeps.look fun s s' hs => (h s s' hs).symm

theorem keeps_advance : Keeps K K.akin advance advance := by
  intro s s' hs
  exact ⟨hs.cursor.peek, hs.cursor.next, hs.nesting, hs.capped, hs.preferences, hs.diagnostics, hs.skipped, hs.events⟩

theorem keeps_accept (κ : Kind) : Keeps K Eq (accept κ) (accept κ) := by
  intro s s' hs
  rw [accept_apply, accept_apply, hs.cursor.kind_peek]
  split
  · exact ⟨rfl, (keeps_advance s s' hs).2⟩
  · exact ⟨rfl, hs⟩

theorem keeps_advanceBy (n : Nat) : Keeps K (List.Forall₂ K.akin) (advanceBy n) (advanceBy n) := by
  induction n with
  | zero => exact Keeps.pure .nil
  | succ n ih =>
      refine keeps_advance.bind fun t t' ht => ?_
      refine ih.bind fun ts ts' hts => ?_
      exact Keeps.pure (.cons ht hts)

theorem size_eq {γ : Type} {f : α → γ} {a b : Array α} (h : Under (Array.map f) a b) : b.size = a.size := by
  simpa using (congrArg Array.size h).symm

theorem under_push {γ : Type} {f : α → γ} {as bs : Array α} {a b : α} (has : Under (Array.map f) as bs)
    (ha : Under f a b) : Under (Array.map f) (as.push a) (bs.push b) := by
  show (as.push a).map f = (bs.push b).map f
  rw [Array.map_push, Array.map_push, has, ha]

theorem under_toList {γ : Type} {f : α → γ} {as bs : Array α} (h : Under (Array.map f) as bs) :
    Under (List.map f) as.toList bs.toList := by
  simpa using congrArg Array.toList h

theorem keeps_note {e e' : Event} (h : Under (Event.mapText K.word) e e') : Keeps K Eq (note e) (note e') := by
  intro s s' hs
  exact ⟨rfl, hs.cursor, hs.nesting, hs.capped, hs.preferences, hs.diagnostics, hs.skipped, under_push hs.events h⟩

theorem keeps_record {d d' : Diagnostic} (hcode : d'.code = d.code) (hspan : d'.span = d.span)
    (hmessage : Under K.word d.message d'.message) : Keeps K Eq (record d) (record d') := by
  intro s s' hs
  have hd : Under (Diagnostic.mapText K.word) d d' := by
    rw [Under, Diagnostic.mapText, Diagnostic.mapText, hcode, hspan, hmessage]
  unfold record
  rw [size_eq hs.diagnostics, hs.capped, hcode, hspan]
  split
  · exact ⟨rfl, hs.cursor, hs.nesting, rfl, hs.preferences, under_push hs.diagnostics hd, hs.skipped,
      under_push hs.events rfl⟩
  · split
    · exact ⟨rfl, hs⟩
    · exact ⟨rfl, hs.cursor, hs.nesting, rfl, hs.preferences, under_push hs.diagnostics rfl, hs.skipped,
        under_push hs.events rfl⟩

theorem keeps_report {e e' : Fault} (h : K.Blames e e') : Keeps K Eq (report e) (report e') :=
  keeps_record h.code h.span (K.word_clean h.message)

theorem recordSkipped_apply (start : Nat) (reason : String) (s : Parser) :
    recordSkipped start reason s =
      if s.position ≤ start then ((), s)
      else ((), { s with
        skipped := if s.preferences.recordSkipped then s.skipped.push
            ⟨s.spanFrom start, reason, s.position - start, joinTokens (s.tokensBetween start s.position)⟩
          else s.skipped
        events := if s.preferences.logRecovery then s.events.push
            (((Event.debug "Skipped tokens").set "reason" reason).set "tokens" (toString (s.position - start)))
          else s.events }) := by
  unfold recordSkipped
  cases s.preferences.logRecovery <;> cases hrecord : s.preferences.recordSkipped <;>
    simp [hrecord]

theorem keeps_recordSkipped (start : Nat) (reason : String) :
    Keeps K Eq (recordSkipped start reason) (recordSkipped start reason) := by
  intro s s' hs
  have hregion : Under (SkippedRegion.mapText K.text)
      ⟨s.spanFrom start, reason, s.position - start, joinTokens (s.tokensBetween start s.position)⟩
      ⟨s'.spanFrom start, reason, s.position - start, joinTokens (s'.tokensBetween start s.position)⟩ := by
    rw [Under, SkippedRegion.mapText, SkippedRegion.mapText, hs.cursor.spanFrom,
      Kinship.join_text (hs.cursor.tokensBetween start s.position)]
  rw [recordSkipped_apply, recordSkipped_apply, hs.cursor.position, hs.preferences]
  split
  · exact ⟨rfl, hs⟩
  · refine ⟨rfl, hs.cursor, hs.nesting, hs.capped, rfl, hs.diagnostics, ?_, ?_⟩
    · dsimp only
      split
      · exact under_push hs.skipped hregion
      · exact hs.skipped
    · dsimp only
      split
      · exact under_push hs.events rfl
      · exact hs.events

end Rule

end CalExport
