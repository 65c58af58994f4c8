import CalExport.Proofs.Statement.RoundTrip
import CalExport.Proofs.SyntaxTree
import CalExport.Proofs.Window.Common
import CalExport.Analysis

namespace CalExport.Rule

open Statement

variable {α : Type} {n : Nat} {t : Token} {w toks more : List Token} {ss : List Statement} {p : α → Prop}

theorem withRecovery_passes (recovery : List Kind) {x : Rule α} (h : RulePasses n x w more p) :
    Passes n (withRecovery recovery x) w more fun found => ∃ a, found = some a ∧ p a := by
  apply Passes.bind_nil (p := fun _ => True) (Passes.look fun _ _ => trivial)
  rintro base -
  apply Passes.bind_nil Passes.here
  rintro start -
  apply Passes.bind_last (Passes.attempt h)
  rintro (fault | a) ha
  · exact ha.elim
  · exact Passes.pure ⟨a, rfl, ha⟩

theorem integer_passes (hkind : t.kind = .integer) (hvalue : digitsValue t.text ≤ 0x7fffffffffffffff) :
    RulePasses n integer [t] more fun _ => True := by
  apply RulePasses.accept_none
  · rw [List.singleton_append, nextKind, hkind]
    rintro ⟨⟩
  · apply RulePasses.expect hkind
    apply RulePasses.step_nil (p := fun _ => True)
    · rw [integerValue, boundedValue, if_pos hvalue]
      exact Passes.pure trivial
    · rintro value -
      exact RulePasses.pure trivial

theorem peekAhead_of_ahead {s : Parser} (h : ahead s = w ++ more) {i : Nat} (hi : i < w.length) :
    s.peekAhead i = w[i] := by
  rw [Cursor.peekAhead, Nat.add_comm]
  exact tokenAt_of_ahead h hi

def SameBody (ss : List Statement) (nodes : List SyntaxNode) : Prop :=
  ∃ found : List Statement, nodes = found.map .statement ∧ found.map unplaced = ss.map unplaced

section

variable {first opening closing : Token}

/-- One token in front of an equals sign. -/
theorem propertyName_passes {name equal : Token} (hname : endsPropertyName name.kind = false)
    (hequal : equal.kind = .equal) : RulePasses n propertyName [name] (equal :: more) fun _ => True := by
  have hlength : ∀ s, ahead s = [name] ++ equal :: more → propertyNameLength? s = some 1 := by
    intro s hs
    have hfirst : s.peekAhead 0 = name := peekAhead_of_ahead hs Nat.one_pos
    have hsecond : s.peekAhead 1 = equal := peekAhead_of_ahead (w := [name, equal]) hs Nat.one_lt_two
    have hends : endsPropertyName equal.kind = true := by rw [hequal]; rfl
    have hone : ∀ k, nameLength s (k + 1) = 1 := by
      intro k
      induction k with
      | zero => simp [nameLength, hfirst, hname]
      | succ k ih =>
          rw [nameLength, ih]
          refine if_neg ?_
          rintro ⟨hk, hgoes⟩
          rw [← hk, hsecond, hends] at hgoes
          cases hgoes
    simp [propertyNameLength?, maxPropertyNameTokens, hone, hsecond, hequal]
  apply RulePasses.step_nil (Passes.look (p := (· = some 1)) hlength)
  rintro _ rfl
  apply RulePasses.step (u := [name]) (v := []) (p := fun _ => True)
  · apply Passes.bind_last Passes.advance
    rintro _ rfl
    apply Passes.bind_nil (p := fun _ => True) (Passes.pure trivial)
    rintro _ -
    exact Passes.pure trivial
  · rintro _ -
    exact RulePasses.pure trivial

variable (hss : ∀ s ∈ ss, Readable s) (hshown : Shown toks (signsAll ss)) (hlevels : levelsAll ss ≤ n)
  (hopening : opening.kind = .keyword .begin_) (hclosing : closing.kind = .keyword .end_)

include hss hshown hlevels hopening hclosing

theorem body_passes : RulePasses n body (opening :: (toks ++ [closing])) more fun found =>
    found.map unplaced = ss.map unplaced := by
  apply RulePasses.of_levels (x := fun n => bodyWith (statementAt n))
  apply RulePasses.expect hopening
  apply RulePasses.step (v := [closing])
    (list_passes hss hshown hlevels (by rw [List.singleton_append, nextKind, hclosing]; rfl))
  intro found hfound
  apply RulePasses.expect hclosing
  exact RulePasses.pure hfound

theorem triggerBody_passes : RulePasses n triggerBody (opening :: (toks ++ [closing])) more fun found =>
    found.1 = [] ∧ found.2.map unplaced = ss.map unplaced := by
  have hvar : nextKind (opening :: (toks ++ [closing]) ++ more) ≠ .keyword .var := by
    rw [List.cons_append, nextKind, hopening]
    rintro ⟨⟩
  apply RulePasses.step_nil (p := (· = []))
  · apply Passes.bind_nil (w := []) (Passes.accept_none hvar)
    rintro _ rfl
    exact Passes.pure rfl
  · rintro _ rfl
    apply RulePasses.bind_last (body_passes hss hshown hlevels hopening hclosing)
    intro found hfound
    exact RulePasses.pure ⟨rfl, hfound⟩

/-- A BEGIN that ends its line makes a trigger of the value. -/
theorem propertyValue_passes (hline : ∀ t ∈ (toks ++ [closing]).head?, opening.span.stop.line < t.span.start.line) :
    RulePasses n propertyValue (opening :: (toks ++ [closing])) more fun value =>
      ∃ found : List Statement, value = .trigger [] found ∧ found.map unplaced = ss.map unplaced := by
  have hstarts : ∀ s, ahead s = opening :: (toks ++ [closing]) ++ more → triggerStarts s = true := by
    intro s hs
    obtain ⟨second, rest, hrest⟩ := List.exists_cons_of_ne_nil (List.append_ne_nil_of_right_ne_nil toks
      (List.cons_ne_nil closing []))
    rw [hrest] at hs hline
    replace hs : ahead s = [opening, second] ++ (rest ++ more) := hs
    have hsecond : s.peekAhead 1 = second := peekAhead_of_ahead hs Nat.one_lt_two
    simp [triggerStarts, peek_of_ahead hs, hopening, hsecond, hline second rfl]
  apply RulePasses.step_nil (Passes.look (p := (· = true)) hstarts)
  rintro _ rfl
  rw [if_pos rfl]
  apply RulePasses.bind_last (triggerBody_passes hss hshown hlevels hopening hclosing)
  rintro ⟨locals, found⟩ ⟨rfl, hfound⟩
  exact RulePasses.pure ⟨found, rfl, hfound⟩

/-- A property that is a trigger. -/
theorem triggerProperty_passes {name equal : Token} (hname : endsPropertyName name.kind = false)
    (hequal : equal.kind = .equal)
    (hline : ∀ t ∈ (toks ++ [closing]).head?, opening.span.stop.line < t.span.start.line)
    (hmore : nextKind more ≠ .semicolon) :
    RulePasses n property (name :: equal :: opening :: (toks ++ [closing])) more fun p => SameBody ss p.nodes := by
  apply RulePasses.here
  intro start
  apply RulePasses.bind (u := [name]) (propertyName_passes hname hequal)
  rintro text -
  apply RulePasses.expect hequal
  apply RulePasses.bind_last (propertyValue_passes hss hshown hlevels hopening hclosing hline)
  rintro _ ⟨found, rfl, hfound⟩
  apply RulePasses.spanFrom
  intro span
  apply RulePasses.accept_none (w := []) hmore
  exact RulePasses.pure ⟨found, rfl, hfound⟩

end

/-- A section with one property. -/
theorem propertiesSection_passes {q : Property → Prop} {keyword opening closing : Token}
    (hkeyword : keyword.kind = .keyword .properties) (hopening : opening.kind = .leftBrace)
    (hclosing : closing.kind = .rightBrace) (hfirst : endsPropertyName (nextKind w) = false)
    (h : RulePasses n property w (closing :: more) q) :
    RulePasses n propertiesSection (keyword :: opening :: (w ++ [closing])) more fun ps => ∃ p, ps = [p] ∧ q p := by
  have hround := (grammarLoop_progresses .properties).unrolls
  have hstart : nextKind w ≠ .eof ∧ nextKind w ≠ .rightBrace ∧ nextKind w ≠ .semicolon := by
    refine ⟨?_, ?_, ?_⟩ <;>
      · intro hkind
        rw [hkind] at hfirst
        cases hfirst
  have hone : Passes n (propertyRound #[]) w (closing :: more) (yieldAnd fun found => ∃ p, found = #[p] ∧ q p) := by
    apply Passes.bind_nil Passes.peekKind
    rintro _ rfl
    rw [nextKind_append hstart.1, if_neg (by simp [hstart]), if_neg hstart.2.2]
    apply Passes.bind_last (withRecovery_passes [.semicolon] h)
    rintro _ ⟨p, rfl, hp⟩
    exact Passes.pure ⟨p, rfl, hp⟩
  have hlist : Passes n propertyList w (closing :: more) fun ps => ∃ p, ps = [p] ∧ q p := by
    apply Passes.bind_last (p := fun found => ∃ p, found = #[p] ∧ q p)
    · rw [← List.append_nil w]
      apply Passes.loop_yield hround hone
      rintro found hfound
      apply Passes.loop_done hround
      apply Passes.bind_nil Passes.peekKind
      rintro _ rfl
      rw [List.nil_append, nextKind, hclosing, if_pos (.inr rfl)]
      exact Passes.pure hfound
    · rintro _ ⟨p, rfl, hp⟩
      exact Passes.pure ⟨p, rfl, hp⟩
  apply RulePasses.expect hkeyword
  apply RulePasses.expect hopening
  apply RulePasses.step (v := [closing]) hlist
  intro ps hps
  apply RulePasses.expect hclosing
  exact RulePasses.pure hps

/-- The sections of an object that has only properties. -/
theorem sections_passes {q : List Property → Prop} (depth : Nat) (hfirst : nextKind w = .keyword .properties)
    (hmore : nextKind more = .rightBrace) (h : RulePasses n propertiesSection w more q) :
    Passes n (sections depth) w more fun found => ∃ ps, found = [.properties ps] ∧ q ps := by
  have hround := (grammarLoop_progresses (.sections depth)).unrolls
  have hhead : ∀ s, ahead s = w ++ more → sectionHead? s = some .properties := by
    intro s hs
    have hkind : s.peek.kind = .keyword .properties := by
      rw [kind_peek, hs, nextKind_append (by rw [hfirst]; rintro ⟨⟩), hfirst]
    rw [sectionHead?, hkind]
  have hone : Passes n (sectionRound depth #[]) w more
      (yieldAnd fun found => ∃ ps, found = #[.properties ps] ∧ q ps) := by
    apply Passes.bind_nil (Passes.look (p := (· = some .properties)) hhead)
    rintro _ rfl
    apply Passes.bind_nil Passes.here
    rintro start -
    apply Passes.bind_last (Passes.attempt (RulePasses.map (q := fun sec => ∃ ps, sec = .properties ps ∧ q ps) h
      fun ps hps => ⟨ps, rfl, hps⟩))
    rintro (fault | sec) hsec
    · exact hsec.elim
    · obtain ⟨ps, rfl, hps⟩ := hsec
      exact Passes.pure ⟨ps, rfl, hps⟩
  apply Passes.bind_last (p := fun found => ∃ ps, found = #[.properties ps] ∧ q ps)
  · rw [← List.append_nil w]
    apply Passes.loop_yield hround hone
    rintro found hfound
    apply Passes.loop_done hround
    have hnone : ∀ s, ahead s = more → sectionHead? s = none := by
      intro s hs
      rw [sectionHead?, kind_peek, hs, hmore]
    apply Passes.bind_nil (w := []) (Passes.look (p := (· = none)) hnone)
    rintro _ rfl
    exact Passes.pure hfound
  · rintro _ ⟨ps, rfl, hps⟩
    exact Passes.pure ⟨ps, rfl, hps⟩

def triggerTokens (toks : List Token) : List Token :=
  atOrigin .identifier "OnInsert" :: atOrigin .equal "=" :: atOrigin (.keyword .begin_) "BEGIN" ::
    (toks ++ [atOrigin (.keyword .end_) "END"])

def sectionTokens (toks : List Token) : List Token :=
  atOrigin (.keyword .properties) "PROPERTIES" :: atOrigin .leftBrace "\x7b" ::
    (triggerTokens toks ++ [atOrigin .rightBrace "\x7d"])

def openTokens (toks : List Token) : List Token :=
  atOrigin (.keyword .object) "OBJECT" :: atOrigin (.keyword .table) "Table" :: atOrigin .integer "1" ::
    atOrigin .quotedIdentifier "\"T\"" :: atOrigin .leftBrace "\x7b" :: sectionTokens toks

/-- `OBJECT Table 1 "T" { PROPERTIES { OnInsert=BEGIN … END } }`. -/
def tableTokens (toks : List Token) : List Token := openTokens toks ++ [atOrigin .rightBrace "\x7d"]

theorem quotedName_passes (hmore : nextKind more = .leftBrace) :
    Passes n reportedName [atOrigin .quotedIdentifier "\"T\""] more fun _ => True := by
  have hquoted : ∀ s, ahead s = atOrigin .quotedIdentifier "\"T\"" :: more → quotedBefore .leftBrace s = true := by
    intro s hs
    simp [quotedBefore, Cursor.check, Cursor.checkNext, peek_of_ahead hs, kind_peekAhead_one hs, hmore, atOrigin]
  have hname : Passes n objectName [atOrigin .quotedIdentifier "\"T\""] more (· = "T") := by
    apply Passes.bind_nil (Passes.look (p := (· = true)) hquoted)
    rintro _ rfl
    apply Passes.bind_last Passes.advance
    rintro _ rfl
    exact Passes.pure rfl
  apply Passes.bind_last hname
  rintro _ rfl
  exact Passes.pure trivial

variable (hss : ∀ s ∈ ss, Readable s) (hshown : Shown toks (signsAll ss)) (hlevels : levelsAll ss ≤ n)
  (hline : ∀ t ∈ (toks ++ [atOrigin (.keyword .end_) "END"]).head?, 1 < t.span.start.line)

include hss hshown hlevels hline

theorem object_passes : RulePasses n object (tableTokens toks) [] fun o => SameBody ss o.nodes := by
  have hsection : RulePasses n propertiesSection (sectionTokens toks) [atOrigin .rightBrace "\x7d"] fun ps =>
      ∃ p, ps = [p] ∧ SameBody ss p.nodes := by
    apply propertiesSection_passes rfl rfl rfl rfl
    exact triggerProperty_passes hss hshown hlevels rfl rfl rfl rfl hline (by rintro ⟨⟩)
  have hbody : RulePasses n objectBody (openTokens toks) [atOrigin .rightBrace "\x7d"] fun value =>
      ∀ span, SameBody ss (value span).nodes := by
    show RulePasses n objectBody (_ :: ([atOrigin (.keyword .table) "Table"] ++ ([atOrigin .integer "1"] ++
      ([atOrigin .quotedIdentifier "\"T\""] ++ (atOrigin .leftBrace "\x7b" :: sectionTokens toks))))) _ _
    apply RulePasses.expect rfl
    apply RulePasses.bind (p := fun _ => True)
    · apply RulePasses.peek
      apply RulePasses.advance
      exact RulePasses.pure trivial
    rintro kind -
    apply RulePasses.bind (integer_passes rfl (by decide))
    rintro id -
    apply RulePasses.step (p := fun _ => True) (quotedName_passes rfl)
    rintro name -
    apply RulePasses.expect rfl
    apply RulePasses.step_nil (p := fun _ => True) (Passes.look fun _ _ => trivial)
    rintro depth -
    apply RulePasses.bind_last (RulePasses.lift (sections_passes depth rfl rfl hsection))
    rintro _ ⟨_, rfl, p, rfl, hp⟩
    refine RulePasses.pure fun span => ?_
    have hnodes : (ExportObject.ofSections kind id name [.properties [p]] span).nodes = p.nodes := by
      simp [ExportObject.nodes, ExportObject.ofSections, ObjectSection.joinCode, ObjectSection.properties?,
        ObjectSection.fields?, ObjectSection.keys?, ObjectSection.globals?, ObjectSection.code?]
    rw [hnodes]
    exact hp
  have hclosing : Passes n closingBrace [atOrigin .rightBrace "\x7d"] [] fun _ => True := by
    apply Passes.bind_last (Passes.accept (κ := .rightBrace) rfl)
    rintro _ rfl
    exact Passes.pure trivial
  apply RulePasses.here
  intro start
  apply RulePasses.bind hbody
  intro value hvalue
  apply RulePasses.bind_last (RulePasses.lift hclosing)
  rintro _ -
  apply RulePasses.spanFrom
  intro span
  exact RulePasses.pure (hvalue span)

theorem document_passes : Passes n document (tableTokens toks) [] fun d => SameBody ss d.nodes := by
  have hreported : Passes n reportedObject (tableTokens toks) [] fun found =>
      ∃ o, found = some o ∧ SameBody ss o.nodes := by
    apply Passes.bind_last (Passes.attempt (object_passes hss hshown hlevels hline))
    rintro (fault | o) ho
    · exact ho.elim
    · exact Passes.pure ⟨o, rfl, ho⟩
  have hend : ∀ s, ahead s = [] → s.atEnd = true := fun s hs => ahead_eq_nil_iff.1 hs
  have htrailing : Passes n skipTrailing [] [] fun _ => True := by
    apply Passes.bind_nil (w := []) (Passes.look (p := (· = true)) hend)
    rintro _ rfl
    exact Passes.pure trivial
  have hgo : ∀ s, ahead s = tableTokens toks ++ [] → s.atEnd = false := fun s hs => atEnd_of_ahead hs
  apply Passes.bind_nil Passes.here
  rintro start -
  apply Passes.bind_nil (Passes.look (p := (· = false)) hgo)
  rintro _ rfl
  apply Passes.bind_last hreported
  rintro _ ⟨o, rfl, ho⟩
  apply Passes.bind_nil (w := []) htrailing
  rintro _ -
  apply Passes.bind_nil (w := []) (Passes.spanFrom start)
  rintro span -
  refine Passes.pure ?_
  have hnodes : Document.nodes ⟨some o, span⟩ = o.nodes := by simp [Document.nodes]
  rw [hnodes]
  exact ho

omit hlevels in
/-- A table with statements in a trigger is read without a diagnostic, and they are its outermost nodes. -/
theorem wholeDocument_of_trigger (heof : ∀ t ∈ toks, t.kind ≠ .eof) (hlevels : levelsAll ss ≤ maxNesting)
    (preferences : ParserPreferences) :
    (wholeDocument (.ofTokens (tableTokens toks).toArray preferences)).2.diagnostics = #[] ∧
      SameBody ss (wholeDocument (.ofTokens (tableTokens toks).toArray preferences)).1.nodes := by
  have hkept : withoutEnd (tableTokens toks) = tableTokens toks := by
    have htoks : withoutEnd toks = toks := List.filter_eq_self.2 fun t ht => by simpa using heof t ht
    simp [tableTokens, openTokens, sectionTokens, triggerTokens, withoutEnd_cons, withoutEnd_append, htoks, atOrigin]
  obtain ⟨first, last, hrun⟩ := wholeDocument_apply (.ofTokens (tableTokens toks).toArray preferences)
  have hahead : ahead (note first (.ofTokens (tableTokens toks).toArray preferences)).2 = tableTokens toks ++ [] := by
    have hcursor : ahead (.ofTokens (tableTokens toks).toArray preferences) = tableTokens toks :=
      (ahead_ofTokens _).trans hkept
    rw [List.append_nil]
    exact (ahead_of_cursor rfl).trans hcursor
  obtain ⟨hnodes, hskip⟩ := document_passes hss hshown hlevels hline _ rfl hahead
  rw [hrun]
  refine ⟨?_, hnodes⟩
  show (document (note first (.ofTokens (tableTokens toks).toArray preferences)).2).2.diagnostics = #[]
  rw [hskip, diagnostics_skip]
  rfl

end CalExport.Rule
