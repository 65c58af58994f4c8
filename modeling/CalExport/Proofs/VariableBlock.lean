import CalExport.Proofs.DataType.Form
import CalExport.Proofs.Rounds
import CalExport.Proofs.Window.Alone

namespace CalExport

structure NumberText where
  atSign : Token
  sign : Option Token
  digits : Token
  kind_atSign : atSign.kind = .atSign
  kind_sign : ∀ t ∈ sign, t.kind = .minus
  kind_digits : digits.kind = .integer

namespace NumberText

def tokens (n : NumberText) : List Token := n.atSign :: (n.sign.toList ++ [n.digits])

def value (n : NumberText) : Int :=
  let magnitude : Int := Rule.digitsValue n.digits.text
  if n.sign.isSome then -magnitude else magnitude

theorem natAbs_value (n : NumberText) : n.value.natAbs = Rule.digitsValue n.digits.text := by
  unfold value
  split
  · exact Int.natAbs_neg _
  · rfl

end NumberText

inductive ModifierText
  | inDataSet (word : Token) (hword : word.kind = .keyword .inDataSet)
  | withEvents (word : Token) (hword : word.kind = .keyword .withEvents)
  | runOnClient (word : Token) (hword : word.kind = .keyword .runOnClient)
  | securityFiltering (word opening mode closing : Token) (hword : word.kind = .keyword .securityFiltering)
      (hopening : opening.kind = .leftParen) (hmode : mode.kind.canName = true) (hclosing : closing.kind = .rightParen)

namespace ModifierText

def tokens : ModifierText → List Token
  | inDataSet word _ | withEvents word _ | runOnClient word _ => [word]
  | securityFiltering word opening mode closing .. => [word, opening, mode, closing]

def apply : ModifierText → Variable → Variable
  | inDataSet .., v => { v with inDataSet := true }
  | withEvents .., v => { v with withEvents := true }
  | runOnClient .., v => { v with runOnClient := true }
  | securityFiltering _ _ mode .., v => { v with securityFiltering := some mode.value }

def mode? : ModifierText → Option Token
  | securityFiltering _ _ mode .. => some mode
  | _ => none

theorem apply_withSpan (m : ModifierText) (v : Variable) (span : Text.Span) :
    m.apply { v with span } = { m.apply v with span } := by
  cases m <;> rfl

end ModifierText

/-- `Name [@n] : [TEMPORARY] Type`, words behind it and a semicolon; alone the type is read to its end without a
diagnostic. -/
structure VariableText where
  name : Token
  number : Option NumberText
  colon : Token
  temporary : Option Token
  type : List Token
  dataType : DataType
  modifiers : List ModifierText
  semicolon : Token
  kind_colon : colon.kind = .colon
  kind_temporary : ∀ t ∈ temporary, t.kind = .keyword .temporary
  kind_semicolon : semicolon.kind = .semicolon
  accepted : ∃ e, Rule.dataType (Rule.aloneOn {} type) = (.ok dataType, e) ∧ e.atEnd = true ∧ e.diagnostics = #[]

namespace VariableText

variable (d : VariableText)

def numberTokens : List Token := (d.number.map NumberText.tokens).getD []

/-- What stands behind the name, up to the semicolon. -/
def rest : List Token :=
  d.numberTokens ++ d.colon :: (d.temporary.toList ++ (d.type ++ d.modifiers.flatMap ModifierText.tokens))

def tokens : List Token := d.name :: d.rest ++ [d.semicolon]

def legal : Bool := d.name.kind.canName

def bare : Variable where
  name := d.name.value
  id := d.number.map NumberText.value
  dataType := d.dataType
  temporary := d.temporary.isSome
  span := Rule.runSpan (d.name :: d.rest)

def misnamed : Bool := !d.legal

/-- What is reported of a name that is a reserved word. -/
def complaint : Diagnostic :=
  .make .reservedKeywordAsIdentifier
    ("Cannot use reserved keyword '" ++ (d.name.kind.keyword?.map Keyword.spelling).getD "" ++ "' as variable name")
    d.name.span

def declared : Variable := d.modifiers.foldl (fun v m => m.apply v) d.bare

end VariableText

namespace Rule

variable {n : Nat} {s t : Parser} {w l more : List Token}

theorem passes_integer {number : NumberText} (h : number.value.natAbs ≤ maxInteger) :
    RulePasses n integer (number.sign.toList ++ [number.digits]) more (· = number.value) := by
  rw [NumberText.natAbs_value] at h
  have hexcess : excess maxInteger number.digits = [] := if_pos h
  have hbounded : boundedNumber maxInteger number.digits = digitsValue number.digits.text := if_pos h
  apply Means.passes fun _ => integer_means
  intro _
  refine ⟨number.digits, number.kind_digits, hexcess.symm, ?_⟩
  cases hsign : number.sign with
  | none => exact .inl ⟨rfl, by simp [NumberText.value, hsign, hbounded]⟩
  | some sign =>
      exact .inr ⟨sign, number.kind_sign sign hsign, rfl, by simp [NumberText.value, hsign, hbounded]⟩

theorem passes_declaredName (role : String) {d : VariableText} (hname : d.legal = true)
    (hnumber : ∀ number ∈ d.number, number.value.natAbs ≤ maxInteger) (hmore : nextKind more ≠ .atSign) :
    RulePasses n (declaredName role) (d.name :: d.numberTokens) more
      (· = (d.name.value, d.number.map NumberText.value)) := by
  apply RulePasses.peek
  have hcan : d.name.kind.canName = true := hname
  rw [if_pos hcan]
  apply RulePasses.advance
  refine RulePasses.bind_last (p := (· = d.number.map NumberText.value)) ?_ ?_
  · unfold VariableText.numberTokens
    cases hsome : d.number with
    | none => exact RulePasses.accept_none hmore (RulePasses.pure rfl)
    | some number =>
        refine RulePasses.accept number.kind_atSign ?_
        exact RulePasses.bind_last (passes_integer (hnumber number hsome)) fun _ hvalue =>
          RulePasses.pure (hvalue ▸ rfl)
  · rintro _ rfl
    exact RulePasses.pure rfl

theorem passes_modifierRound (m : ModifierText) (v : Variable) :
    RulePasses n (modifierRound v) m.tokens more (yieldAnd (· = m.apply v)) := by
  apply RulePasses.peekKind
  cases m with
  | inDataSet word hword | withEvents word hword | runOnClient word hword =>
      have hnext : nextKind ([word] ++ more) = _ := hword
      rw [ModifierText.tokens, hnext]
      exact RulePasses.advance (RulePasses.pure rfl)
  | securityFiltering word opening mode closing hword hopening hmode hclosing =>
      have hnext : nextKind ([word, opening, mode, closing] ++ more) = _ := hword
      have hfiltering : RulePasses n filteringMode [opening, mode, closing] more (· = mode.value) := by
        refine RulePasses.expect hopening (RulePasses.peek ?_)
        rw [if_pos hmode]
        exact RulePasses.advance (RulePasses.expect hclosing (RulePasses.pure rfl))
      rw [ModifierText.tokens, hnext]
      refine RulePasses.advance (RulePasses.bind_last hfiltering ?_)
      rintro _ rfl
      exact RulePasses.pure rfl

theorem passes_modifiers (modifiers : List ModifierText) (v : Variable) (hmore : nextKind more = .semicolon) :
    RulePasses n (tryLoop v modifierRound) (modifiers.flatMap ModifierText.tokens) more
      (· = modifiers.foldl (fun v m => m.apply v) v) := by
  have hunrolls := (grammarTryLoop_progresses .modifiers).unrolls
  induction modifiers generalizing v with
  | nil =>
      apply RulePasses.tryLoop_done hunrolls
      apply RulePasses.peekKind
      rw [List.flatMap_nil, List.nil_append, hmore]
      exact RulePasses.pure rfl
  | cons m modifiers ih =>
      rw [List.flatMap_cons]
      apply RulePasses.tryLoop_yield hunrolls (passes_modifierRound m v)
      rintro _ rfl
      exact ih (m.apply v)

/-- A type that is accepted alone has a form. -/
theorem exists_form {type : DataType} {e : Parser} (hahead : ahead s = l ++ more)
    (hrun : dataType (aloneOn {} l) = (.ok type, e)) (hend : e.atEnd = true) (hclean : e.diagnostics = #[]) :
    TypeForm (aloneOn {} l).eof maxNesting l [] [] type := by
  have halone : ahead (aloneOn {} l) = l := ahead_aloneOn hahead
  obtain ⟨w, rest, faults, hw, rfl, hform⟩ := (dataType_means (aloneOn {} l) rfl rfl type e).1 hrun
  obtain rfl : rest = [] := by rwa [← ahead_eq_nil_iff, ahead_tell, ahead_skip hw] at hend
  obtain rfl := eq_nil_of_tell hclean
  rw [halone, List.append_nil] at hw
  obtain rfl := hw
  exact hform

def variableBody : Rule (Text.Span → Variable) := do
  let start ← here
  let (name, id) ← declaredName "variable name"
  let _ ← expect .colon
  let temporary ← accept (.keyword .temporary)
  let dataType ← dataType
  let declared : Variable := { name, id, dataType, temporary, span := ← spanFrom start }
  let modified ← tryLoop declared modifierRound
  return fun span => { modified with span }

theorem variableParts_eq : variableParts = spanned variableBody := by
  funext s
  have hhere : ∀ f : Nat → Rule Variable, (liftM here >>= f) s = f s.position s := fun _ => rfl
  simp only [variableParts, variableBody, spanned, bind_assoc, pure_bind]
  rw [hhere, hhere, hhere]

theorem foldl_withSpan (modifiers : List ModifierText) (v : Variable) (span : Text.Span) :
    modifiers.foldl (fun v m => m.apply v) { v with span } =
      { modifiers.foldl (fun v m => m.apply v) v with span } := by
  induction modifiers generalizing v with
  | nil => rfl
  | cons m modifiers ih => rw [List.foldl_cons, List.foldl_cons, ModifierText.apply_withSpan, ih]

theorem continuesType_modifiers (modifiers : List ModifierText) (hmore : nextKind more = .semicolon) :
    continuesType (nextKind (modifiers.flatMap ModifierText.tokens ++ more)) = false := by
  cases modifiers with
  | nil =>
      rw [List.flatMap_nil, List.nil_append, hmore]
      rfl
  | cons m modifiers =>
      have hword : ∀ {word : Token} {k : Keyword}, word.kind = .keyword k → continuesType word.kind = false :=
        fun h => by rw [h]; rfl
      cases m with
      | inDataSet word h | withEvents word h | runOnClient word h => exact hword h
      | securityFiltering word opening mode closing h => exact hword h

theorem passes_variableBody {d : VariableText} {e : Token} (hname : d.legal = true)
    (hnumber : ∀ number ∈ d.number, number.value.natAbs ≤ maxInteger)
    (hform : TypeForm e n d.type [] [] d.dataType) (hmore : nextKind more = .semicolon) :
    RulePasses n variableBody (d.name :: d.rest) more
      fun make => make (runSpan (d.name :: d.rest)) = d.declared := by
  have hcolon :
      nextKind (d.colon :: (d.temporary.toList ++ (d.type ++ d.modifiers.flatMap ModifierText.tokens)) ++ more) ≠
        .atSign := by
    rw [List.cons_append, nextKind, d.kind_colon]
    rintro ⟨⟩
  have hmodifiers := continuesType_modifiers d.modifiers hmore
  have htemporary : nextKind (d.type ++ d.modifiers.flatMap ModifierText.tokens ++ more) ≠ .keyword .temporary := by
    rw [List.append_assoc]
    exact nextKind_ne_temporary (hform.elsewhere e (Nat.le_refl n) hmodifiers)
  apply RulePasses.here
  intro start
  rw [VariableText.rest, ← List.cons_append]
  apply RulePasses.bind (passes_declaredName _ hname hnumber hcolon)
  rintro _ rfl
  refine RulePasses.expect d.kind_colon ?_
  apply RulePasses.bind (p := (· = d.temporary.isSome))
  · cases hsome : d.temporary with
    | none => exact RulePasses.lift (Passes.accept_none htemporary)
    | some k => exact RulePasses.lift (Passes.accept (d.kind_temporary k hsome))
  rintro _ rfl
  apply RulePasses.bind (hform.passes hmodifiers)
  rintro _ rfl
  apply RulePasses.spanFrom
  intro inner
  apply RulePasses.bind_last (passes_modifiers d.modifiers _ hmore)
  rintro _ rfl
  apply RulePasses.pure
  exact (foldl_withSpan d.modifiers _ _).symm

theorem passes_variableDeclaration {d : VariableText} {e : Token} (hname : d.legal = true)
    (hnumber : ∀ number ∈ d.number, number.value.natAbs ≤ maxInteger) (hform : TypeForm e n d.type [] [] d.dataType) :
    RulePasses n variableDeclaration d.tokens more (· = d.declared) := by
  have hmore : nextKind ([d.semicolon] ++ more) = .semicolon := d.kind_semicolon
  have hsemicolon : Passes n semicolon [d.semicolon] more fun _ => True :=
    Passes.bind_last (Passes.accept d.kind_semicolon) fun _ hfound => by rw [hfound]; exact Passes.pure trivial
  rw [variableDeclaration_eq, variableParts_eq]
  apply RulePasses.bind (RulePasses.spanned (passes_variableBody hname hnumber hform hmore) nofun)
  rintro _ ⟨make, hmake, rfl⟩
  rw [hmake]
  exact RulePasses.bind_last (RulePasses.lift hsemicolon) fun _ _ => RulePasses.pure rfl

/-- Kinds that end a block of variables, whatever follows. -/
def endsVariables : Kind → Bool
  | .keyword k => k.isDeclarationStart || (k.isSection && k != .code)
  | .rightBrace | .eof => true
  | _ => false

/-- The word CODE ends a block in front of a brace only. -/
theorem variablesEnd_of_code (h : s.peek.kind = .keyword .code → s.checkNext .leftBrace = false) :
    variablesEnd s = endsVariables s.peek.kind := by
  unfold variablesEnd endsVariables sectionStarts
  cases hkind : s.peek.kind with
  | keyword k => cases k <;> first | exact h hkind | rfl
  | _ => rfl

def EndsBlock : List Token → Prop
  | [] => True
  | t :: more => t.kind = .rightBrace ∨ (∃ k, t.kind = .keyword k ∧ k.isDeclarationStart = true) ∨
      t.kind = .keyword .begin_ ∧ nextKind more ≠ .colon ∧ nextKind more ≠ .atSign

theorem variableHead_of_ends (h : EndsBlock (ahead s)) : variableHead s = .stop := by
  cases hahead : ahead s with
  | nil =>
      have hkind : s.peek.kind = .eof := by rw [kind_peek, hahead, nextKind]
      have hends := variablesEnd_of_code (s := s) (by rw [hkind]; rintro ⟨⟩)
      rw [hkind] at hends
      exact if_pos hends
  | cons t more =>
      rw [hahead] at h
      rw [← peek_of_ahead hahead] at h
      rcases h with hkind | ⟨k, hkind, hk⟩ | ⟨hkind, hcolon, hat⟩
      · have hends := variablesEnd_of_code (s := s) (by rw [hkind]; rintro ⟨⟩)
        rw [hkind] at hends
        exact if_pos hends
      · have hends := variablesEnd_of_code (s := s) (by rw [hkind]; rintro ⟨⟩; cases hk)
        rw [hkind, endsVariables, hk, Bool.true_or] at hends
        exact if_pos hends
      · have hends := variablesEnd_of_code (s := s) (by rw [hkind]; rintro ⟨⟩)
        have hfollows : declarationFollows s = false := by
          unfold declarationFollows
          rw [kind_peekAhead_one hahead]
          split
          · exact (hcolon ‹_›).elim
          · exact (hat ‹_›).elim
          · rfl
        rw [hkind] at hends
        rw [variableHead, hends, hkind, hfollows]
        rfl

theorem checkNext_of_ahead {x : Token} (h : ahead s = x :: l) {κ : Kind} (hκ : nextKind l ≠ κ) :
    s.checkNext κ = false := by
  rw [← kind_peekAhead_one h] at hκ
  exact beq_eq_false_iff_ne.2 hκ

def passedOver : Kind → Bool
  | .semicolon | .leftBrace | .keyword .begin_ => false
  | κ => !endsVariables κ

theorem ne_of_passedOver {κ : Kind} (h : passedOver κ = true) :
    κ ≠ .semicolon ∧ κ ≠ .leftBrace ∧ κ ≠ .keyword .begin_ ∧ endsVariables κ = false := by
  unfold passedOver at h
  split at h
  · cases h
  · cases h
  · cases h
  · rename_i hsemicolon hbrace hbegin
    exact ⟨hsemicolon, hbrace, hbegin, by simpa using h⟩

theorem skipMisnamedRound_apply (s : Parser) : skipMisnamedRound () s =
    if s.peek.kind = .eof then (.done (), s)
    else if s.peek.kind = .semicolon then (.done (), (advance s).2)
    else if s.check (.keyword .begin_) || variablesEnd s then (.done (), s)
    else (.yield (), (advance s).2) := by
  have hend := Cursor.kind_peek_eq_eof (c := s.toCursor)
  rw [skipMisnamedRound, atEnd, look_bind_apply]
  by_cases hkind : s.peek.kind = .eof
  · rw [if_pos hkind, if_pos (hend.1 hkind)]
    rfl
  · rw [if_neg hkind, if_neg (hkind ∘ hend.2), bind_apply, accept_apply]
    by_cases hsemicolon : s.peek.kind = .semicolon
    · rw [if_pos hsemicolon, if_pos hsemicolon]
      rfl
    · rw [if_neg hsemicolon, if_neg hsemicolon]
      show (test _ >>= _) s = _
      rw [test, look_bind_apply]
      split <;> rfl

theorem passes_skipMisnamedRound {x : Token} (hx : passedOver x.kind = true) (hmore : nextKind more ≠ .leftBrace) :
    Passes n (skipMisnamedRound ()) [x] more (yieldAnd fun _ => True) := by
  intro s _ hahead
  have hpeek : s.peek = x := peek_of_ahead hahead
  have heof : s.peek.kind ≠ .eof := by
    rw [hpeek]
    rintro h
    rw [h] at hx
    cases hx
  rw [← hpeek] at hx
  obtain ⟨hsemicolon, -, hbegin, hends⟩ := ne_of_passedOver hx
  have hcheck : s.check (.keyword .begin_) = false := beq_eq_false_iff_ne.2 hbegin
  have hvariables : variablesEnd s = false := by
    rw [variablesEnd_of_code fun _ => checkNext_of_ahead hahead hmore, hends]
  rw [skipMisnamedRound_apply, if_neg heof, if_neg hsemicolon, hcheck, hvariables]
  exact ⟨trivial, rfl⟩

/-- All of a misnamed declaration behind its name, with the semicolon. -/
theorem passes_misnamed {semicolon : Token} (hw : ∀ x ∈ w, passedOver x.kind = true)
    (hsemicolon : semicolon.kind = .semicolon) :
    Passes n (loop () skipMisnamedRound) (w ++ [semicolon]) more fun _ => True := by
  have hunrolls := (grammarLoop_progresses .skipMisnamed).unrolls
  induction w with
  | nil =>
      apply Passes.loop_done hunrolls
      intro s _ hahead
      have hkind : s.peek.kind = .semicolon := by rw [peek_of_ahead hahead, hsemicolon]
      rw [skipMisnamedRound_apply, if_neg (by rw [hkind]; nofun), if_pos hkind]
      exact ⟨trivial, rfl⟩
  | cons x w ih =>
      rw [List.forall_mem_cons] at hw
      have hnext : nextKind (w ++ [semicolon] ++ more) ≠ .leftBrace := by
        cases w with
        | nil =>
            show semicolon.kind ≠ .leftBrace
            rw [hsemicolon]
            nofun
        | cons y w => exact (ne_of_passedOver (hw.2 y List.mem_cons_self)).2.1
      exact Passes.loop_yield (u := [x]) hunrolls (passes_skipMisnamedRound hw.1 hnext) fun _ _ => ih hw.2

theorem passedOver_of_belongsToType {κ : Kind} (h : belongsToType κ = true) : passedOver κ = true := by
  cases κ with
  | keyword k => cases k <;> first | rfl | cases h
  | _ => first | rfl | cases h

theorem passedOver_of_canName {κ : Kind} (h : κ.canName = true) (hends : endsVariables κ = false) :
    passedOver κ = true := by
  unfold passedOver
  split
  · cases h
  · cases h
  · cases h
  · rw [hends, Bool.not_false]

theorem passedOver_number (number : NumberText) : ∀ x ∈ number.tokens, passedOver x.kind = true := by
  have hsign : ∀ x ∈ number.sign.toList, passedOver x.kind = true := by
    intro x hx
    rw [number.kind_sign x (Option.mem_toList.1 hx)]
    rfl
  simp only [NumberText.tokens, List.forall_mem_cons, List.forall_mem_append, number.kind_atSign, number.kind_digits]
  exact ⟨rfl, hsign, rfl, nofun⟩

theorem passedOver_modifier {m : ModifierText} (hmode : ∀ mode ∈ m.mode?, endsVariables mode.kind = false) :
    ∀ x ∈ m.tokens, passedOver x.kind = true := by
  cases m with
  | inDataSet word hword | withEvents word hword | runOnClient word hword =>
      refine List.forall_mem_singleton.2 ?_
      rw [hword]
      rfl
  | securityFiltering word opening mode closing hword hopening hcan hclosing =>
      have hpassed := passedOver_of_canName hcan (hmode mode rfl)
      simp only [ModifierText.tokens, List.forall_mem_cons, hword, hopening, hclosing]
      exact ⟨rfl, rfl, hpassed, rfl, nofun⟩

theorem passedOver_rest {d : VariableText} {e : Token} (hform : TypeForm e n d.type [] [] d.dataType)
    (hmodes : ∀ m ∈ d.modifiers, ∀ mode ∈ m.mode?, endsVariables mode.kind = false) :
    ∀ x ∈ d.rest, passedOver x.kind = true := by
  have hnumber : ∀ x ∈ d.numberTokens, passedOver x.kind = true := by
    unfold VariableText.numberTokens
    cases d.number with
    | none => nofun
    | some number => exact passedOver_number number
  have htemporary : ∀ x ∈ d.temporary.toList, passedOver x.kind = true := by
    intro x hx
    rw [d.kind_temporary x (Option.mem_toList.1 hx)]
    rfl
  have htype : ∀ x ∈ d.type, passedOver x.kind = true := fun x hx => passedOver_of_belongsToType (hform.belongs x hx)
  have hmodifiers : ∀ x ∈ d.modifiers.flatMap ModifierText.tokens, passedOver x.kind = true := by
    intro x hx
    obtain ⟨m, hm, hx⟩ := List.mem_flatMap.1 hx
    exact passedOver_modifier (hmodes m hm) x hx
  simp only [VariableText.rest, List.forall_mem_cons, List.forall_mem_append, d.kind_colon]
  exact ⟨hnumber, rfl, htemporary, htype, hmodifiers⟩

theorem skipMisnamed_apply (s : Parser) : skipMisnamed s = recordSkipped s.position "misnamed declaration"
    (loop () skipMisnamedRound (advance (report (misnamed s.peek) s).2).2).2 := by
  have hposition : (report (misnamed s.peek) s).2.position = s.position :=
    congrArg Cursor.position (toCursor_record _ s)
  rw [← hposition]
  rfl

theorem skipMisnamed_spec {x semicolon : Token} (hw : ∀ x ∈ w, passedOver x.kind = true)
    (hsemicolon : semicolon.kind = .semicolon) (hahead : ahead s = x :: (w ++ [semicolon]) ++ more)
    (hroom : s.diagnostics.size < maxDiagnostics) :
    ∃ t, (skipMisnamed s).2 = t ∧ ahead t = more ∧ t.nesting = s.nesting ∧
      t.diagnostics = s.diagnostics.push (.ofFault (misnamed x)) := by
  obtain ⟨events, hreport⟩ := record_of_room (s := s) (d := .ofFault (misnamed x)) hroom
  have hbehind := ahead_advance hahead
  have hrest : ahead (advance (report (misnamed x) s).2).2 = w ++ [semicolon] ++ more := by
    rw [report, hreport]
    exact hbehind
  obtain ⟨-, hloop⟩ := passes_misnamed hw hsemicolon _ rfl hrest
  obtain ⟨events', hskipped⟩ := recordSkipped_snd s.position "misnamed declaration"
    (skip (w ++ [semicolon]).length (advance (report (misnamed x) s).2).2)
  refine ⟨_, rfl, ?_⟩
  rw [skipMisnamed_apply, peek_of_ahead hahead, hloop, hskipped]
  refine ⟨ahead_skip hrest, ?_, ?_⟩
  · show (skip _ _).nesting = _
    rw [nesting_skip, report, hreport]
    rfl
  · show (skip _ _).diagnostics = _
    rw [diagnostics_skip, report, hreport]
    rfl

/-- What a block asks of a declaration to stay in its place: no word that ends a block is its name, nor the mode of a
filter behind a name that is none, and a number that is read fits into 64 bits. -/
structure Regular (d : VariableText) : Prop where
  name : endsVariables d.name.kind = false
  number : d.legal = true → ∀ number ∈ d.number, number.value.natAbs ≤ maxInteger
  modes : d.legal = false → ∀ m ∈ d.modifiers, ∀ mode ∈ m.mode?, endsVariables mode.kind = false

theorem variablesEnd_of_regular {d : VariableText} (hd : Regular d) (hahead : ahead s = d.tokens ++ more) :
    variablesEnd s = false ∧ declarationFollows s = true := by
  have hfollows : nextKind (d.rest ++ [d.semicolon] ++ more) = .atSign ∨
      nextKind (d.rest ++ [d.semicolon] ++ more) = .colon := by
    unfold VariableText.rest VariableText.numberTokens
    cases d.number with
    | none => exact .inr d.kind_colon
    | some number => exact .inl number.kind_atSign
  have hhead : ahead s = d.name :: (d.rest ++ [d.semicolon] ++ more) := hahead
  refine ⟨?_, ?_⟩
  · rw [variablesEnd_of_code fun _ => checkNext_of_ahead hhead ?_, peek_of_ahead hhead, hd.name]
    rcases hfollows with h | h <;> rw [h] <;> nofun
  · unfold declarationFollows
    rw [kind_peekAhead_one hhead]
    rcases hfollows with h | h <;> rw [h]

theorem form_of_text {d : VariableText} (hahead : ahead s = d.tokens ++ more) :
    ∃ e, TypeForm e maxNesting d.type [] [] d.dataType := by
  obtain ⟨e, hrun, hend, hclean⟩ := d.accepted
  obtain ⟨front, behind, htokens⟩ : ∃ front behind, d.tokens = front ++ (d.type ++ behind) := by
    refine ⟨d.name :: (d.numberTokens ++ d.colon :: d.temporary.toList),
      d.modifiers.flatMap ModifierText.tokens ++ [d.semicolon], ?_⟩
    simp [VariableText.tokens, VariableText.rest]
  rw [htokens, List.append_assoc, List.append_assoc] at hahead
  exact ⟨_, exists_form (ahead_skip hahead) hrun hend hclean⟩

theorem variableRound_of_legal {d : VariableText} (hd : Regular d) (hlegal : d.legal = true)
    (hnesting : s.nesting = 0) (hahead : ahead s = d.tokens ++ more) (found : Array Variable) :
    variableRound found s = (.yield (found.push d.declared), skip d.tokens.length s) := by
  obtain ⟨e, hform⟩ := form_of_text hahead
  have hname : s.peek.kind.canName = true := by
    rw [peek_of_ahead (x := d.name) hahead]
    exact hlegal
  have hhead : variableHead s = .declared := by
    rw [variableHead, (variablesEnd_of_regular hd hahead).1, hname]
    rfl
  obtain ⟨v, hrun, rfl⟩ := (passes_variableDeclaration hlegal (hd.number hlegal) hform).run
    (by rw [Parser.freeLevels, hnesting, Nat.sub_zero]) hahead
  rw [variableRound_of_declared hhead, declaredRound, bind_apply, withRecovery_of_ok hrun]
  rfl

theorem variableRound_of_reserved {d : VariableText} (hd : Regular d) (hmisnamed : d.misnamed = true)
    (hahead : ahead s = d.tokens ++ more) (hroom : s.diagnostics.size < maxDiagnostics) (found : Array Variable) :
    ∃ t, variableRound found s = (.yield found, t) ∧ ahead t = more ∧ t.nesting = s.nesting ∧
      t.diagnostics = s.diagnostics.push (.ofFault (misnamed d.name)) := by
  obtain ⟨e, hform⟩ := form_of_text hahead
  obtain ⟨hends, hfollows⟩ := variablesEnd_of_regular hd hahead
  have hlegal : d.legal = false := by simpa [VariableText.misnamed] using hmisnamed
  have hname : s.peek.kind.canName = false := by
    rw [peek_of_ahead (x := d.name) hahead]
    exact hlegal
  have hhead : variableHead s = .misnamed := by
    rw [variableHead, hends, hname, hfollows]
    rfl
  obtain ⟨t, hskip, hbehind⟩ :=
    skipMisnamed_spec (passedOver_rest hform (hd.modes hlegal)) d.kind_semicolon hahead hroom
  exact ⟨t, by rw [variableRound_of_misnamed hhead, hskip], hbehind⟩

theorem visits_variables {ds : List VariableText} (hds : ∀ d ∈ ds, Regular d) (found : Array Variable)
    (hnesting : s.nesting = 0) (hahead : ahead s = ds.flatMap VariableText.tokens ++ more)
    (hroom : (ds.filter VariableText.misnamed).length ≤ maxDiagnostics - s.diagnostics.size) :
    ∃ t, Visits variableRound found s
        (found ++ ((ds.filter VariableText.legal).map VariableText.declared).toArray) t ∧
      ahead t = more ∧ t.diagnostics = s.diagnostics ++
        ((ds.filter VariableText.misnamed).map fun d => Diagnostic.ofFault (misnamed d.name)).toArray := by
  induction ds generalizing s found with
  | nil => exact ⟨s, by simpa using Visits.refl found s, hahead, by simp⟩
  | cons d ds ih =>
      rw [List.forall_mem_cons] at hds
      rw [List.flatMap_cons, List.append_assoc] at hahead
      cases hlegal : d.legal with
      | true =>
          have hmisnamed : ¬ d.misnamed = true := by simp [VariableText.misnamed, hlegal]
          have hkept : (d :: ds).filter VariableText.legal = d :: ds.filter VariableText.legal :=
            List.filter_cons_of_pos hlegal
          have hpassed : (d :: ds).filter VariableText.misnamed = ds.filter VariableText.misnamed :=
            List.filter_cons_of_neg hmisnamed
          rw [hpassed] at hroom
          rw [hkept, hpassed]
          have hround := variableRound_of_legal hds.1 hlegal hnesting hahead found
          obtain ⟨t, hvisits, hbehind, hdiagnostics⟩ := ih hds.2 (found.push d.declared)
            ((nesting_skip _ s).trans hnesting) (ahead_skip hahead) (by rwa [diagnostics_skip])
          rw [diagnostics_skip] at hdiagnostics
          exact ⟨t, .next hround (by simpa using hvisits), hbehind, hdiagnostics⟩
      | false =>
          have hmisnamed : d.misnamed = true := by rw [VariableText.misnamed, hlegal, Bool.not_false]
          have hkept : (d :: ds).filter VariableText.legal = ds.filter VariableText.legal :=
            List.filter_cons_of_neg (by simp [hlegal])
          have hpassed : (d :: ds).filter VariableText.misnamed = d :: ds.filter VariableText.misnamed :=
            List.filter_cons_of_pos hmisnamed
          rw [hpassed, List.length_cons] at hroom
          rw [hkept, hpassed]
          obtain ⟨u, hround, hbehind, hnesting', hpush⟩ :=
            variableRound_of_reserved hds.1 hmisnamed hahead (by omega) found
          obtain ⟨t, hvisits, hbehind, hdiagnostics⟩ := ih hds.2 found (hnesting'.trans hnesting) hbehind
            (by rw [hpush, Array.size_push]; omega)
          refine ⟨t, .next hround hvisits, hbehind, ?_⟩
          rw [hdiagnostics, hpush]
          simp

/-- A block of declarations, any of them misnamed, up to what ends it. -/
theorem variableBlock_of_texts {ds : List VariableText} (hds : ∀ d ∈ ds, Regular d) (hnesting : s.nesting = 0)
    (hahead : ahead s = ds.flatMap VariableText.tokens ++ more) (hmore : EndsBlock more)
    (hroom : (ds.filter VariableText.misnamed).length ≤ maxDiagnostics - s.diagnostics.size) :
    ∃ t, variableBlock s = ((ds.filter VariableText.legal).map VariableText.declared, t) ∧ ahead t = more ∧
      t.diagnostics = s.diagnostics ++
        ((ds.filter VariableText.misnamed).map fun d => Diagnostic.ofFault (misnamed d.name)).toArray := by
  have hunrolls := (grammarLoop_progresses .variableBlock).unrolls
  obtain ⟨t, hvisits, hbehind, hdiagnostics⟩ := visits_variables hds #[] hnesting hahead hroom
  have hstop : variableHead t = .stop := variableHead_of_ends (by rwa [hbehind])
  have hloop := hvisits.loop_eq hunrolls
  rw [hunrolls _ t, variableRound_of_stop hstop] at hloop
  refine ⟨t, ?_, hbehind, hdiagnostics⟩
  rw [variableBlock, bind_apply, hloop]
  simp
  rfl

/-- `Name@n : Integer;`. -/
structure IntegerText where
  name : Token
  number : NumberText
  colon : Token
  type : Token
  semicolon : Token
  kind_colon : colon.kind = .colon
  kind_type : type.kind = .identifier
  text_type : type.text = "Integer"
  kind_semicolon : semicolon.kind = .semicolon

theorem accepted_word {t : Token} (ht : t.kind = .identifier) : ∃ e, dataType (aloneOn {} [t]) =
    (.ok (.simple t.text (splitSize t.text).2 (runSpan [t])), e) ∧ e.atEnd = true ∧ e.diagnostics = #[] := by
  have hfree : ∀ x ∈ #[t], x.kind ≠ .eof := by
    intro x hx
    rw [List.mem_singleton.1 (Array.mem_toList_iff.2 hx), ht]
    nofun
  have halone : ahead (aloneOn {} [t]) = [t] := congrArg Array.toList (filter_eq_of_eofFree hfree)
  have hform : TypeForm t maxNesting [t] [] [] _ := .word (by rw [ht]; rfl) nofun
  have hpasses : RulePasses maxNesting dataType [t] [] _ := hform.passes rfl
  obtain ⟨_, hrun, rfl⟩ := hpasses.run rfl halone
  refine ⟨_, hrun, ?_, ?_⟩
  · rw [← ahead_eq_nil_iff]
    exact ahead_skip halone
  · rw [diagnostics_skip]
    rfl

namespace IntegerText

def tokens (d : IntegerText) : List Token := d.name :: (d.number.tokens ++ [d.colon, d.type, d.semicolon])

def declared (d : IntegerText) : Variable where
  name := d.name.value
  id := some d.number.value
  dataType := .simple "Integer" none d.type.span
  temporary := false
  span := d.name.span.merge d.type.span

def declaration (d : IntegerText) : VariableText where
  name := d.name
  number := some d.number
  colon := d.colon
  temporary := none
  type := [d.type]
  dataType := .simple "Integer" none d.type.span
  modifiers := []
  semicolon := d.semicolon
  kind_colon := d.kind_colon
  kind_temporary := nofun
  kind_semicolon := d.kind_semicolon
  accepted := by
    have haccepted := accepted_word d.kind_type
    rw [d.text_type, runSpan_singleton] at haccepted
    exact haccepted

theorem tokens_declaration (d : IntegerText) : d.declaration.tokens = d.tokens := by
  simp [declaration, tokens, VariableText.tokens, VariableText.rest, VariableText.numberTokens]

theorem declared_declaration (d : IntegerText) : d.declaration.declared = d.declared := by
  simp [declaration, declared, VariableText.declared, VariableText.bare, VariableText.rest, VariableText.numberTokens,
    runSpan, List.getLast?_cons, List.getLast?_append]

theorem regular_declaration {d : IntegerText} (hname : d.name.kind.canName = true)
    (hends : endsVariables d.name.kind = false) (hnumber : d.number.value.natAbs ≤ maxInteger) :
    Regular d.declaration where
  name := hends
  number _ _ hnumber' := Option.some.inj hnumber' ▸ hnumber
  modes hlegal := absurd (hname.symm.trans hlegal) nofun

end IntegerText

/-- `name@digits : Integer;`. -/
def integerText (name : Token) (digits : String) : IntegerText where
  name := name
  number := ⟨⟨.atSign, "@", .origin⟩, none, ⟨.integer, digits, .origin⟩, rfl, nofun, rfl⟩
  colon := ⟨.colon, ":", .origin⟩
  type := ⟨.identifier, "Integer", .origin⟩
  semicolon := ⟨.semicolon, ";", .origin⟩
  kind_colon := rfl
  kind_type := rfl
  text_type := rfl
  kind_semicolon := rfl

def wordX : Token := ⟨.identifier, "x", .origin⟩

def wordIf : Token := ⟨.keyword .if_, "IF", .origin⟩

def wordEvent : Token := ⟨.keyword .event, "Event", .origin⟩

def wordDotNet : Token := ⟨.keyword .dotNet, "DotNet", .origin⟩

def wordTemporary : Token := ⟨.keyword .temporary, "Temporary", .origin⟩

def wordFields : Token := ⟨.keyword .fields, "Fields", .origin⟩

/-- Kinds of a name, or of a reserved word in its place that does not end a block. -/
def namesOrReserved : Kind → Bool
  | .identifier | .quotedIdentifier => true
  | .keyword k => k.isReserved && !k.isDeclarationStart
  | _ => false

theorem endsVariables_of_namesOrReserved {κ : Kind} (h : namesOrReserved κ = true) : endsVariables κ = false := by
  cases κ with
  | keyword k => cases k <;> first | rfl | cases h
  | _ => first | rfl | cases h

theorem ofFault_misnamed {d : VariableText} (hname : namesOrReserved d.name.kind = true)
    (hmisnamed : d.misnamed = true) :
    Diagnostic.ofFault (misnamed d.name) = d.complaint := by
  unfold misnamed VariableText.complaint
  cases hkind : d.name.kind with
  | keyword k =>
      show Diagnostic.make _ (_ ++ "' as " ++ "variable name") _ = _
      rw [String.append_assoc]
      rfl
  | _ =>
      rw [VariableText.misnamed, VariableText.legal, hkind] at hmisnamed
      rw [hkind] at hname
      first | exact absurd hname Bool.false_ne_true | exact absurd hmisnamed Bool.false_ne_true

/-- A block of declarations, some of them under reserved words: these are reported, one by one, and passed over, and all
others are kept as they stand. A mode of SECURITYFILTERING in a declaration that is passed over must not be a word that
ends a block, and a number that is kept fits into 63 bits. -/
theorem reserved_names {ds : List VariableText} (hnames : ∀ d ∈ ds, namesOrReserved d.name.kind = true)
    (hnumbers : ∀ d ∈ ds, d.legal = true → ∀ number ∈ d.number, number.value.natAbs ≤ maxInteger)
    (hmodes : ∀ d ∈ ds, d.legal = false → ∀ m ∈ d.modifiers, ∀ mode ∈ m.mode?, endsVariables mode.kind = false)
    (hnesting : s.nesting = 0) (hahead : ahead s = ds.flatMap VariableText.tokens ++ more) (hmore : EndsBlock more)
    (hroom : (ds.filter VariableText.misnamed).length ≤ maxDiagnostics - s.diagnostics.size) :
    ∃ t, variableBlock s = ((ds.filter VariableText.legal).map VariableText.declared, t) ∧ ahead t = more ∧
      t.diagnostics = s.diagnostics ++ ((ds.filter VariableText.misnamed).map VariableText.complaint).toArray := by
  have hregular : ∀ d ∈ ds, Regular d :=
    fun d hd => ⟨endsVariables_of_namesOrReserved (hnames d hd), hnumbers d hd, hmodes d hd⟩
  have hcomplaints : (ds.filter VariableText.misnamed).map (fun d => Diagnostic.ofFault (misnamed d.name)) =
      (ds.filter VariableText.misnamed).map VariableText.complaint := by
    apply List.map_congr_left
    intro d hd
    obtain ⟨hd, hmisnamed⟩ := List.mem_filter.1 hd
    exact ofFault_misnamed (hnames d hd) hmisnamed
  rw [← hcomplaints]
  exact variableBlock_of_texts hregular hnesting hahead hmore hroom

def inFrontOf (ds : List VariableText) : Parser := aloneOn {} (ds.flatMap VariableText.tokens)

theorem reserved_names_if : ∃ t,
    variableBlock (inFrontOf [(integerText wordIf "1").declaration, (integerText wordX "2").declaration]) =
      ([(integerText wordX "2").declared], t) ∧ ahead t = [] ∧
    t.diagnostics = #[.make .reservedKeywordAsIdentifier "Cannot use reserved keyword 'IF' as variable name" .origin] := by
  have hahead : ahead (inFrontOf [(integerText wordIf "1").declaration, (integerText wordX "2").declaration]) =
      [(integerText wordIf "1").declaration,
        (integerText wordX "2").declaration].flatMap VariableText.tokens ++ [] := rfl
  obtain ⟨t, hrun, hbehind, hdiagnostics⟩ := reserved_names (by decide) (by decide) (by decide) rfl hahead trivial
    (by decide)
  exact ⟨t, hrun, hbehind, hdiagnostics⟩

/-- `IF@1 : Integer SECURITYFILTERING(Event);`. -/
def filteredText : VariableText :=
  { (integerText wordIf "1").declaration with
    modifiers := [.securityFiltering ⟨.keyword .securityFiltering, "SECURITYFILTERING", .origin⟩
      ⟨.leftParen, "(", .origin⟩ wordEvent ⟨.rightParen, ")", .origin⟩ rfl rfl rfl rfl] }

/-- A declaration under a reserved word is passed over up to the word that begins a declaration, and the block ends
there. -/
theorem reserved_names_limits :
    (∀ d ∈ [filteredText, (integerText wordX "2").declaration], namesOrReserved d.name.kind = true) ∧
      ([filteredText, (integerText wordX "2").declaration].filter VariableText.legal).length = 1 ∧
      (variableBlock (inFrontOf [filteredText, (integerText wordX "2").declaration])).1.length = 0 := by
  decide +kernel

/-- Every name that is legal can be declared, type names and other words among them, in any order: all but those that
end a block. -/
theorem legal_names {ds : List IntegerText} (hnames : ∀ d ∈ ds, d.name.kind.canName = true)
    (hends : ∀ d ∈ ds, endsVariables d.name.kind = false) (hnumbers : ∀ d ∈ ds, d.number.value.natAbs ≤ maxInteger)
    (hnesting : s.nesting = 0) (hahead : ahead s = ds.flatMap IntegerText.tokens ++ more) (hmore : EndsBlock more) :
    ∃ t, variableBlock s = (ds.map IntegerText.declared, t) ∧ ahead t = more ∧ t.diagnostics = s.diagnostics := by
  have hregular : ∀ d ∈ ds.map IntegerText.declaration, Regular d :=
    List.forall_mem_map.2 fun d hd => IntegerText.regular_declaration (hnames d hd) (hends d hd) (hnumbers d hd)
  have hlegal : ∀ d ∈ ds.map IntegerText.declaration, d.legal = true := List.forall_mem_map.2 hnames
  have hkept : (ds.map IntegerText.declaration).filter VariableText.legal = ds.map IntegerText.declaration :=
    List.filter_eq_self.2 hlegal
  have hpassed : (ds.map IntegerText.declaration).filter VariableText.misnamed = [] := by
    apply List.filter_eq_nil_iff.2
    intro d hd
    rw [VariableText.misnamed, hlegal d hd]
    nofun
  have htokens : (ds.map IntegerText.declaration).flatMap VariableText.tokens = ds.flatMap IntegerText.tokens := by
    simp [List.flatMap_map, IntegerText.tokens_declaration]
  have hdeclared : (ds.map IntegerText.declaration).map VariableText.declared = ds.map IntegerText.declared := by
    simp [IntegerText.declared_declaration]
  obtain ⟨t, hrun, hbehind, hdiagnostics⟩ := variableBlock_of_texts hregular hnesting
    (by rw [htokens]; exact hahead) hmore (by rw [hpassed]; exact Nat.zero_le _)
  rw [hkept, hdeclared] at hrun
  rw [hpassed] at hdiagnostics
  exact ⟨t, hrun, hbehind, hdiagnostics⟩

/-- `DotNet@1 : Integer; Temporary@2 : Integer;`. -/
theorem legal_names_words : ∃ t, variableBlock (aloneOn {} ((integerText wordDotNet "1").tokens ++
      (integerText wordTemporary "2").tokens)) =
        ([(integerText wordDotNet "1").declared, (integerText wordTemporary "2").declared], t) ∧
      ahead t = [] ∧ t.diagnostics = #[] := by
  have hahead : ahead (aloneOn {} ((integerText wordDotNet "1").tokens ++ (integerText wordTemporary "2").tokens)) =
      [integerText wordDotNet "1", integerText wordTemporary "2"].flatMap IntegerText.tokens ++ [] := rfl
  exact legal_names (by decide) (by decide) (by decide) rfl hahead trivial

/-- Variables under legal names that are also the keywords of a section are lost, with all that stand behind them. So
are those under words that begin a declaration, and a number beyond 64 bits is reported. -/
theorem legal_names_limits :
    (∀ name ∈ [wordEvent, wordFields], name.kind.canName = true) ∧
      (variableBlock (aloneOn {} (integerText wordEvent "1").tokens)).1.length = 0 ∧
      (variableBlock (aloneOn {} ((integerText wordX "1").tokens ++ (integerText wordFields "2").tokens ++
        (integerText wordX "3").tokens))).1.length = 1 ∧
      (variableBlock (aloneOn {} (integerText wordX "9223372036854775808").tokens)).2.diagnostics =
        #[.make .invalidIntegerLiteral "Invalid integer literal '9223372036854775808'" .origin] := by
  decide +kernel

end Rule

end CalExport
