import CalExport.Proofs.Upkeep.Statement
import CalExport.Proofs.Simulation.Declaration

namespace CalExport.Rule

variable {U : Upkeep} {G : Growth U} {n : Nat}

open Growth

namespace Growth

variable {ms ks : List SyntaxNode}

theorem suits_nil (G : Growth U) (n : Nat) : G.Suits n [] := List.forall_mem_nil _

@[simp] theorem suits_append : G.Suits n (ms ++ ks) ↔ G.Suits n ms ∧ G.Suits n ks := List.forall_mem_append

@[simp] theorem suits_statements {ss : List Statement} :
    G.Suits n (ss.map .statement) ↔ ∀ s ∈ ss, G.Fits n (.statement s) := List.forall_mem_map

theorem suits_flatMap {α : Type} {as : List α} {nodes : α → List SyntaxNode} :
    G.Suits n (as.flatMap nodes) ↔ ∀ a ∈ as, G.Suits n (nodes a) := by
  simp only [Suits, List.mem_flatMap]
  constructor
  · exact fun h a ha m hm => h m ⟨a, ha, hm⟩
  · rintro h m ⟨a, ha, hm⟩
    exact h a ha m hm

/-- Types without others below them. -/
theorem leafType (G : Growth U) (h : Nat) {t : DataType} (ht : (SyntaxNode.dataType t).branches = []) :
    G.grade (h + 1) (.dataType t) := G.dataType (by simp [ht])

theorem suits_dataType {t : DataType} : G.Suits n [.dataType t] ↔ G.Fits n (.dataType t) := List.forall_mem_singleton

end Growth

def Growth.Types (G : Growth U) (n h : Nat) (x : Rule DataType) : Prop :=
  RuleServes U n x fun t => G.grade h (.dataType t)

theorem serves_simpleType (h : Nat) : G.Types n (h + 1) simpleType := by
  apply RuleServes.look
  intro start
  apply RuleServes.advance
  intro t
  apply RuleServes.accept_ite
  · apply serves_size.bind
    intro length _
    apply RuleServes.expect
    intro _
    apply RuleServes.look
    intro span
    exact RuleServes.pure (G.leafType h rfl)
  · apply RuleServes.look
    intro span
    exact RuleServes.pure (G.leafType h rfl)

theorem serves_objectNumber : RuleServes U n objectNumber Always := by
  apply RuleServes.look
  intro found
  split
  · exact serves_integer.map fun _ _ => trivial
  · exact RuleServes.pure trivial

theorem serves_referenceType (target : Keyword) (h : Nat) : G.Types n (h + 1) (referenceType target) := by
  apply RuleServes.look
  intro start
  apply RuleServes.advance
  intro _
  apply serves_objectNumber.bind
  intro id? _
  apply RuleServes.look
  intro span
  exact RuleServes.pure (G.leafType h rfl)

theorem moves_skipTexts : Moves skipTexts := by
  apply Moves.loop
  intro _
  apply (Moves.accept _).bind
  intro found
  split
  · exact (Moves.accept _).bind fun _ => Moves.pure _
  · exact Moves.pure _

theorem serves_textConstType (h : Nat) : G.Types n (h + 1) textConstType := by
  apply RuleServes.look
  intro start
  apply RuleServes.expect
  intro _
  apply RuleServes.andThen (.moves moves_skipTexts)
  intro _
  apply RuleServes.look
  intro span
  exact RuleServes.pure (G.leafType h rfl)

theorem serves_descriptor {α : Type} (typeName : String) (read : String → Except DescriptorError α) :
    Serves U n (descriptor typeName read) Always := by
  apply Serves.look
  intro t
  split
  case h_3 => exact (Serves.report _).bind fun _ _ => Serves.pure trivial
  all_goals
    apply Serves.advance.bind
    intro _ _
    split
    · exact Serves.pure trivial
    · exact (Serves.report _).bind fun _ _ => Serves.pure trivial

theorem serves_described {α : Type} (word : Keyword) (typeName : String) (read : String → Except DescriptorError α)
    {make : Option α → Text.Span → DataType} (hmake : ∀ info span, (SyntaxNode.dataType (make info span)).branches = [])
    (h : Nat) : G.Types n (h + 1) (described word typeName read make) := by
  apply RuleServes.look
  intro start
  apply RuleServes.expect
  intro _
  apply RuleServes.andThen (serves_descriptor _ _)
  intro info
  apply RuleServes.look
  intro span
  exact RuleServes.pure (G.leafType h (hmake info span))

theorem serves_dotNetType (h : Nat) : G.Types n (h + 1) dotNetType :=
  serves_described .dotNet "DotNet" DotNetInfo.ofString (fun _ _ => rfl) h

theorem serves_automationType (h : Nat) : G.Types n (h + 1) automationType :=
  serves_described .automation "Automation" AutomationInfo.ofString (fun _ _ => rfl) h

theorem serves_dimensions : RuleServes U n dimensions Always := by
  apply RuleServes.expect
  intro opening
  apply serves_size.bind
  intro first _
  apply RuleServes.bind (R := Always)
  · apply RuleServes.tryLoop trivial
    intro found _
    apply RuleServes.accept_ite
    · exact serves_size.bind fun _ _ => RuleServes.pure trivial
    · exact RuleServes.pure trivial
  · intro found _
    apply RuleServes.expect
    intro closing
    split
    · apply RuleServes.report
      exact RuleServes.pure trivial
    · exact RuleServes.pure trivial

section

variable {element : Rule DataType} {h : Nat} (helement : G.Types n h element)

include helement

theorem serves_arrayType : G.Types n (h + 1) (arrayType element) := by
  apply RuleServes.look
  intro start
  apply RuleServes.expect
  intro _
  apply serves_dimensions.bind
  intro found _
  apply RuleServes.expect
  intro _
  apply RuleServes.accept
  intro temporary
  apply RuleServes.bind helement
  intro t ht
  apply RuleServes.look
  intro span
  exact RuleServes.pure (G.dataType (by simpa [SyntaxNode.branches] using ht))

theorem serves_dataTypeWith : G.Types n (h + 1) (dataTypeWith element) := by
  apply RuleServes.look
  intro t
  split
  · exact serves_arrayType helement
  · exact serves_textConstType h
  · exact serves_dotNetType h
  · exact serves_automationType h
  · apply RuleServes.advance
    intro _
    exact RuleServes.pure (G.leafType h rfl)
  · exact serves_simpleType h
  · exact serves_simpleType h
  · split
    · exact serves_referenceType _ h
    · exact RuleServes.throw _
  · exact RuleServes.throw _

end

theorem serves_elementType (G : Growth U) (n : Nat) : G.Types n (8 * n) (elementType n) := by
  induction n with
  | zero => exact RuleServes.tooDeep
  | succ n ih =>
      apply RuleServes.nested
      exact (serves_dataTypeWith ih).mono fun t ht => G.mono ht (by omega)

theorem serves_dataType (G : Growth U) (n : Nat) : RuleServes U n dataType fun t => G.Fits n (.dataType t) :=
  RuleServes.of_levels (x := fun n => dataTypeWith (elementType n))
    ((serves_dataTypeWith (serves_elementType G n)).mono fun t ht => G.mono ht (by omega))

theorem serves_filteringMode : RuleServes U n filteringMode Always := by
  apply RuleServes.expect
  intro _
  apply RuleServes.look
  intro t
  split
  · apply RuleServes.advance
    intro _
    apply RuleServes.expect
    intro _
    exact RuleServes.pure trivial
  · exact RuleServes.throw _

/-- Modifiers leave the type as it is. -/
theorem serves_modifierRound {v : Variable} (hv : G.Suits n v.nodes) :
    RuleServes U n (modifierRound v) fun r => G.Suits n (payload r).nodes := by
  apply RuleServes.look
  intro κ
  split
  case h_4 =>
    apply RuleServes.advance
    intro _
    apply serves_filteringMode.bind
    intro mode _
    exact RuleServes.pure hv
  case h_5 => exact RuleServes.pure hv
  all_goals
    apply RuleServes.advance
    intro _
    exact RuleServes.pure hv

theorem serves_variableDeclaration (G : Growth U) (n : Nat) :
    RuleServes U n variableDeclaration fun v => G.Suits n v.nodes := by
  apply RuleServes.look
  intro start
  apply (serves_declaredName _).bind
  rintro ⟨name, id⟩ _
  apply RuleServes.expect
  intro _
  apply RuleServes.accept
  intro temporary
  apply (serves_dataType G n).bind
  intro t ht
  apply RuleServes.look
  intro declaredSpan
  apply RuleServes.bind (R := fun (v : Variable) => G.Suits n v.nodes)
  · exact RuleServes.tryLoop (I := fun (v : Variable) => G.Suits n v.nodes) (suits_dataType.2 ht)
      fun v hv => serves_modifierRound hv
  · intro modified hmodified
    apply RuleServes.look
    intro span
    apply RuleServes.andThen serves_semicolon
    intro _
    exact RuleServes.pure hmodified

theorem moves_skipMisnamedRound (a : Unit) : Moves (skipMisnamedRound a) := by
  apply Moves.look
  intro atEnd
  split
  · exact Moves.pure _
  · apply (Moves.accept _).bind
    intro found
    split
    · exact Moves.pure _
    · apply Moves.look
      intro stops
      split
      · exact Moves.pure _
      · exact Moves.advance.bind fun _ => Moves.pure _

theorem serves_skipMisnamed : Serves U n skipMisnamed Always := by
  apply Serves.look
  intro t
  apply Serves.report_then
  apply Serves.skip "misnamed declaration"
  intro s
  refine ⟨_, (Moves.advance s).trans (Moves.loop moves_skipMisnamedRound () _), .inr ?_⟩
  simp only [here, look_apply, bind_apply]

theorem serves_variableBlock (G : Growth U) (n : Nat) :
    Serves U n variableBlock fun vs => G.Suits n (vs.flatMap Variable.nodes) := by
  apply Serves.bind (R := fun (found : Array Variable) => ∀ v ∈ found, G.Suits n v.nodes)
  · apply Serves.loop (by simp)
    intro found hfound
    apply Serves.look
    intro head
    cases head with
    | stop => exact Serves.pure hfound
    | misnamed => exact serves_skipMisnamed.bind fun _ _ => Serves.pure hfound
    | declared =>
        apply (serves_withRecovery variableRecovery (serves_variableDeclaration G n)).bind
        intro v? hv
        cases v? with
        | none => exact Serves.pure hfound
        | some v => exact Serves.pure (forall_mem_push hfound (hv v rfl))
  · intro found hfound
    exact Serves.pure (suits_flatMap.2 fun v hv => hfound v (Array.mem_toList_iff.1 hv))

theorem serves_optionalVariables (G : Growth U) (n : Nat) :
    Serves U n optionalVariables fun vs => G.Suits n (vs.flatMap Variable.nodes) := by
  apply (Serves.accept _).bind
  intro found _
  split
  · exact serves_variableBlock G n
  · exact Serves.pure (G.suits_nil n)

theorem serves_parameter (G : Growth U) (n : Nat) : RuleServes U n parameter fun p => G.Suits n p.nodes := by
  apply RuleServes.look
  intro start
  apply RuleServes.accept
  intro byReference
  apply (serves_declaredName _).bind
  rintro ⟨name, id⟩ _
  apply RuleServes.expect
  intro _
  apply RuleServes.accept
  intro temporary
  apply (serves_dataType G n).bind
  intro t ht
  apply RuleServes.bind (R := Always)
  · apply RuleServes.tryLoop trivial
    intro _ _
    apply RuleServes.look
    intro κ
    split
    case h_4 => exact RuleServes.pure trivial
    case h_3 =>
      apply RuleServes.advance
      intro _
      exact serves_filteringMode.bind fun _ _ => RuleServes.pure trivial
    all_goals
      apply RuleServes.advance
      intro _
      exact RuleServes.pure trivial
  · intro _ _
    apply RuleServes.look
    intro span
    exact RuleServes.pure (suits_dataType.2 ht)

theorem serves_parameterList (G : Growth U) (n : Nat) :
    RuleServes U n parameterList fun ps => G.Suits n (ps.flatMap Parameter.nodes) := by
  apply RuleServes.expect
  intro _
  apply RuleServes.bind (R := fun (found : Array Parameter) => ∀ p ∈ found, G.Suits n p.nodes)
  · apply RuleServes.tryLoop (by simp)
    intro found hfound
    apply RuleServes.look
    intro stops
    split
    · exact RuleServes.pure hfound
    · apply (serves_parameter G n).bind
      intro next hnext
      have hpush : ∀ p ∈ found.push next, G.Suits n p.nodes := forall_mem_push hfound hnext
      apply RuleServes.accept_ite
      · exact RuleServes.pure hpush
      · apply RuleServes.accept_ite
        · exact RuleServes.pure hpush
        · exact RuleServes.pure hpush
  · intro found hfound
    apply RuleServes.expect
    intro _
    exact RuleServes.pure (suits_flatMap.2 fun p hp => hfound p (Array.mem_toList_iff.1 hp))

theorem serves_skipModifier : Serves U n skipModifier Always := by
  apply Serves.look
  intro follows
  split
  · apply Serves.advance.bind
    intro modifier _
    split
    · exact Serves.report _
    · exact Serves.pure trivial
  · exact Serves.pure trivial

theorem serves_optionalBody (G : Growth U) (n : Nat) :
    RuleServes U n optionalBody fun ss => ∀ s ∈ ss, G.Fits n (.statement s) := by
  apply RuleServes.look
  intro found
  split
  · exact serves_body G n
  · exact RuleServes.pure (by simp)

theorem serves_returnName : RuleServes U n returnName Always := by
  apply RuleServes.look
  intro follows
  split
  · exact (serves_declaredName _).bind fun _ _ => RuleServes.pure trivial
  · exact RuleServes.pure trivial

theorem serves_returnType (G : Growth U) (n : Nat) :
    RuleServes U n returnType fun t? => G.Suits n (t?.toList.map .dataType) := by
  apply RuleServes.accept_ite
  · exact (serves_dataType G n).map fun t ht => suits_dataType.2 ht
  · exact RuleServes.pure (G.suits_nil n)

theorem serves_procedureWord : RuleServes U n procedureWord Always := by
  apply RuleServes.accept_ite
  · exact RuleServes.pure trivial
  · apply RuleServes.expect
    intro _
    exact RuleServes.pure trivial

theorem suits_body {locals : List Variable} {body : List Statement} (hlocals : G.Suits n (locals.flatMap Variable.nodes))
    (hbody : ∀ s ∈ body, G.Fits n (.statement s)) : G.Suits n (bodyNodes locals body) :=
  suits_append.2 ⟨hlocals, suits_statements.2 hbody⟩

theorem serves_declarationEnd {α : Type} {Q : α → Prop} (G : Growth U) (start : Nat)
    {make : List Variable → List Statement → Text.Span → α}
    (hmake : ∀ {locals body span}, G.Suits n (bodyNodes locals body) → Q (make locals body span)) :
    RuleServes U n (declarationEnd start make) Q := by
  apply RuleServes.andThen serves_semicolon
  intro _
  apply RuleServes.step (serves_optionalVariables G n)
  intro locals hlocals
  apply (serves_optionalBody G n).bind
  intro body hbody
  apply RuleServes.accept
  intro _
  apply RuleServes.look
  intro span
  exact RuleServes.pure (hmake (suits_body hlocals hbody))

theorem serves_procedure (G : Growth U) (n : Nat) : RuleServes U n procedure fun p => G.Suits n p.nodes := by
  rw [procedure_eq]
  apply RuleServes.look
  intro start
  apply RuleServes.andThen serves_skipModifier
  intro _
  apply RuleServes.accept
  intro isLocal
  apply serves_procedureWord.bind
  intro _ _
  apply (serves_declaredName _).bind
  rintro ⟨name, id⟩ _
  apply (serves_parameterList G n).bind
  intro parameters hparameters
  apply serves_returnName.bind
  intro returnName _
  apply (serves_returnType G n).bind
  intro returnType hreturnType
  exact serves_declarationEnd G start fun hbody => suits_append.2 ⟨suits_append.2 ⟨hparameters, hreturnType⟩, hbody⟩

theorem serves_triggerBody (G : Growth U) (n : Nat) :
    RuleServes U n triggerBody fun t => G.Suits n (bodyNodes t.1 t.2) := by
  apply RuleServes.step (serves_optionalVariables G n)
  intro locals hlocals
  apply (serves_body G n).bind
  intro body hbody
  exact RuleServes.pure (suits_body hlocals hbody)

theorem serves_triggerName : RuleServes U n triggerName Always := by
  apply RuleServes.look
  intro t
  apply (serves_declaredName _).bind
  rintro ⟨name, _⟩ _
  dsimp only
  split
  · exact RuleServes.pure trivial
  · apply RuleServes.report
    exact RuleServes.pure trivial

theorem serves_emptyParentheses : RuleServes U n emptyParentheses Always := by
  apply RuleServes.accept_ite
  · apply RuleServes.expect
    intro _
    exact RuleServes.pure trivial
  · exact RuleServes.pure trivial

theorem serves_trigger (G : Growth U) (n : Nat) : RuleServes U n trigger fun t => G.Suits n t.nodes := by
  rw [trigger_eq]
  apply RuleServes.look
  intro start
  apply RuleServes.expect
  intro _
  apply serves_triggerName.bind
  intro name _
  apply serves_emptyParentheses.bind
  intro _ _
  exact serves_declarationEnd G start fun hbody => hbody

theorem serves_numberedName (role : String) : RuleServes U n (numberedName role) Always := by
  apply RuleServes.look
  intro t
  split
  · apply RuleServes.advance
    intro _
    apply serves_autoNumber.bind
    intro number _
    split
    · exact RuleServes.pure trivial
    · exact RuleServes.pure trivial
  · exact RuleServes.throw _

theorem serves_optionalParameters (G : Growth U) (n : Nat) :
    RuleServes U n optionalParameters fun ps => G.Suits n (ps.flatMap Parameter.nodes) := by
  apply RuleServes.look
  intro found
  split
  · exact serves_parameterList G n
  · exact RuleServes.pure (G.suits_nil n)

theorem serves_event (G : Growth U) (n : Nat) : RuleServes U n event fun e => G.Suits n e.nodes := by
  rw [event_eq]
  apply RuleServes.look
  intro start
  apply RuleServes.expect
  intro _
  apply (serves_numberedName _).bind
  intro subscriber _
  apply RuleServes.expect
  intro _
  apply (serves_numberedName _).bind
  intro name _
  apply (serves_optionalParameters G n).bind
  intro parameters hparameters
  exact serves_declarationEnd G start fun hbody => suits_append.2 ⟨hparameters, hbody⟩

theorem moves_skipAttributes : Moves skipAttributes := by
  apply Moves.look
  intro start
  apply (Moves.loop _ _).bind
  · intro _
    apply Moves.look
    intro passed
    exact Moves.note _
  · intro depth
    apply Moves.look
    intro atEnd
    split
    · exact Moves.pure _
    · apply Moves.advance.bind
      intro t
      split
      · exact Moves.pure _
      · exact Moves.pure _
      · exact Moves.pure _

def resumeDeclaration (start depth : Nat) : Parse Unit := do
  forceProgress start
  skipDeclaration depth
  let count ← passedSince start
  if 0 < count then
    note ((Event.debug "Recovered from malformed declaration").set "tokens" (toString count))

theorem serves_resumeDeclaration (start depth : Nat) : Serves U.reported n (resumeDeclaration start depth) Always := by
  apply (Serves.moves (moves_forceProgress start)).bind
  intro _ _
  apply (serves_skipDeclaration depth).bind
  intro _ _
  apply Serves.look
  intro count
  split
  · exact Serves.note _
  · exact Serves.pure trivial

theorem serves_recoverDeclaration (fault : Fault) (start depth : Nat) :
    Serves U n (recoverDeclaration fault start depth) Always :=
  Serves.report_then fault (serves_resumeDeclaration start depth)

theorem serves_declaration (G : Growth U) (n : Nat) : RuleServes U n declaration fun d => G.Suits n d.nodes := by
  apply RuleServes.look
  intro t
  split
  · exact (serves_trigger G n).map fun _ h => h
  · exact (serves_event G n).map fun _ h => h
  · split
    · exact (serves_procedure G n).map fun _ h => h
    · exact RuleServes.throw _
  · apply RuleServes.look
    intro follows
    split
    · exact (serves_procedure G n).map fun _ h => h
    · exact RuleServes.throw _

theorem serves_codeItems (G : Growth U) (n depth : Nat) :
    Serves U n (codeItems depth) fun items => G.Suits n (items.flatMap CodeItem.nodes) := by
  apply Serves.bind (R := fun (found : Array CodeItem) => ∀ item ∈ found, G.Suits n item.nodes)
  · apply Serves.loop (by simp)
    intro found hfound
    have hpush : ∀ item : CodeItem, G.Suits n item.nodes → ∀ x ∈ found.push item, G.Suits n x.nodes :=
      fun _ => forall_mem_push hfound
    apply Serves.look
    intro head
    cases head with
    | stop => exact Serves.pure hfound
    | globals =>
        apply Serves.advance.bind
        intro _ _
        apply (serves_variableBlock G n).bind
        intro declared hdeclared
        exact Serves.pure (hpush (.globals declared) hdeclared)
    | attributes => exact (Serves.moves moves_skipAttributes).bind fun _ _ => Serves.pure hfound
    | documentation => exact (Serves.moves (.advanceBy 3)).bind fun _ _ => Serves.pure hfound
    | declaration =>
        apply Serves.look
        intro start
        apply Serves.attempt (serves_declaration G n)
        · intro item hitem
          exact Serves.pure (hpush item hitem)
        · intro fault
          exact (serves_recoverDeclaration fault start depth).bind fun _ _ => Serves.pure hfound
  · intro found hfound
    exact Serves.pure (suits_flatMap.2 fun item hitem => hfound item (Array.mem_toList_iff.1 hitem))

theorem serves_codeSection (G : Growth U) (n : Nat) : RuleServes U n codeSection fun c => G.Suits n c.nodes := by
  apply RuleServes.look
  intro start
  apply RuleServes.expect
  intro _
  apply RuleServes.expect
  intro _
  apply RuleServes.look
  intro depth
  apply RuleServes.step (serves_codeItems G n depth)
  intro items hitems
  apply RuleServes.expect
  intro _
  apply RuleServes.look
  intro span
  exact RuleServes.pure fun m hm => hitems m (CodeSection.mem_nodes_ofItems hm)

end CalExport.Rule
