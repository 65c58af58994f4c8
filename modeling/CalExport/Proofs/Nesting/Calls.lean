import CalExport.Proofs.Nesting.Object

namespace CalExport.Rule

namespace RuleName

/-- Rules by their names that do what these stand for, from states with so many levels left. -/
def StandsFor (n : Nat) (call : ∀ b : RuleName, Rule b.Result) : Prop :=
  ∀ b (s : Parser), s.freeLevels = n → call b s = b.rule s

theorem standsFor_ruleAt (n : Nat) : StandsFor n (·.ruleAt n) := by
  intro b s hs
  rw [rule, hs]

theorem standsFor_fromStatement (n : Nat) : StandsFor n (fromStatement n) := by
  intro b s hs
  unfold fromStatement
  split
  · rfl
  · rfl
  · rfl
  · exact standsFor_ruleAt n _ s hs

theorem standsFor_fromDeclaration (n : Nat) : StandsFor n (fromDeclaration n) := by
  intro b s hs
  unfold fromDeclaration
  split
  · rfl
  · rfl
  · exact standsFor_ruleAt n _ s hs

structure Written (b : RuleName) where
  script : Script b.rank b.Result
  run_eq (n : Nat) : ∃ call, StandsFor n call ∧ script.run call (guardAt n) = b.ruleAt n

namespace Written

variable {b : RuleName}

def atLevel (script : Script b.rank b.Result) (h : ∀ n, script.run (·.ruleAt n) (guardAt n) = b.ruleAt n) : Written b :=
  ⟨script, fun n => ⟨_, standsFor_ruleAt n, h n⟩⟩

def ofStatement (script : Script b.rank b.Result) (h : ∀ n, script.run (fromStatement n) (guardAt n) = b.ruleAt n) :
    Written b :=
  ⟨script, fun n => ⟨_, standsFor_fromStatement n, h n⟩⟩

def ofDeclaration (script : Script b.rank b.Result)
    (h : ∀ n, script.run (fromDeclaration n) (guardAt n) = b.ruleAt n) : Written b :=
  ⟨script, fun n => ⟨_, standsFor_fromDeclaration n, h n⟩⟩

end Written

open Script in
def written : (b : RuleName) → Written b
  | .expression => .atLevel _ run_expression
  | .wholeExpression => .atLevel _ run_wholeExpression
  | .ternary => .atLevel _ run_ternary
  | .disjunction => .atLevel _ run_disjunction
  | .conjunction => .atLevel _ run_conjunction
  | .equality => .atLevel _ run_equality
  | .relation => .atLevel _ run_relation
  | .sum => .atLevel _ run_sum
  | .product => .atLevel _ run_product
  | .unary => .atLevel _ run_unary
  | .operand => .atLevel _ run_operand
  | .primary => .atLevel _ run_primary
  | .parenthesized => .atLevel _ run_parenthesized
  | .setLiteral => .atLevel _ run_setLiteral
  | .element => .atLevel _ run_element
  | .rangeEnd => .atLevel _ run_rangeEnd
  | .dataType => .atLevel _ run_dataType
  | .arrayType => .atLevel _ run_arrayType
  | .statement => .ofStatement _ run_statement
  | .statementKind => .ofStatement _ run_statementKind
  | .assignmentOrCall => .ofStatement _ run_assignmentOrCall
  | .exitValue => .ofStatement _ run_exitValue
  | .exitStatement => .ofStatement _ run_exitStatement
  | .counter => .ofStatement _ run_counter
  | .statements => .ofStatement _ run_statements
  | .body => .ofStatement _ run_body
  | .block => .ofStatement _ run_block
  | .branch => .ofStatement _ run_branch
  | .elseBranch => .ofStatement _ run_elseBranch
  | .ifThen => .ofStatement _ run_ifThen
  | .whileDo => .ofStatement _ run_whileDo
  | .repeatUntil => .ofStatement _ run_repeatUntil
  | .forDo => .ofStatement _ run_forDo
  | .withDo => .ofStatement _ run_withDo
  | .caseBranch => .ofStatement _ run_caseBranch
  | .caseBranches => .ofStatement _ run_caseBranches
  | .otherwise => .ofStatement _ run_otherwise
  | .caseOf => .ofStatement _ run_caseOf
  | .variableDeclaration => .ofDeclaration _ run_variableDeclaration
  | .variableBlock => .ofDeclaration _ run_variableBlock
  | .optionalVariables => .ofDeclaration _ run_optionalVariables
  | .parameter => .ofDeclaration _ run_parameter
  | .parameterList => .ofDeclaration _ run_parameterList
  | .optionalParameters => .ofDeclaration _ run_optionalParameters
  | .returnType => .ofDeclaration _ run_returnType
  | .optionalBody => .ofDeclaration _ run_optionalBody
  | .procedure => .ofDeclaration _ run_procedure
  | .triggerBody => .ofDeclaration _ run_triggerBody
  | .trigger => .ofDeclaration _ run_trigger
  | .event => .ofDeclaration _ run_event
  | .declaration => .ofDeclaration _ run_declaration
  | .codeItems depth => .ofDeclaration _ (run_codeItems · depth)
  | .codeSection => .ofDeclaration _ run_codeSection
  | .propertyValue => .ofDeclaration _ run_propertyValue
  | .property => .ofDeclaration _ run_property
  | .propertyList => .ofDeclaration _ run_propertyList
  | .lastProperties => .ofDeclaration _ run_lastProperties
  | .propertiesSection => .ofDeclaration _ run_propertiesSection
  | .fieldColumns => .ofDeclaration _ run_fieldColumns
  | .field => .ofDeclaration _ run_field
  | .keyColumns => .ofDeclaration _ run_keyColumns
  | .key => .ofDeclaration _ run_key
  | .sectionOf depth head => .ofDeclaration _ (run_sectionOf · depth head)
  | .sections depth => .ofDeclaration _ (run_sections · depth)
  | .objectBody => .ofDeclaration _ run_objectBody
  | .object => .ofDeclaration _ run_object
  | .reportedObject => .ofDeclaration _ run_reportedObject
  | .document => .ofDeclaration _ run_document

def script (b : RuleName) : Script b.rank b.Result := b.written.script

end RuleName

open RuleName (ruleAt rule guardAt)

/-- Runs a script, with the rules that its calls stand for. -/
def Script.exec {r : Nat} {α : Type} (x : Script r α) : Rule α := x.run rule fun b => nested b.rule

/-- Two runs of a script do the same when its calls do. -/
theorem Script.run_same {r n : Nat} {call call' guarded guarded' : ∀ b : RuleName, Rule b.Result}
    (hcall : ∀ b : RuleName, b.rank < r → SameAt n (call b) (call' b))
    (hguarded : ∀ b, SameAt n (guarded b) (guarded' b)) {α : Type} (x : Script r α) :
    SameAt n (x.run call guarded) (x.run call' guarded') := by
  induction x with
  | @step _ x flat => exact flat.same n
  | bind x f hx hf => exact hx.bind hf
  | attempt x hx => exact hx.attempt
  | loop a round hround => exact .loop hround a
  | call b lower => exact hcall b lower
  | guarded b => exact hguarded b

/-- One level deeper a rule is called with one level less. -/
theorem same_guardAt {n : Nat} {b : RuleName} (h : ∀ m < n, SameAt m (b.ruleAt m) b.script.exec) :
    SameAt n (guardAt n b) (nested b.rule) := by
  intro s hs
  cases n with
  | zero =>
    have hdeep : ¬ s.nesting < maxNesting := Nat.not_lt.2 (Nat.le_of_sub_eq_zero hs)
    rw [nested_tooDeep _ _ hdeep]
    exact ⟨rfl, rfl⟩
  | succ m =>
    have hroom : s.nesting < maxNesting := Parser.nesting_lt_of_freeLevels hs
    have hfree : (s.withNesting (s.nesting + 1)).freeLevels = m := Parser.freeLevels_deeper hs
    obtain ⟨hsame, hback⟩ := h m (Nat.lt_succ_self m) _ hfree
    have hrule : nested (b.ruleAt m) s = nested b.rule s := by
      rw [nested_apply _ _ hroom, nested_apply _ _ hroom, rule, hfree]
    refine ⟨hrule, ?_⟩
    rw [← hrule, nested_apply _ _ hroom, Parser.nesting_withNesting, hsame, hback, Parser.nesting_withNesting,
      Nat.add_sub_cancel]

theorem RuleName.ruleAt_same (n : Nat) (b : RuleName) : SameAt n (b.ruleAt n) b.script.exec := by
  obtain ⟨call, hcall, hrun⟩ := b.written.run_eq n
  rw [← hrun]
  refine Script.run_same (fun c hc s hs => ⟨hcall c s hs, ?_⟩) (fun c => same_guardAt fun m hm => ruleAt_same m c) _
  obtain ⟨hsame, hback⟩ := ruleAt_same n c s hs
  rw [rule, hs, hsame, hback]
-- Deeper levels first, and within one level the rules of lower ranks.
termination_by (n, b.rank)

/-- A rule is its script. -/
theorem RuleName.rule_eq (b : RuleName) : b.rule = b.script.exec :=
  funext fun s => (b.ruleAt_same s.freeLevels s rfl).1

theorem RuleName.rule_same (n : Nat) (b : RuleName) : SameAt n b.rule b.rule :=
  .of_eq fun s => by
    rw [b.rule_eq]
    exact (b.ruleAt_same s.freeLevels s rfl).2

/-- Whatever a script calls, it comes back to the level it started on. -/
theorem Script.exec_same {r : Nat} {α : Type} (n : Nat) (x : Script r α) : SameAt n x.exec x.exec :=
  Script.run_same (fun b _ => b.rule_same n) (fun b => (same_guardAt fun m _ => b.ruleAt_same m).right) x

end CalExport.Rule
