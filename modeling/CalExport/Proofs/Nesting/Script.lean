import CalExport.Proofs.Nesting.Flat

namespace CalExport.Rule

open Text

/-- The rules that call others, down to those that enter a nesting level. -/
inductive RuleName
  | expression | wholeExpression | ternary | disjunction | conjunction | equality | relation | sum | product | unary
  | operand | primary | parenthesized | setLiteral | element | rangeEnd
  | dataType | arrayType
  | statement | statementKind | assignmentOrCall | exitValue | exitStatement | counter | statements | body | block
  | branch | elseBranch | ifThen | whileDo | repeatUntil | forDo | withDo | caseBranch | caseBranches | otherwise
  | caseOf
  | variableDeclaration | variableBlock | optionalVariables | parameter | parameterList | optionalParameters
  | returnType | optionalBody | procedure | triggerBody | trigger | event | declaration
  | codeItems (depth : Nat)
  | codeSection
  | propertyValue | property | propertyList | lastProperties | propertiesSection | fieldColumns | field | keyColumns
  | key
  | sectionOf (depth : Nat) (head : SectionHead)
  | sections (depth : Nat)
  | objectBody | object | reportedObject | document
deriving DecidableEq, Repr

namespace RuleName

abbrev Result : RuleName → Type
  | .expression | .wholeExpression | .disjunction | .conjunction | .equality | .relation | .sum | .product | .unary
  | .operand | .primary | .parenthesized | .setLiteral | .element | .counter => Expr
  | .ternary => Unit
  | .dataType | .arrayType => DataType
  | .statement | .statementKind | .assignmentOrCall | .exitStatement | .block | .branch | .ifThen | .whileDo
  | .repeatUntil | .forDo | .withDo | .caseOf => Statement
  | .rangeEnd | .exitValue => Option Expr
  | .statements | .body | .optionalBody => List Statement
  | .elseBranch => Option Statement
  | .caseBranch => CaseBranch
  | .caseBranches => List CaseBranch
  | .otherwise => Option (List Statement)
  | .variableDeclaration => Variable
  | .variableBlock | .optionalVariables => List Variable
  | .parameter => Parameter
  | .parameterList | .optionalParameters => List Parameter
  | .returnType => Option DataType
  | .procedure => Procedure
  | .triggerBody => List Variable × List Statement
  | .trigger => Trigger
  | .event => EventHandler
  | .declaration => CodeItem
  | .codeItems _ => List CodeItem
  | .codeSection => CodeSection
  | .propertyValue => PropertyValue
  | .property => Property
  | .propertyList | .lastProperties | .propertiesSection => List Property
  | .fieldColumns => Span → Field
  | .field => Field
  | .keyColumns => Span → Key
  | .key => Key
  | .sectionOf _ _ => ObjectSection
  | .sections _ => List ObjectSection
  | .objectBody => Span → ExportObject
  | .object => ExportObject
  | .reportedObject => Option ExportObject
  | .document => Document

abbrev rank : RuleName → Nat
  | .expression | .statement | .arrayType => 0
  | .rangeEnd | .parenthesized | .dataType | .exitValue | .statements | .branch => 1
  | .element | .exitStatement | .body | .elseBranch | .whileDo | .repeatUntil | .withDo | .otherwise
  | .variableDeclaration | .parameter | .returnType => 2
  | .setLiteral | .caseBranch | .block | .ifThen | .variableBlock | .parameterList | .optionalBody => 3
  | .primary | .caseBranches | .optionalVariables | .optionalParameters => 4
  | .operand | .caseOf | .procedure | .triggerBody | .trigger | .event => 5
  | .unary | .assignmentOrCall | .counter | .declaration | .propertyValue => 6
  | .product | .forDo | .codeItems _ | .property => 7
  | .sum | .statementKind | .codeSection | .propertyList => 8
  | .relation | .lastProperties | .propertiesSection => 9
  | .equality | .fieldColumns | .keyColumns => 10
  | .conjunction | .field | .key => 11
  | .disjunction | .sectionOf _ _ => 12
  | .ternary | .sections _ => 13
  | .wholeExpression | .objectBody => 14
  | .object => 15
  | .reportedObject => 16
  | .document => 17

/-- What a name stands for where so many levels are left. Only rules for expressions, statements and types depend on
their number. -/
def ruleAt (b : RuleName) (n : Nat) : Rule b.Result :=
  match b with
  | .expression => (deeper n).expression
  | .wholeExpression => expressionWith (deeper n)
  | .ternary => ternaryWith (deeper n)
  | .disjunction => disjunctionWith (deeper n)
  | .conjunction => conjunctionWith (deeper n)
  | .equality => equalityWith (deeper n)
  | .relation => relationWith (deeper n)
  | .sum => sumWith (deeper n)
  | .product => productWith (deeper n)
  | .unary => unaryWith (deeper n)
  | .operand => operandWith (deeper n)
  | .primary => primaryWith (deeper n)
  | .parenthesized => parenthesizedWith (deeper n)
  | .setLiteral => setLiteralWith (deeper n)
  | .element => elementWith (deeper n)
  | .rangeEnd => rangeEndWith (deeper n)
  | .dataType => dataTypeWith (elementType n)
  | .arrayType => Rule.arrayType (elementType n)
  | .statement => statementAt n
  | .statementKind => statementWith (statementAt n)
  | .assignmentOrCall => Rule.assignmentOrCall
  | .exitValue => Rule.exitValue
  | .exitStatement => Rule.exitStatement
  | .counter => Rule.counter
  | .statements => liftM (listWith (statementAt n))
  | .body => bodyWith (statementAt n)
  | .block => blockWith (statementAt n)
  | .branch => branchWith (statementAt n)
  | .elseBranch => elseWith (statementAt n)
  | .ifThen => ifWith (statementAt n)
  | .whileDo => whileWith (statementAt n)
  | .repeatUntil => repeatWith (statementAt n)
  | .forDo => forWith (statementAt n)
  | .withDo => withWith (statementAt n)
  | .caseBranch => caseBranchWith (statementAt n)
  | .caseBranches => liftM (caseBranchesWith (statementAt n))
  | .otherwise => liftM (otherwiseWith (statementAt n))
  | .caseOf => caseWith (statementAt n)
  | .variableDeclaration => Rule.variableDeclaration
  | .variableBlock => liftM Rule.variableBlock
  | .optionalVariables => liftM Rule.optionalVariables
  | .parameter => Rule.parameter
  | .parameterList => Rule.parameterList
  | .optionalParameters => Rule.optionalParameters
  | .returnType => Rule.returnType
  | .optionalBody => Rule.optionalBody
  | .procedure => Rule.procedure
  | .triggerBody => Rule.triggerBody
  | .trigger => Rule.trigger
  | .event => Rule.event
  | .declaration => Rule.declaration
  | .codeItems depth => liftM (Rule.codeItems depth)
  | .codeSection => Rule.codeSection
  | .propertyValue => Rule.propertyValue
  | .property => Rule.property
  | .propertyList => liftM Rule.propertyList
  | .lastProperties => liftM Rule.lastProperties
  | .propertiesSection => Rule.propertiesSection
  | .fieldColumns => Rule.fieldColumns
  | .field => Rule.field
  | .keyColumns => Rule.keyColumns
  | .key => Rule.key
  | .sectionOf depth head => sectionRule depth head
  | .sections depth => liftM (Rule.sections depth)
  | .objectBody => Rule.objectBody
  | .object => Rule.object
  | .reportedObject => liftM Rule.reportedObject
  | .document => liftM Rule.document

/-- What a name stands for: the rule for the levels that are left in a state. -/
def rule (b : RuleName) : Rule b.Result := fun s => b.ruleAt s.freeLevels s

def guardAt : Nat → (b : RuleName) → Rule b.Result
  | 0, _ => tooDeep
  | n + 1, b => nested (b.ruleAt n)

end RuleName

/-- A rule as the steps and calls it is made of. It calls rules below a rank. -/
inductive Script (rank : Nat) : Type → Type 1
  | step {α : Type} (x : Rule α) [flat : Flat x] : Script rank α
  | bind {α β : Type} (x : Script rank α) (f : α → Script rank β) : Script rank β
  | attempt {α : Type} (x : Script rank α) : Script rank (Except Fault α)
  | loop {α : Type} (a : α) (round : α → Script rank (ForInStep α)) : Script rank α
  | call (b : RuleName) (lower : b.rank < rank := by exact Nat.le_of_ble_eq_true rfl) : Script rank b.Result
  /-- One nesting level deeper, with a rule of any rank. -/
  | guarded (b : RuleName) : Script rank b.Result

namespace Script

variable {r : Nat} {α β : Type}

instance : Monad (Script r) where
  pure a := .step (pure a)
  bind := .bind

/-- Runs a script. What the calls do is given by name. -/
def run (call guarded : ∀ b : RuleName, Rule b.Result) {α : Type} : Script r α → Rule α
  | @step _ _ x _ => x
  | .bind x f => x.run call guarded >>= fun a => (f a).run call guarded
  | .attempt x => liftM (Rule.attempt (x.run call guarded))
  | .loop a round => tryLoop a fun b => (round b).run call guarded
  | .call b _ => call b
  | .guarded b => guarded b

def leftAssoc (operator? : Kind → Option BinaryOp) (operand : Script r Expr) (right : BinaryOp → Script r Expr) :
    Script r Expr := do
  .loop (← operand) fun left => do
    match operator? (← .step peekKind) with
    | none => return .done left
    | some op =>
      let _ ← .step advance
      return .yield (.join op left (← right op))

def commaSeparated (item : Script r α) : Script r (List α) := do
  let items ← .loop (#[] : Array α) fun items => do
    let next ← item
    if ← .step (accept .comma) then return .yield (items.push next) else return .done (items.push next)
  return items.toList

def listUpTo (close : Kind) (item : Script r α) : Script r (List α) := do
  if ← .step (check close) then return [] else commaSeparated item

def collect (round : Array α → Script r (ForInStep (Array α))) : Script r (List α) := do
  return (← .loop #[] round).toList

def withRecovery (recovery : List Kind) (item : Script r α) : Script r (Option α) := do
  let base ← .step depth
  let start ← .step here
  match ← .attempt item with
  | .ok a => return some a
  | .error fault =>
    .step (report fault)
    .step (recoverItem base start recovery)
    return none

def bracedEntries (item : Script r α) : Script r (List α) := collect fun found => do
  let kind ← .step peekKind
  if kind = .eof ∨ kind = .rightBrace then return .done found
  else if kind = .leftBrace then
    match ← withRecovery [.leftBrace] item with
    | some entry => return .yield (found.push entry)
    | none => return .yield found
  else
    .step skipStray
    return .yield found

def bracedSection (keyword : Keyword) (item : Script r α) : Script r (List α) := do
  let _ ← .step (expect (.keyword keyword))
  let _ ← .step (expect .leftBrace)
  let entries ← bracedEntries item
  let _ ← .step (expect .rightBrace)
  return entries

def braced (contents : Script r (Span → α)) : Script r α := do
  let start ← .step here
  let _ ← .step (expect .leftBrace)
  let value ← contents
  let _ ← .step (expect .rightBrace)
  return value (← .step (spanFrom start))

section

variable (call guarded : ∀ b : RuleName, Rule b.Result)

@[simp] theorem run_step (x : Rule α) [Flat x] : (step x : Script r α).run call guarded = x := rfl

@[simp] theorem run_pure (a : α) : (pure a : Script r α).run call guarded = pure a := rfl

@[simp] theorem run_bind (x : Script r α) (f : α → Script r β) :
    (x >>= f).run call guarded = x.run call guarded >>= fun a => (f a).run call guarded := rfl

@[simp] theorem run_map (f : α → β) (x : Script r α) : (f <$> x).run call guarded = f <$> x.run call guarded := rfl

@[simp] theorem run_loop (a : α) (round : α → Script r (ForInStep α)) :
    (loop a round).run call guarded = tryLoop a fun b => (round b).run call guarded := rfl

@[simp] theorem run_ite {c : Prop} [Decidable c] (x y : Script r α) :
    (if c then x else y).run call guarded = if c then x.run call guarded else y.run call guarded := by
  split <;> rfl

@[simp] theorem run_leftAssoc (operator? : Kind → Option BinaryOp) (operand : Script r Expr)
    (right : BinaryOp → Script r Expr) :
    (leftAssoc operator? operand right).run call guarded =
      Rule.leftAssoc operator? (operand.run call guarded) fun op => (right op).run call guarded := by
  refine bind_congr fun first => congrArg (tryLoop first) (funext fun left => bind_congr fun kind => ?_)
  cases h : operator? kind <;> simp only [h] <;> rfl

@[simp] theorem run_commaSeparated (item : Script r α) :
    (commaSeparated item).run call guarded = Rule.commaSeparated (item.run call guarded) := by
  simp only [commaSeparated, run_bind, run_loop, run_ite, run_step, run_pure]
  rfl

@[simp] theorem run_listUpTo (close : Kind) (item : Script r α) :
    (listUpTo close item).run call guarded = Rule.listUpTo close (item.run call guarded) := by
  simp only [listUpTo, run_bind, run_ite, run_commaSeparated]
  rfl

theorem run_collect {round : Array α → Script r (ForInStep (Array α))} {x : Array α → Parse (ForInStep (Array α))}
    (h : ∀ found, (round found).run call guarded = liftM (x found)) :
    (collect round).run call guarded = liftM (do return (← Rule.loop #[] x).toList : Parse (List α)) := by
  rw [liftM_bind, liftM_loop, ← funext h]
  rfl

@[simp] theorem run_withRecovery (recovery : List Kind) (item : Script r α) :
    (withRecovery recovery item).run call guarded = liftM (Rule.withRecovery recovery (item.run call guarded)) := by
  simp only [withRecovery, Rule.withRecovery, liftM_bind, run_bind]
  refine bind_congr fun base => bind_congr fun start => bind_congr fun result => ?_
  cases result <;> rfl

@[simp] theorem run_bracedEntries (item : Script r α) :
    (bracedEntries item).run call guarded = liftM (Rule.bracedEntries (item.run call guarded)) := by
  refine run_collect _ _ fun found => ?_
  simp only [entryRound, liftM_bind, liftM_ite, run_ite, run_bind, run_withRecovery]
  refine bind_congr fun kind => ?_
  split
  · rfl
  · split
    · refine bind_congr fun entry => ?_
      cases entry <;> rfl
    · rfl

@[simp] theorem run_bracedSection (keyword : Keyword) (item : Script r α) :
    (bracedSection keyword item).run call guarded = Rule.bracedSection keyword (item.run call guarded) := by
  simp only [bracedSection, run_bind, run_bracedEntries]
  rfl

end

end Script

end CalExport.Rule
