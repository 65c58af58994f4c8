import CalExport.Proofs.Expression.RoundTrip
import CalExport.Statement.Rule

namespace CalExport

def AssignOp.kind : AssignOp → Kind
  | .assign => .assign
  | .add => .plusAssign
  | .subtract => .minusAssign
  | .multiply => .timesAssign
  | .divide => .divideAssign

def Direction.kind : Direction → Kind
  | .up => .keyword .to
  | .down => .keyword .downTo

namespace Statement

mutual

def unplaced : Statement → Statement
  | .block statements _ => .block (unplacedAll statements) default
  | .ifThen condition thenBranch none _ => .ifThen condition.unplaced thenBranch.unplaced none default
  | .ifThen condition thenBranch (some elseBranch) _ =>
    .ifThen condition.unplaced thenBranch.unplaced (some elseBranch.unplaced) default
  | .whileDo condition body _ => .whileDo condition.unplaced body.unplaced default
  | .repeatUntil body condition _ => .repeatUntil (unplacedAll body) condition.unplaced default
  | .forDo counter first last direction body _ =>
    .forDo counter.unplaced first.unplaced last.unplaced direction body.unplaced default
  | .caseOf subject branches none _ => .caseOf subject.unplaced (unplacedBranches branches) none default
  | .caseOf subject branches (some statements) _ =>
    .caseOf subject.unplaced (unplacedBranches branches) (some (unplacedAll statements)) default
  | .exit value _ => .exit (value.map Expr.unplaced) default
  | .break_ _ => .break_ default
  | .withDo record body _ => .withDo record.unplaced body.unplaced default
  | .assign target op value _ => .assign target.unplaced op value.unplaced default
  | .call expression _ => .call expression.unplaced default
  | .empty _ => .empty default

def unplacedAll : List Statement → List Statement
  | [] => []
  | s :: rest => s.unplaced :: unplacedAll rest

def unplacedBranches : List CaseBranch → List CaseBranch
  | [] => []
  | .mk values statement _ :: rest =>
    .mk (values.map Expr.unplaced) statement.unplaced default :: unplacedBranches rest

end

/-- What stands behind the operator of an assignment: the right operand of the value where the operator is compound. -/
def assigned (op : AssignOp) (value : Expr) : Expr :=
  match op.binary?, value with
  | some _, .binary _ _ right _ => right
  | _, value => value

def Desugars (op : AssignOp) (target value : Expr) : Prop :=
  ∀ binary ∈ op.binary?, ∃ left right span, value = .binary binary left right span ∧ left.unplaced = target.unplaced

def isEmpty : Statement → Bool
  | .empty _ => true
  | _ => false

mutual

def signs : Statement → List Sign
  | .block statements _ => .mark (.keyword .begin_) :: (signsAll statements ++ [.mark (.keyword .end_)])
  | .ifThen condition thenBranch none _ =>
    .mark (.keyword .if_) :: (condition.signs ++ .mark (.keyword .then_) :: thenBranch.signs)
  | .ifThen condition thenBranch (some elseBranch) _ =>
    .mark (.keyword .if_) :: (condition.signs ++ .mark (.keyword .then_) ::
      (thenBranch.signs ++ .mark (.keyword .else_) :: elseBranch.signs))
  | .whileDo condition body _ =>
    .mark (.keyword .while_) :: (condition.signs ++ .mark (.keyword .do_) :: body.signs)
  | .repeatUntil body condition _ =>
    .mark (.keyword .repeat_) :: (signsAll body ++ .mark (.keyword .until_) :: condition.signs)
  | .forDo counter first last direction body _ =>
    .mark (.keyword .for_) :: (counter.signs ++ .mark .assign :: (first.signs ++ .mark direction.kind ::
      (last.signs ++ .mark (.keyword .do_) :: body.signs)))
  | .caseOf subject branches none _ =>
    .mark (.keyword .case_) :: (subject.signs ++ .mark (.keyword .of) ::
      (signsBranches branches ++ [.mark (.keyword .end_)]))
  | .caseOf subject branches (some statements) _ =>
    .mark (.keyword .case_) :: (subject.signs ++ .mark (.keyword .of) ::
      (signsBranches branches ++ .mark (.keyword .else_) :: (signsAll statements ++ [.mark (.keyword .end_)])))
  | .exit none _ => [.mark (.keyword .exit)]
  | .exit (some value) _ =>
    .mark (.keyword .exit) :: .mark .leftParen :: (value.signs ++ [.mark .rightParen])
  | .break_ _ => [.mark (.keyword .break_)]
  | .withDo record body _ => .mark (.keyword .with_) :: (record.signs ++ .mark (.keyword .do_) :: body.signs)
  | .assign target op value _ => target.signs ++ .mark op.kind :: (assigned op value).signs
  | .call expression _ => expression.signs
  | .empty _ => []

def signsAll : List Statement → List Sign
  | [] => []
  | s :: rest => s.signs ++ .mark .semicolon :: signsAll rest

def signsBranches : List CaseBranch → List Sign
  | [] => []
  | .mk values statement _ :: rest =>
    Expr.signsAll values ++ .mark .colon :: (statement.signs ++ .mark .semicolon :: signsBranches rest)

end

def endsOpen : Statement → Bool
  | .ifThen _ _ none _ => true
  | .ifThen _ _ (some elseBranch) _ => elseBranch.endsOpen
  | .whileDo _ body _ | .forDo _ _ _ _ body _ | .withDo _ body _ => body.endsOpen
  | _ => false

def isCounter : Expr → Bool
  | .identifier .. | .member _ _ false _ => true
  | _ => false

mutual

def Proper : Statement → Prop
  | .block statements _ => ProperAll statements
  | .ifThen condition thenBranch none _ => condition.proper false = true ∧ thenBranch.Proper
  | .ifThen condition thenBranch (some elseBranch) _ =>
    condition.proper false = true ∧ thenBranch.Proper ∧ elseBranch.Proper ∧ thenBranch.endsOpen = false
  | .whileDo condition body _ => condition.proper false = true ∧ body.Proper
  | .repeatUntil body condition _ => ProperAll body ∧ condition.proper false = true
  | .forDo counter first last _ body _ =>
    isCounter counter = true ∧ counter.proper false = true ∧ first.proper false = true ∧ last.proper false = true ∧
      body.Proper
  | .caseOf subject branches none _ => subject.proper false = true ∧ ProperBranches branches
  | .caseOf subject branches (some statements) _ =>
    subject.proper false = true ∧ ProperBranches branches ∧ ProperAll statements
  | .exit value _ => ∀ e ∈ value, e.proper false = true
  | .withDo record body _ => record.proper false = true ∧ body.Proper
  | .assign target op value _ =>
    target.level = 7 ∧ target.proper false = true ∧ Desugars op target value ∧ (assigned op value).proper false = true
  | .call expression _ => expression.level = 7 ∧ expression.proper false = true
  | .break_ _ | .empty _ => True

def ProperAll : List Statement → Prop
  | [] => True
  | s :: rest => s.Proper ∧ ProperAll rest

def ProperBranches : List CaseBranch → Prop
  | [] => True
  | .mk values statement _ :: rest =>
    values ≠ [] ∧ Expr.properAll true values = true ∧ statement.Proper ∧ ProperBranches rest

end

mutual

/-- The levels that a statement takes: one for itself, and in it one for each statement, each whole expression, and
each parenthesis, bracket, list of arguments or operator in front of an operand that stands in another. -/
def levels : Statement → Nat
  | .block statements _ => levelsAll statements + 1
  | .ifThen condition thenBranch none _ => max (condition.nesting + 1) thenBranch.levels + 1
  | .ifThen condition thenBranch (some elseBranch) _ =>
    max (condition.nesting + 1) (max thenBranch.levels elseBranch.levels) + 1
  | .whileDo condition body _ => max (condition.nesting + 1) body.levels + 1
  | .repeatUntil body condition _ => max (levelsAll body) (condition.nesting + 1) + 1
  | .forDo counter first last _ body _ =>
    max counter.nesting (max (first.nesting + 1) (max (last.nesting + 1) body.levels)) + 1
  | .caseOf subject branches none _ => max (subject.nesting + 1) (levelsBranches branches) + 1
  | .caseOf subject branches (some statements) _ =>
    max (subject.nesting + 1) (max (levelsBranches branches) (levelsAll statements)) + 1
  | .exit none _ | .break_ _ => 1
  | .exit (some value) _ => value.nesting + 2
  | .withDo record body _ => max (record.nesting + 1) body.levels + 1
  | .assign target op value _ => max target.nesting ((assigned op value).nesting + 1) + 1
  | .call expression _ => expression.nesting + 1
  | .empty _ => 0

def levelsAll : List Statement → Nat
  | [] => 0
  | s :: rest => max s.levels (levelsAll rest)

def levelsBranches : List CaseBranch → Nat
  | [] => 0
  | .mk values statement _ :: rest => max (Expr.nestingAll values + 1) (max statement.levels (levelsBranches rest))

end

@[simp] theorem unplacedAll_eq (ss : List Statement) : unplacedAll ss = ss.map unplaced := by
  induction ss with
  | nil => rfl
  | cons s ss ih => simp [unplacedAll, ih]

end Statement

def CaseBranch.unplaced : CaseBranch → CaseBranch
  | .mk values statement _ => .mk (values.map Expr.unplaced) statement.unplaced default

@[simp] theorem Statement.unplacedBranches_eq (branches : List CaseBranch) :
    unplacedBranches branches = branches.map CaseBranch.unplaced := by
  induction branches with
  | nil => rfl
  | cons branch branches ih =>
      cases branch
      simp [unplacedBranches, ih, CaseBranch.unplaced]

end CalExport
