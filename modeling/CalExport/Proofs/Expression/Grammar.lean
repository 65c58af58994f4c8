import CalExport.Proofs.Passing

namespace CalExport

namespace Expr

mutual

def unplaced : Expr → Expr
  | .identifier name _ => .identifier name default
  | .literal value text _ => .literal value text default
  | .binary op left right _ => .binary op left.unplaced right.unplaced default
  | .unary op operand _ => .unary op operand.unplaced default
  | .member object name qualified _ => .member object.unplaced name qualified default
  | .call callee arguments _ => .call callee.unplaced (unplacedAll arguments) default
  | .index array indices _ => .index array.unplaced (unplacedAll indices) default
  | .set elements _ => .set (unplacedAll elements) default
  | .range first last _ => .range (unplacedBound first) (unplacedBound last) default

def unplacedAll : List Expr → List Expr
  | [] => []
  | e :: rest => e.unplaced :: unplacedAll rest

def unplacedBound : Option Expr → Option Expr
  | none => none
  | some e => some e.unplaced

end

@[simp] theorem unplacedAll_eq (es : List Expr) : unplacedAll es = es.map unplaced := by
  induction es with
  | nil => rfl
  | cons e es ih => simp [unplacedAll, ih]

@[simp] theorem unplacedBound_eq (bound : Option Expr) : unplacedBound bound = bound.map unplaced := by
  cases bound <;> rfl

end Expr

def BinaryOp.kind : BinaryOp → Kind
  | .or => .keyword .or_
  | .xor => .keyword .xor_
  | .and => .keyword .and_
  | .equal => .equal
  | .notEqual => .notEqual
  | .less => .less
  | .lessEqual => .lessEqual
  | .greater => .greater
  | .greaterEqual => .greaterEqual
  | .isIn => .keyword .in_
  | .add => .plus
  | .subtract => .minus
  | .multiply => .times
  | .divide => .divide
  | .integerDivide => .keyword .div_
  | .modulo => .keyword .mod_

def BinaryOp.level : BinaryOp → Nat
  | .or | .xor => 0
  | .and => 1
  | .equal | .notEqual => 2
  | .less | .lessEqual | .greater | .greaterEqual | .isIn => 3
  | .add | .subtract => 4
  | .multiply | .divide | .integerDivide | .modulo => 5

def UnaryOp.kind : UnaryOp → Kind
  | .not => .keyword .not_
  | .negate => .minus
  | .plus => .plus

def Expr.level : Expr → Nat
  | .binary op .. => op.level
  | .unary .. => 6
  | _ => 7

namespace Rule

def literal? (t : Token) : Option Literal :=
  match t.kind with
  | .integer =>
    if digitsValue t.text ≤ 0x7fffffffffffffff then some (.integer (digitsValue t.text)) else none
  | .decimal => some (.decimal (decimalValue t.text))
  | .string => some (.string t.value)
  | .date => some (.date (withoutSuffix 1 t.text))
  | .time => some (.time (withoutSuffix 1 t.text))
  | .dateTime => some (.dateTime (withoutSuffix 2 t.text))
  | .keyword .true_ => some (.boolean true)
  | .keyword .false_ => some (.boolean false)
  | _ => none

/-- The operand that a token is by itself: a name, a keyword that may stand as a name, or a literal. -/
def leaf? (t : Token) : Option Expr :=
  match t.kind with
  | .identifier | .quotedIdentifier => some (.identifier t.value t.span)
  | .keyword .true_ | .keyword .false_ => (literal? t).map (.literal · t.text t.span)
  | .keyword k => if endsExpression k then none else some (.identifier t.text t.span)
  | _ => (literal? t).map (.literal · t.text t.span)

def Stands (t : Token) (e : Expr) : Prop := (leaf? t).map Expr.unplaced = some e.unplaced

def namesMember : Kind → Bool
  | .identifier | .quotedIdentifier | .keyword _ | .string | .integer => true
  | _ => false

inductive Separated {α : Type} (item : List Token → α → Prop) : List Token → List α → Prop
  | last {toks : List Token} {a : α} (h : item toks a) : Separated item toks [a]
  | cons {toks rest : List Token} {comma : Token} {a : α} {as : List α} (h : item toks a)
      (hcomma : comma.kind = .comma) (hrest : Separated item rest as) : Separated item (toks ++ comma :: rest) (a :: as)

inductive Listed {α : Type} (item : List Token → α → Prop) : List Token → List α → Prop
  | nil : Listed item [] []
  | separated {toks : List Token} {as : List α} (h : Separated item toks as) : Listed item toks as

/-- What tokens may be one level deeper: a whole expression, or the operand of an operator in front of it. -/
structure Forms where
  expression : List Token → Expr → Prop
  unary : List Token → Expr → Prop

section

variable (F : Forms)

inductive Element : List Token → Expr → Prop
  | single {toks e} (h : F.expression toks e) : Element toks e
  | upTo {dots toks last span} (hdots : dots.kind = .dotDot) (h : F.expression toks last) :
      Element (dots :: toks) (.range none (some last) span)
  | onwards {dots toks first span} (h : F.expression toks first) (hdots : dots.kind = .dotDot) :
      Element (toks ++ [dots]) (.range (some first) none span)
  | between {dots toks₁ toks₂ first last span} (h₁ : F.expression toks₁ first) (hdots : dots.kind = .dotDot)
      (h₂ : F.expression toks₂ last) : Element (toks₁ ++ dots :: toks₂) (.range (some first) (some last) span)

inductive SetForm : List Token → Expr → Prop
  | mk {opening closing toks elements span} (hopen : opening.kind = .leftBracket)
      (h : Listed (Element F) toks elements) (hclose : closing.kind = .rightBracket) :
      SetForm (opening :: (toks ++ [closing])) (.set elements span)

/-- `Phrase F k toks e`: the tokens are `e`, with no operator outside brackets that binds looser than level `k`. Behind
IN a bracket opens a set and nothing else. -/
inductive Phrase : Nat → List Token → Expr → Prop
  | leaf {t e} (h : Stands t e) : Phrase 7 [t] e
  | group {opening closing toks e} (hopen : opening.kind = .leftParen) (h : F.expression toks e)
      (hclose : closing.kind = .rightParen) : Phrase 7 (opening :: (toks ++ [closing])) e
  | set {toks e} (h : SetForm F toks e) : Phrase 7 toks e
  | member {toks e dot name qualified span} (h : Phrase 7 toks e)
      (hdot : dot.kind = if qualified then .doubleColon else .dot) (hname : namesMember name.kind = true) :
      Phrase 7 (toks ++ [dot, name]) (.member e name.value qualified span)
  | call {toks e opening closing args arguments span} (h : Phrase 7 toks e) (hopen : opening.kind = .leftParen)
      (hargs : Listed F.expression args arguments) (hclose : closing.kind = .rightParen) :
      Phrase 7 (toks ++ opening :: (args ++ [closing])) (.call e arguments span)
  | index {toks e opening closing args indices span} (h : Phrase 7 toks e) (hopen : opening.kind = .leftBracket)
      (hargs : Listed F.expression args indices) (hclose : closing.kind = .rightBracket) :
      Phrase 7 (toks ++ opening :: (args ++ [closing])) (.index e indices span)
  | unary {op t toks e span} (hop : t.kind = UnaryOp.kind op) (h : F.unary toks e) :
      Phrase 6 (t :: toks) (.unary op e span)
  | binary {op t toks₁ toks₂ left right span} (hleft : Phrase (BinaryOp.level op) toks₁ left) (hop : t.kind = op.kind)
      (hright : Phrase (op.level + 1) toks₂ right)
      (hset : op = .isIn → nextKind toks₂ = .leftBracket → SetForm F toks₂ right) :
      Phrase op.level (toks₁ ++ t :: toks₂) (.binary op left right span)
  | tighter {k toks e} (hk : k < 7) (h : Phrase (k + 1) toks e) : Phrase k toks e

end

def forms : Nat → Forms
  | 0 => ⟨fun _ _ => False, fun _ _ => False⟩
  | n + 1 => ⟨Phrase (forms n) 0, Phrase (forms n) 6⟩

/-- The tokens are `e` in the grammar, at whatever depth. -/
def Derives (toks : List Token) (e : Expr) : Prop := ∃ n, (forms n).expression toks e

variable {F : Forms} {k j : Nat} {κ : Kind} {toks : List Token} {e : Expr}

theorem Phrase.looser (h : Phrase F j toks e) (hj : j ≤ 7) (hk : k ≤ j) : Phrase F k toks e := by
  induction hk with
  | refl => exact h
  | step _ ih => exact ih (.tighter (by omega) h) (by omega)

def joinLevel? : Kind → Option Nat
  | .keyword .or_ | .keyword .xor_ | .questionMark => some 0
  | .keyword .and_ => some 1
  | .equal | .notEqual => some 2
  | .less | .lessEqual | .greater | .greaterEqual | .keyword .in_ => some 3
  | .plus | .minus => some 4
  | .times | .divide | .keyword .div_ | .keyword .mod_ => some 5
  | .dot | .doubleColon | .leftParen | .leftBracket => some 7
  | _ => none

/-- A token of this kind ends an expression of level `k`. -/
def Stops (k : Nat) (κ : Kind) : Prop := ∀ j ∈ joinLevel? κ, j < k

instance (k : Nat) (κ : Kind) : Decidable (Stops k κ) :=
  inferInstanceAs (Decidable (∀ j ∈ joinLevel? κ, j < k))

theorem Stops.mono (h : Stops k κ) (hk : k ≤ j) : Stops j κ := fun i hi => Nat.lt_of_lt_of_le (h i hi) hk

theorem stops_kind (op : BinaryOp) : Stops (op.level + 1) op.kind := by
  cases op <;> decide

end Rule

end CalExport
