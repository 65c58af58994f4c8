import CalExport.Proofs.Expression.Grammar

namespace CalExport.Rule

variable {α : Type} {n k : Nat} {κ : Kind} {t : Token} {toks toks' more : List Token} {e : Expr}

abbrev Same (e e' : Expr) : Prop := e'.unplaced = e.unplaced

def levelWith (sub : Deeper) : Nat → Rule Expr
  | 0 => disjunctionWith sub
  | 1 => conjunctionWith sub
  | 2 => equalityWith sub
  | 3 => relationWith sub
  | 4 => sumWith sub
  | 5 => productWith sub
  | 6 => unaryWith sub
  | _ => operandWith sub

def operatorAt : Nat → Kind → Option BinaryOp
  | 0 => orOp?
  | 1 => andOp?
  | 2 => equalityOp?
  | 3 => relationOp?
  | 4 => sumOp?
  | _ => productOp?

def rightWith (sub : Deeper) : Nat → BinaryOp → Rule Expr
  | 3 => relationRightWith sub
  | k => fun _ => levelWith sub (k + 1)

theorem levelWith_eq (sub : Deeper) (hk : k < 6) :
    levelWith sub k = leftAssoc (operatorAt k) (levelWith sub (k + 1)) (rightWith sub k) := by
  match k, hk with
  | 0, _ | 1, _ | 2, _ | 3, _ | 4, _ | 5, _ => rfl

theorem operatorAt_kind (op : BinaryOp) : operatorAt op.level op.kind = some op := by
  cases op <;> rfl

theorem eq_of_operatorAt {op : BinaryOp} (hk : k < 6) (h : operatorAt k κ = some op) : κ = op.kind ∧ op.level = k := by
  match k, hk with
  | 0, _ => revert h; change orOp? κ = _ → _; fun_cases orOp? κ <;> rintro ⟨⟩ <;> exact ⟨rfl, rfl⟩
  | 1, _ => revert h; change andOp? κ = _ → _; (fun_cases andOp? κ <;> rintro ⟨⟩); exact ⟨rfl, rfl⟩
  | 2, _ => revert h; change equalityOp? κ = _ → _; fun_cases equalityOp? κ <;> rintro ⟨⟩ <;> exact ⟨rfl, rfl⟩
  | 3, _ => revert h; change relationOp? κ = _ → _; fun_cases relationOp? κ <;> rintro ⟨⟩ <;> exact ⟨rfl, rfl⟩
  | 4, _ => revert h; change sumOp? κ = _ → _; fun_cases sumOp? κ <;> rintro ⟨⟩ <;> exact ⟨rfl, rfl⟩
  | 5, _ => revert h; change productOp? κ = _ → _; fun_cases productOp? κ <;> rintro ⟨⟩ <;> exact ⟨rfl, rfl⟩

theorem joinLevel_kind (op : BinaryOp) : joinLevel? op.kind = some op.level := by
  cases op <;> rfl

theorem operatorAt_of_stops (hk : k < 6) (h : Stops k κ) : operatorAt k κ = none := by
  cases hop : operatorAt k κ with
  | none => rfl
  | some op =>
      obtain ⟨rfl, rfl⟩ := eq_of_operatorAt hk hop
      exact absurd (h op.level (joinLevel_kind op)) (Nat.lt_irrefl _)

theorem eq_of_unaryOp {op : UnaryOp} (h : unaryOp? κ = some op) : κ = op.kind := by
  revert h
  fun_cases unaryOp? κ <;> rintro ⟨⟩ <;> rfl

theorem level_lt (op : BinaryOp) : op.level < 6 := by
  cases op <;> decide

theorem progresses_leftAssocRound (n : Nat) (hk : k < 6) :
    TryProgresses (leftAssocRound (operatorAt k) (rightWith (deeper n) k)) := by
  apply grammarTryLoop_progresses
  match k, hk with
  | 0, _ => exact .disjunction n
  | 1, _ => exact .conjunction n
  | 2, _ => exact .equality n
  | 3, _ => exact .relation n
  | 4, _ => exact .sum n
  | 5, _ => exact .product n

theorem unrolls_leftAssocRound (n : Nat) (hk : k < 6) :
    TryUnrolls (leftAssocRound (operatorAt k) (rightWith (deeper n) k)) := (progresses_leftAssocRound n hk).unrolls

theorem unrolls_trailerRound (n start : Nat) : TryUnrolls (trailerRound (deeper n) start) :=
  (grammarTryLoop_progresses (.trailers n start)).unrolls

section

variable {item : Rule Expr} {form : List Token → Expr → Prop} {es : List Expr}

/-- Items are read one after another when each is read in front of a comma or of what closes the list. -/
theorem commaSeparated_passes (hround : TryUnrolls (commaRound item)) (h : Separated form toks es)
    (hitem : ∀ toks e more, form toks e → nextKind more = .comma ∨ nextKind more = κ →
      RulePasses n item toks more (Same e)) (hcomma : κ ≠ .comma) (hmore : nextKind more = κ) :
    RulePasses n (commaSeparated item) toks more fun found => found.map Expr.unplaced = es.map Expr.unplaced := by
  have hloop : ∀ found : Array Expr, RulePasses n (tryLoop found (commaRound item)) toks more
      fun all => all.toList.map Expr.unplaced = found.toList.map Expr.unplaced ++ es.map Expr.unplaced := by
    induction h with
    | @last toks e h =>
        intro found
        apply RulePasses.tryLoop_done hround
        apply RulePasses.bind_last (hitem toks e more h (.inr hmore))
        intro e' he
        apply RulePasses.accept_none (by simp [hmore, hcomma])
        exact RulePasses.pure (by simpa [doneAnd] using he)
    | @cons toks rest comma e es h hkind hrest ih =>
        intro found
        rw [List.append_cons]
        apply RulePasses.tryLoop_yield (r := fun found' => ∃ e', Same e e' ∧ found' = found.push e') hround
        · apply RulePasses.bind (v := [comma]) (hitem toks e _ h (.inl hkind))
          intro e' he
          apply RulePasses.accept hkind
          exact RulePasses.pure ⟨e', he, rfl⟩
        · rintro _ ⟨e', he, rfl⟩
          apply (ih (found.push e')).mono
          intro all hall
          simp [hall, he]
  apply RulePasses.bind_last (hloop #[])
  intro all hall
  exact RulePasses.pure (by simpa using hall)

theorem listUpTo_passes (hround : TryUnrolls (commaRound item)) (h : Listed form toks es)
    (hitem : ∀ toks e more, form toks e → nextKind more = .comma ∨ nextKind more = κ →
      RulePasses n item toks more (Same e)) (hfirst : ∀ toks e more, form toks e → nextKind (toks ++ more) ≠ κ)
    (hcomma : κ ≠ .comma) (hmore : nextKind more = κ) :
    RulePasses n (listUpTo κ item) toks more fun found => found.map Expr.unplaced = es.map Expr.unplaced := by
  apply RulePasses.check
  cases h with
  | nil =>
      simp only [List.nil_append, hmore, beq_self_eq_true, if_true]
      exact RulePasses.pure rfl
  | separated h =>
      have hopen : (nextKind (toks ++ more) == κ) = false := by
        cases h with
        | last h => simpa using hfirst _ _ more h
        | cons h => simpa using hfirst _ _ _ h
      simp only [hopen, Bool.false_eq_true, if_false]
      exact commaSeparated_passes hround h hitem hcomma hmore

end

def startsOperand : Kind → Bool
  | .identifier | .quotedIdentifier | .string | .integer | .decimal | .date | .time | .dateTime | .leftParen
  | .leftBracket => true
  | .keyword k => !endsExpression k
  | _ => false

def startsExpression (κ : Kind) : Bool := startsOperand κ || (unaryOp? κ).isSome

theorem nextKind_append (h : nextKind toks ≠ .eof) : nextKind (toks ++ more) = nextKind toks := by
  cases toks with
  | nil => exact absurd rfl h
  | cons t toks => rfl

theorem startsOperand_of_leaf (h : leaf? t = some e) : startsOperand t.kind = true := by
  revert h
  fun_cases leaf? t with
  | case1 hkind | case2 hkind => simp [hkind, startsOperand]
  | case3 hkind | case4 hkind =>
      intro _
      rw [hkind]
      rfl
  | case5 k _ _ hkind hends => simp
  | case6 k _ _ hkind hends => simp [hkind, startsOperand, hends]
  | case7 =>
      fun_cases literal? t <;> simp_all [startsOperand]

theorem literalOf_passes {value : Literal} (h : literal? t = some value) :
    Passes n (literalOf? t) [] more (· = some value) := by
  revert h
  unfold literalOf?
  fun_cases literal? t with
  | case1 hkind hrange =>
      rintro ⟨⟩
      simp only [hkind, integerValue, boundedValue, if_pos hrange]
      exact Passes.pure rfl
  | case2 | case10 => nofun
  | case3 hkind | case4 hkind | case5 hkind | case6 hkind | case7 hkind | case8 hkind | case9 hkind =>
      rintro ⟨⟩
      simp only [hkind]
      exact Passes.pure rfl

theorem literal_passes {value : Literal} (hkind : t.kind.isLiteral = true) (h : literal? t = some value) :
    RulePasses n (wordOrLiteral t) [t] more (· = .literal value t.text t.span) := by
  unfold wordOrLiteral
  rw [if_pos hkind]
  apply RulePasses.advance
  apply RulePasses.step_nil (literalOf_passes h)
  rintro _ rfl
  exact RulePasses.pure rfl

theorem primary_passes (sub : Deeper) (h : leaf? t = some e) : RulePasses n (primaryWith sub) [t] more (· = e) := by
  apply RulePasses.peek
  revert h
  fun_cases leaf? t with
  | case1 hkind | case2 hkind =>
      rintro ⟨⟩
      simp only [hkind]
      apply RulePasses.advance
      exact RulePasses.pure rfl
  | case3 hkind | case4 hkind =>
      simp only [Option.map_eq_some_iff, hkind]
      rintro ⟨value, hvalue, rfl⟩
      exact literal_passes (by rw [hkind]; rfl) hvalue
  | case5 k _ _ hkind hends => simp
  | case6 k htrue hfalse hkind hends =>
      rintro ⟨⟩
      have hword : t.kind.isLiteral = false := by
        rw [hkind]
        unfold Kind.isLiteral
        split <;> simp_all
      simp only [hkind, wordOrLiteral]
      rw [← hkind, hword, if_neg Bool.false_ne_true, if_neg hends]
      apply RulePasses.advance
      exact RulePasses.pure rfl
  | case7 =>
      simp only [Option.map_eq_some_iff]
      rintro ⟨value, hvalue, rfl⟩
      have hliteral : t.kind.isLiteral = true := by
        revert hvalue
        fun_cases literal? t <;> simp_all [Kind.isLiteral]
      split
      case h_5 => exact literal_passes hliteral hvalue
      all_goals simp_all [Kind.isLiteral]

theorem primary_stands (sub : Deeper) (h : Stands t e) : RulePasses n (primaryWith sub) [t] more (Same e) := by
  obtain ⟨e', hleaf, he⟩ := Option.map_eq_some_iff.1 h
  apply (primary_passes sub hleaf).mono
  rintro _ rfl
  exact he

theorem startsOperand_ne_eof {κ : Kind} (h : startsOperand κ = true) : κ ≠ .eof := by
  rintro rfl
  cases h

theorem startsExpression_ne_eof {κ : Kind} (h : startsExpression κ = true) : κ ≠ .eof := by
  rintro rfl
  cases h

section

variable {F : Forms}

theorem startsOperand_of_phrase (h : Phrase F 7 toks e) : startsOperand (nextKind toks) = true := by
  generalize hk : 7 = k at h
  induction h with
  | leaf h =>
      obtain ⟨e', hleaf, -⟩ := Option.map_eq_some_iff.1 h
      exact startsOperand_of_leaf hleaf
  | group hopen => simp [nextKind, hopen, startsOperand]
  | set h =>
      obtain ⟨hopen⟩ := h
      simp [nextKind, hopen, startsOperand]
  | member _ _ _ ih | call _ _ _ _ ih | index _ _ _ _ ih =>
      have hstarts := ih rfl
      rwa [nextKind_append (startsOperand_ne_eof hstarts)]
  | unary => cases hk
  | @binary op => exact absurd (level_lt op) (by omega)
  | tighter hlt => omega

theorem startsExpression_of_phrase (h : Phrase F k toks e) : startsExpression (nextKind toks) = true := by
  induction h with
  | leaf h => simp [startsExpression, startsOperand_of_phrase (F := F) (.leaf h)]
  | group hopen h hclose => simp [startsExpression, startsOperand_of_phrase (.group hopen h hclose)]
  | set h => simp [startsExpression, startsOperand_of_phrase (.set h)]
  | @unary op t _ _ _ hop =>
      rw [nextKind, hop]
      cases op <;> rfl
  | member _ _ _ ih | call _ _ _ _ ih | index _ _ _ _ ih => rwa [nextKind_append (startsExpression_ne_eof ih)]
  | binary _ _ _ _ ih => rwa [nextKind_append (startsExpression_ne_eof ih)]
  | tighter _ _ ih => exact ih

theorem startsExpression_of_forms (h : (forms n).expression toks e) : startsExpression (nextKind toks) = true := by
  cases n with
  | zero => exact h.elim
  | succ n => exact startsExpression_of_phrase h

end

theorem starts_of_element (h : Element (forms n) toks e) :
    nextKind toks = .dotDot ∨ startsExpression (nextKind toks) = true := by
  cases h with
  | single h => exact .inr (startsExpression_of_forms h)
  | upTo hdots => exact .inl hdots
  | onwards h | between h =>
      have hstarts := startsExpression_of_forms h
      rw [nextKind_append (startsExpression_ne_eof hstarts)]
      exact .inr hstarts

structure Reads (n : Nat) : Prop where
  expression {toks more : List Token} {e : Expr} : (forms n).expression toks e → Stops 0 (nextKind more) →
    RulePasses n (deeper n).expression toks more (Same e)
  unary {toks more : List Token} {e : Expr} : (forms n).unary toks e → Stops 6 (nextKind more) →
    RulePasses n (deeper n).unary toks more (Same e)

def endsElement : Kind → Bool
  | .comma | .rightBracket | .colon => true
  | _ => false

theorem of_endsElement (h : endsElement κ = true) : Stops 0 κ ∧ κ ≠ .dotDot ∧ rangeGoesOn κ = false := by
  revert h
  fun_cases endsElement κ with
  | case1 | case2 | case3 => exact fun _ => by decide
  | case4 => nofun

theorem of_startsExpression (h : startsExpression κ = true) : κ ≠ .dotDot ∧ rangeGoesOn κ = true ∧
    κ ≠ .rightParen ∧ κ ≠ .rightBracket := by
  refine ⟨?_, ?_, ?_, ?_⟩
  · rintro rfl
    cases h
  · unfold rangeGoesOn
    split <;> first | rfl | cases h
  · rintro rfl
    cases h
  · rintro rfl
    cases h

section

variable (hsub : Reads n)

include hsub

theorem element_passes (h : Element (forms n) toks e) (hmore : endsElement (nextKind more) = true) :
    RulePasses n (elementWith (deeper n)) toks more (Same e) := by
  obtain ⟨hstops, hdots, hends⟩ := of_endsElement hmore
  apply RulePasses.here
  intro start
  cases h with
  | single h =>
      have hfirst := startsExpression_of_forms h
      apply RulePasses.accept_none
      · rw [nextKind_append (startsExpression_ne_eof hfirst)]
        exact (of_startsExpression hfirst).1
      · apply RulePasses.bind_last (hsub.expression h hstops)
        intro e' he
        apply RulePasses.accept_none (w := []) hdots
        exact RulePasses.pure he
  | @upTo dots toks last span hkind h =>
      apply RulePasses.accept hkind
      apply RulePasses.bind_last (hsub.expression h hstops)
      intro last' hlast
      apply RulePasses.spanFrom
      intro span
      exact RulePasses.pure (by simp [Same, Expr.unplaced, hlast])
  | @onwards dots toks first span h hkind =>
      have hfirst := startsExpression_of_forms h
      apply RulePasses.accept_none
      · rw [List.append_assoc, nextKind_append (startsExpression_ne_eof hfirst)]
        exact (of_startsExpression hfirst).1
      · apply RulePasses.bind (hsub.expression h (by rw [List.singleton_append, nextKind, hkind]; decide))
        intro first' hfirst
        apply RulePasses.accept hkind
        apply RulePasses.bind (u := []) (p := (· = none))
        · apply RulePasses.peekKind
          simp only [List.nil_append, hends, Bool.false_eq_true, if_false]
          exact RulePasses.pure rfl
        · rintro _ rfl
          apply RulePasses.spanFrom
          intro span
          exact RulePasses.pure (by simp [Same, Expr.unplaced, hfirst])
  | @between dots toks₁ toks₂ first last span h₁ hkind h₂ =>
      have hfirst := startsExpression_of_forms h₁
      have hsecond := startsExpression_of_forms h₂
      apply RulePasses.accept_none
      · rw [List.append_assoc, nextKind_append (startsExpression_ne_eof hfirst)]
        exact (of_startsExpression hfirst).1
      · apply RulePasses.bind (hsub.expression h₁ (by rw [List.cons_append, nextKind, hkind]; decide))
        intro first' hfirst
        apply RulePasses.accept hkind
        apply RulePasses.bind_last (p := fun found => found.map Expr.unplaced = some last.unplaced)
        · apply RulePasses.peekKind
          rw [nextKind_append (startsExpression_ne_eof hsecond), (of_startsExpression hsecond).2.1, if_pos rfl]
          apply (hsub.expression h₂ hstops).map
          intro last' hlast
          simp [hlast]
        · intro found hfound
          apply RulePasses.spanFrom
          intro span
          exact RulePasses.pure (by simp [Same, Expr.unplaced, hfirst, hfound])

theorem set_passes (h : SetForm (forms n) toks e) : RulePasses n (setLiteralWith (deeper n)) toks more (Same e) := by
  obtain @⟨opening, closing, toks, elements, span, hopen, h, hclose⟩ := h
  apply RulePasses.here
  intro start
  apply RulePasses.expect hopen
  apply RulePasses.bind
  · apply listUpTo_passes (grammarTryLoop_progresses (.elements n)).unrolls h
    · rintro toks e more h (hmore | hmore) <;> exact element_passes hsub h (by rw [hmore]; rfl)
    · intro toks e more h
      rcases starts_of_element h with hdots | hstarts
      · rw [nextKind_append (by rw [hdots]; nofun), hdots]
        nofun
      · rw [nextKind_append (startsExpression_ne_eof hstarts)]
        exact (of_startsExpression hstarts).2.2.2
    · nofun
    · exact hclose
  · intro found hfound
    apply RulePasses.expect hclose
    apply RulePasses.spanFrom
    intro span
    exact RulePasses.pure (by simp [Same, Expr.unplaced, hfound])

end

def continueWith (sub : Deeper) (start k : Nat) (e : Expr) : Rule Expr :=
  if k < 6 then tryLoop e (leftAssocRound (operatorAt k) (rightWith sub k))
  else if k = 6 then pure e
  else tryLoop e (trailerRound sub start)

theorem continue_stops (start : Nat) (hk : k ≤ 7) (hstops : Stops k (nextKind more)) :
    RulePasses n (continueWith (deeper n) start k e) [] more (· = e) := by
  unfold continueWith
  split
  · rename_i hk
    apply RulePasses.tryLoop_done (unrolls_leftAssocRound n hk)
    apply RulePasses.peekKind
    rw [List.nil_append, operatorAt_of_stops hk hstops]
    exact RulePasses.pure rfl
  · split
    · exact RulePasses.pure rfl
    · obtain rfl : k = 7 := by omega
      apply RulePasses.tryLoop_done (unrolls_trailerRound n start)
      apply RulePasses.peekKind
      rw [List.nil_append]
      split
      case h_5 => exact RulePasses.pure rfl
      all_goals
        rename_i hkind
        rw [hkind] at hstops
        exact absurd hstops (by decide)

/-- The rule of a level reads the tokens as `e`, and goes on behind them with what it has read. -/
def Resumes (n k : Nat) (toks : List Token) (e : Expr) : Prop :=
  ∀ (toks' more : List Token) (q : Expr → Prop), Stops (k + 1) (nextKind (toks' ++ more)) →
    (∀ start e', Same e e' → RulePasses n (continueWith (deeper n) start k e') toks' more q) →
    RulePasses n (levelWith (deeper n) k) (toks ++ toks') more q

theorem stops_behind_trailers (κ : Kind) : Stops 8 κ := by
  intro j hj
  unfold joinLevel? at hj
  split at hj <;> cases hj <;> decide

/-- No token joins an operand at the level of the operators in front of it. -/
theorem stops_of_stops_trailers (h : Stops 7 κ) : Stops 6 κ := by
  intro j hj
  have hlt := h j hj
  unfold joinLevel? at hj
  split at hj <;> cases hj <;> first | decide | exact absurd hlt (by decide)

namespace Resumes

theorem passes (h : Resumes n k toks e) (hk : k ≤ 7) (hstops : Stops k (nextKind more)) :
    RulePasses n (levelWith (deeper n) k) toks more (Same e) := by
  rw [← List.append_nil toks]
  apply h [] more (Same e) (hstops.mono (Nat.le_succ k))
  intro start e' he
  apply (continue_stops start hk hstops).mono
  rintro _ rfl
  exact he

theorem of_primary (h : ∀ more, RulePasses n (primaryWith (deeper n)) toks more (Same e)) : Resumes n 7 toks e := by
  intro toks' more q _ hnext
  apply RulePasses.here
  intro start
  exact RulePasses.bind (h _) (hnext start)

theorem trailer {tail : List Token} {e₁ : Expr} (h : Resumes n 7 toks e)
    (htail : ∀ start e' more, Same e e' → RulePasses n (trailerRound (deeper n) start e') tail more (yieldAnd (Same e₁))) :
    Resumes n 7 (toks ++ tail) e₁ := by
  intro toks' more q _ hnext
  rw [List.append_assoc]
  apply h _ _ _ (stops_behind_trailers _)
  intro start e' he
  exact RulePasses.tryLoop_yield (unrolls_trailerRound n start) (htail start e' _ he) (hnext start)

theorem tighter (hk : k < 6) (h : Resumes n (k + 1) toks e) : Resumes n k toks e := by
  intro toks' more q hstops hnext
  rw [levelWith_eq _ hk]
  apply RulePasses.bind (h.passes (by omega) hstops)
  intro e' he
  have hloop := hnext 0 e' he
  rwa [continueWith, if_pos hk] at hloop

theorem of_operand (h : Resumes n 7 toks e) (hfirst : startsOperand (nextKind toks) = true) : Resumes n 6 toks e := by
  intro toks' more q hstops hnext
  cases toks with
  | nil => cases hfirst
  | cons t toks =>
      have hop : unaryOp? t.kind = none := by
        change startsOperand t.kind = true at hfirst
        unfold unaryOp?
        split <;> simp_all [startsOperand, endsExpression, Keyword.isWordOperator]
      apply RulePasses.peek
      rw [hop, ← bind_pure (operandWith (deeper n))]
      exact RulePasses.bind (u := t :: toks) (h.passes (Nat.le_refl 7) hstops) (hnext 0)

theorem unary {op : UnaryOp} {span : Text.Span} (hsub : Reads n) (hop : t.kind = op.kind)
    (h : (forms n).unary toks e) : Resumes n 6 (t :: toks) (.unary op e span) := by
  intro toks' more q hstops hnext
  have hkind : unaryOp? t.kind = some op := by
    rw [hop]
    cases op <;> rfl
  apply RulePasses.peek
  rw [hkind]
  apply RulePasses.advance
  apply RulePasses.bind (hsub.unary h (stops_of_stops_trailers hstops))
  intro e' he
  exact hnext 0 _ (by simp [Same, Expr.unplaced, he])

theorem binary {op : BinaryOp} {toks₁ toks₂ : List Token} {left right : Expr} {span : Text.Span}
    (hleft : Resumes n op.level toks₁ left) (hop : t.kind = op.kind)
    (hright : ∀ more, Stops (op.level + 1) (nextKind more) →
      RulePasses n (rightWith (deeper n) op.level op) toks₂ more (Same right)) :
    Resumes n op.level (toks₁ ++ t :: toks₂) (.binary op left right span) := by
  intro toks' more q hstops hnext
  rw [List.append_assoc]
  apply hleft
  · rw [List.cons_append, List.cons_append, nextKind, hop]
    exact stops_kind op
  · intro start left' hsame
    rw [continueWith, if_pos (level_lt op)]
    apply RulePasses.tryLoop_yield (unrolls_leftAssocRound n (level_lt op)) (r := Same (.binary op left right span))
    · apply RulePasses.peekKind
      rw [List.cons_append, nextKind, hop, operatorAt_kind]
      apply RulePasses.advance
      apply RulePasses.bind_last (hright _ hstops)
      intro right' hright'
      exact RulePasses.pure (by simp [yieldAnd, Same, Expr.join, Expr.unplaced, hsame, hright'])
    · intro e' he
      have hloop := hnext start e' he
      rwa [continueWith, if_pos (level_lt op)] at hloop

end Resumes

section

variable (hsub : Reads n)

include hsub

theorem group_passes {opening closing : Token} (hopen : opening.kind = .leftParen)
    (h : (forms n).expression toks e) (hclose : closing.kind = .rightParen) :
    RulePasses n (primaryWith (deeper n)) (opening :: (toks ++ [closing])) more (Same e) := by
  apply RulePasses.peek
  simp only [hopen]
  apply RulePasses.expect hopen
  apply RulePasses.bind (hsub.expression h (by rw [List.singleton_append, nextKind, hclose]; decide))
  intro e' he
  apply RulePasses.expect hclose
  exact RulePasses.pure he

theorem primary_set (h : SetForm (forms n) toks e) : RulePasses n (primaryWith (deeper n)) toks more (Same e) := by
  have hset : RulePasses n (setLiteralWith (deeper n)) toks more (Same e) := set_passes hsub h
  obtain ⟨hopen⟩ := h
  apply RulePasses.peek
  simp only [hopen]
  exact hset

theorem arguments_pass {es : List Expr} (h : Listed (forms n).expression toks es)
    (hκ : κ = .rightParen ∨ κ = .rightBracket) (hmore : nextKind more = κ) :
    RulePasses n (listUpTo κ (deeper n).expression) toks more fun found =>
      found.map Expr.unplaced = es.map Expr.unplaced := by
  apply listUpTo_passes (grammarTryLoop_progresses (.arguments n)).unrolls h
  · rintro toks e more h (hmore | hmore)
    · exact hsub.expression h (by rw [hmore]; decide)
    · exact hsub.expression h (by rw [hmore]; rcases hκ with rfl | rfl <;> decide)
  · intro toks e more h
    have hstarts := startsExpression_of_forms h
    rw [nextKind_append (startsExpression_ne_eof hstarts)]
    rcases hκ with rfl | rfl
    · exact (of_startsExpression hstarts).2.2.1
    · exact (of_startsExpression hstarts).2.2.2
  · rcases hκ with rfl | rfl <;> nofun
  · exact hmore

theorem call_passes {opening closing : Token} {es : List Expr} {span : Text.Span} {e' : Expr} (start : Nat)
    (he : Same e e') (hopen : opening.kind = .leftParen) (h : Listed (forms n).expression toks es)
    (hclose : closing.kind = .rightParen) :
    RulePasses n (trailerRound (deeper n) start e') (opening :: (toks ++ [closing])) more
      (yieldAnd (Same (.call e es span))) := by
  apply RulePasses.peekKind
  simp only [List.cons_append, nextKind, hopen]
  apply RulePasses.advance
  apply RulePasses.bind (v := [closing]) (arguments_pass hsub h (.inl rfl) (by exact hclose))
  intro found hfound
  apply RulePasses.expect hclose
  apply RulePasses.spanFrom
  intro span
  exact RulePasses.pure (by simp [yieldAnd, Same, Expr.unplaced, he, hfound])

theorem index_passes {opening closing : Token} {es : List Expr} {span : Text.Span} {e' : Expr} (start : Nat)
    (he : Same e e') (hopen : opening.kind = .leftBracket) (h : Listed (forms n).expression toks es)
    (hclose : closing.kind = .rightBracket) :
    RulePasses n (trailerRound (deeper n) start e') (opening :: (toks ++ [closing])) more
      (yieldAnd (Same (.index e es span))) := by
  apply RulePasses.peekKind
  simp only [List.cons_append, nextKind, hopen]
  apply RulePasses.advance
  apply RulePasses.bind (v := [closing]) (arguments_pass hsub h (.inr rfl) (by exact hclose))
  intro found hfound
  apply RulePasses.expect hclose
  apply RulePasses.spanFrom
  intro span
  exact RulePasses.pure (by simp [yieldAnd, Same, Expr.unplaced, he, hfound])

end

theorem memberName_passes (expected : String) (h : namesMember t.kind = true) :
    RulePasses n (memberName expected) [t] more (· = t.value) := by
  apply RulePasses.peek
  split
  case h_6 => simp_all [namesMember]
  all_goals
    apply RulePasses.advance
    exact RulePasses.pure rfl

theorem member_passes {dot name : Token} {qualified : Bool} {span : Text.Span} {e' : Expr} (start : Nat) (he : Same e e')
    (hdot : dot.kind = if qualified then .doubleColon else .dot) (hname : namesMember name.kind = true) :
    RulePasses n (trailerRound (deeper n) start e') [dot, name] more
      (yieldAnd (Same (.member e name.value qualified span))) := by
  apply RulePasses.peekKind
  rw [List.cons_append, nextKind, hdot]
  cases qualified <;>
  · apply RulePasses.advance
    apply RulePasses.bind_last (memberName_passes _ hname)
    rintro _ rfl
    apply RulePasses.spanFrom
    intro span
    exact RulePasses.pure (by simp [yieldAnd, Same, Expr.unplaced, he])

/-- Behind IN a set is read as one, and anything else like the operand of any other relation. -/
theorem right_passes {op : BinaryOp} {right : Expr} (hsub : Reads n) (h : Resumes n (op.level + 1) toks right)
    (hset : op = .isIn → nextKind toks = .leftBracket → SetForm (forms n) toks right)
    (hfirst : startsExpression (nextKind toks) = true) (hstops : Stops (op.level + 1) (nextKind more)) :
    RulePasses n (rightWith (deeper n) op.level op) toks more (Same right) := by
  have hlevel := level_lt op
  have hright := h.passes (by omega) hstops
  have hrelation : ∀ op, op.level = 3 → (op = .isIn → nextKind toks = .leftBracket → SetForm (forms n) toks right) →
      RulePasses n (levelWith (deeper n) 4) toks more (Same right) →
      RulePasses n (relationRightWith (deeper n) op) toks more (Same right) := by
    intro op _ hset hright
    apply RulePasses.check
    rw [nextKind_append (startsExpression_ne_eof hfirst)]
    split
    · rename_i hin
      exact set_passes hsub (hset hin.1 (beq_iff_eq.1 hin.2))
    · exact hright
  cases op <;> first | exact hright | exact hrelation _ rfl hset hright

theorem resumes_phrase (hsub : Reads n) (h : Phrase (forms n) k toks e) : Resumes n k toks e := by
  induction h with
  | leaf h => exact .of_primary fun _ => primary_stands _ h
  | group hopen h hclose => exact .of_primary fun _ => group_passes hsub hopen h hclose
  | set h => exact .of_primary fun _ => primary_set hsub h
  | member _ hdot hname ih => exact ih.trailer fun start e' _ he => member_passes start he hdot hname
  | call _ hopen hargs hclose ih => exact ih.trailer fun start e' _ he => call_passes hsub start he hopen hargs hclose
  | index _ hopen hargs hclose ih => exact ih.trailer fun start e' _ he => index_passes hsub start he hopen hargs hclose
  | unary hop h => exact .unary hsub hop h
  | binary _ hop hright hset ihleft ihright =>
      exact ihleft.binary hop fun _ => right_passes hsub ihright hset (startsExpression_of_phrase hright)
  | @tighter k _ _ hk h ih =>
      rcases Nat.lt_or_eq_of_le (Nat.le_of_lt_succ hk) with hlt | rfl
      · exact ih.tighter hlt
      · exact ih.of_operand (startsOperand_of_phrase h)

theorem expressionWith_passes (hsub : Reads n) (h : Phrase (forms n) 0 toks e) (hstops : Stops 0 (nextKind more)) :
    RulePasses n (expressionWith (deeper n)) toks more (Same e) := by
  apply RulePasses.bind_last ((resumes_phrase hsub h).passes (Nat.zero_le 7) hstops)
  intro e' he
  apply RulePasses.check
  have hmark : (nextKind more == .questionMark) = false := by
    rw [beq_eq_false_iff_ne]
    intro hmark
    rw [hmark] at hstops
    exact absurd hstops (by decide)
  rw [List.nil_append, hmark]
  exact RulePasses.pure he

/-- At every level, the rules read what the grammar derives. -/
theorem reads (n : Nat) : Reads n := by
  induction n with
  | zero => exact ⟨fun h => h.elim, fun h => h.elim⟩
  | succ n ih =>
      refine ⟨fun h hstops => ?_, fun h hstops => ?_⟩
      · exact RulePasses.nested (expressionWith_passes ih h hstops)
      · exact RulePasses.nested ((resumes_phrase ih h).passes (by decide) hstops)

theorem expression_passes (h : (forms n).expression toks e) (hstops : Stops 0 (nextKind more)) :
    RulePasses n expression toks more (Same e) :=
  RulePasses.of_levels (x := fun n => (deeper n).expression) ((reads n).expression h hstops)

theorem operand_passes (h : Phrase (forms n) 7 toks e) (hstops : Stops 7 (nextKind more)) :
    RulePasses n operand toks more (Same e) :=
  RulePasses.of_levels (x := fun n => operandWith (deeper n)) ((resumes_phrase (reads n) h).passes (Nat.le_refl 7) hstops)

theorem element_reads (h : Element (forms n) toks e) (hmore : endsElement (nextKind more) = true) :
    RulePasses n element toks more (Same e) :=
  RulePasses.of_levels (x := fun n => elementWith (deeper n)) (element_passes (reads n) h hmore)

end CalExport.Rule
