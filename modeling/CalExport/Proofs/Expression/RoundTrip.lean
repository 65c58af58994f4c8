import CalExport.Proofs.Expression.Reading
import Mathlib.Data.List.Forall2

namespace CalExport

inductive Sign where
  | mark (kind : Kind)
  | leaf (e : Expr)
  | member (name : String)

namespace Rule

def Shows (t : Token) : Sign → Prop
  | .mark kind => t.kind = kind
  | .leaf e => Stands t e
  | .member name => namesMember t.kind = true ∧ t.value = name

abbrev Shown (toks : List Token) (signs : List Sign) : Prop := List.Forall₂ Shows toks signs

end Rule

namespace Expr

def isSet : Expr → Bool
  | .set .. => true
  | _ => false

def group (needed : Bool) (signs : List Sign) : List Sign :=
  if needed then .mark .leftParen :: (signs ++ [.mark .rightParen]) else signs

def leadsWithBracket : List Sign → Bool
  | .mark .leftBracket :: _ => true
  | _ => false

def leftGroups (op : BinaryOp) (left : Expr) : Bool := left.level < op.level

/-- Behind IN a bracket would be taken for a set, so anything else that starts with one is grouped as well. -/
def rightGroups (op : BinaryOp) (right : Expr) (signs : List Sign) : Bool :=
  right.level ≤ op.level || (op == .isIn && leadsWithBracket signs && !right.isSet)

mutual

def signs : Expr → List Sign
  | .identifier name span => [.leaf (.identifier name span)]
  | .literal value text span => [.leaf (.literal value text span)]
  | .binary op left right _ =>
    group (leftGroups op left) left.signs ++ .mark op.kind :: group (rightGroups op right right.signs) right.signs
  | .unary op operand _ => .mark op.kind :: group (operand.level < 6) operand.signs
  | .member object name qualified _ =>
    group (object.level < 7) object.signs ++ [.mark (if qualified then .doubleColon else .dot), .member name]
  | .call callee arguments _ =>
    group (callee.level < 7) callee.signs ++ .mark .leftParen :: (signsAll arguments ++ [.mark .rightParen])
  | .index array indices _ =>
    group (array.level < 7) array.signs ++ .mark .leftBracket :: (signsAll indices ++ [.mark .rightBracket])
  | .set elements _ => .mark .leftBracket :: (signsAll elements ++ [.mark .rightBracket])
  | .range first last _ => signsBound first ++ .mark .dotDot :: signsBound last

def signsAll : List Expr → List Sign
  | [] => []
  | [e] => e.signs
  | e :: rest => e.signs ++ .mark .comma :: signsAll rest

def signsBound : Option Expr → List Sign
  | none => []
  | some e => e.signs

end

mutual

/-- Ranges stand only where an element may stand, and have a bound. -/
def proper (element : Bool) : Expr → Bool
  | .identifier .. | .literal .. => true
  | .binary _ left right _ => left.proper false && right.proper false
  | .unary _ operand _ => operand.proper false
  | .member object .. => object.proper false
  | .call callee arguments _ => callee.proper false && properAll false arguments
  | .index array indices _ => array.proper false && properAll false indices
  | .set elements _ => properAll true elements
  | .range first last _ => element && (first.isSome || last.isSome) && properBound first && properBound last

def properAll (element : Bool) : List Expr → Bool
  | [] => true
  | e :: rest => e.proper element && properAll element rest

def properBound : Option Expr → Bool
  | none => true
  | some e => e.proper false

end

def groupNesting (needed : Bool) (nesting : Nat) : Nat := if needed then nesting + 1 else nesting

mutual

/-- How deep parentheses, brackets, lists of arguments and operators in front stand in one another. -/
def nesting : Expr → Nat
  | .identifier .. | .literal .. => 0
  | .binary op left right _ =>
    max (groupNesting (leftGroups op left) left.nesting) (groupNesting (rightGroups op right right.signs) right.nesting)
  | .unary _ operand _ => groupNesting (operand.level < 6) operand.nesting + 1
  | .member object .. => groupNesting (object.level < 7) object.nesting
  | .call callee arguments _ => max (groupNesting (callee.level < 7) callee.nesting) (nestingAll arguments + 1)
  | .index array indices _ => max (groupNesting (array.level < 7) array.nesting) (nestingAll indices + 1)
  | .set elements _ => nestingAll elements + 1
  | .range first last _ => max (nestingBound first) (nestingBound last)

def nestingAll : List Expr → Nat
  | [] => 0
  | e :: rest => max e.nesting (nestingAll rest)

def nestingBound : Option Expr → Nat
  | none => 0
  | some e => e.nesting

end

end Expr

namespace Rule

open CalExport.Expr

variable {n k : Nat} {toks more : List Token} {signs signs' : List Sign} {e : Expr}

theorem shown_append (h : Shown toks (signs ++ signs')) :
    ∃ u v, toks = u ++ v ∧ Shown u signs ∧ Shown v signs' :=
  ⟨_, _, (List.take_append_drop signs.length toks).symm, List.forall₂_take_append _ _ _ h,
    List.forall₂_drop_append _ _ _ h⟩

theorem shown_cons {sign : Sign} (h : Shown toks (sign :: signs)) :
    ∃ t rest, toks = t :: rest ∧ Shows t sign ∧ Shown rest signs := by
  obtain ⟨t, rest, ht, hrest, rfl⟩ := List.forall₂_cons_right_iff.1 h
  exact ⟨t, rest, rfl, ht, hrest⟩

theorem shown_last {sign : Sign} (h : Shown toks (signs ++ [sign])) :
    ∃ u t, toks = u ++ [t] ∧ Shown u signs ∧ Shows t sign := by
  obtain ⟨u, v, rfl, hu, hv⟩ := shown_append h
  obtain ⟨t, rest, rfl, ht, hrest⟩ := shown_cons hv
  obtain rfl := List.forall₂_nil_right_iff.1 hrest
  exact ⟨u, t, rfl, hu, ht⟩

theorem level_le (e : Expr) : e.level ≤ 7 := by
  cases e with
  | binary op => exact Nat.le_of_lt (Nat.lt_succ_of_lt (level_lt op))
  | _ => simp [Expr.level]

/-- Where nothing opens with a bracket, no token is one. -/
theorem leadsWithBracket_of_shown (h : Shown toks signs) (hkind : nextKind toks = .leftBracket) :
    leadsWithBracket signs = true := by
  cases h with
  | nil => cases hkind
  | @cons t sign toks signs ht _ =>
      cases sign with
      | mark kind =>
          have hmark : kind = .leftBracket := ht.symm.trans hkind
          rw [hmark]
          rfl
      | leaf e =>
          obtain ⟨e', hleaf, -⟩ := Option.map_eq_some_iff.1 ht
          simp_all [nextKind, leaf?, literal?]
      | member name =>
          obtain ⟨hname, -⟩ := ht
          simp_all [nextKind, namesMember]

def Written (e : Expr) : Prop :=
  ∀ n toks, Shown toks e.signs → e.nesting ≤ n → Phrase (forms n) e.level toks e

theorem Written.expression (h : Written e) (hshown : Shown toks e.signs) (hn : e.nesting ≤ n) :
    (forms (n + 1)).expression toks e := (h n toks hshown hn).looser (level_le e) (Nat.zero_le _)

/-- An operand at level `k`, in parentheses where its own level is looser. -/
theorem Written.operand {needed : Bool} (h : Written e) (hshown : Shown toks (group needed e.signs))
    (hn : groupNesting needed e.nesting ≤ n) (hk : k ≤ 7) (hneeded : needed = false → k ≤ e.level) :
    Phrase (forms n) k toks e := by
  cases needed with
  | false => exact (h n toks hshown hn).looser (level_le e) (hneeded rfl)
  | true =>
      obtain ⟨opening, rest, rfl, hopen, hrest⟩ := shown_cons hshown
      obtain ⟨inner, closing, rfl, hinner, hclose⟩ := shown_last hrest
      obtain ⟨m, rfl⟩ : ∃ m, n = m + 1 := ⟨n - 1, by simp only [groupNesting, if_true] at hn; omega⟩
      have hm : e.nesting ≤ m := Nat.le_of_succ_le_succ hn
      exact (Phrase.group hopen (h.expression hinner hm) hclose).looser (Nat.le_refl 7) hk

/-- A list is written item by item. -/
theorem listed_of_shown {form : List Token → Expr → Prop} {es : List Expr}
    (hitem : ∀ e ∈ es, ∀ toks, Shown toks e.signs → form toks e) (h : Shown toks (signsAll es)) : Listed form toks es := by
  induction es generalizing toks with
  | nil =>
      obtain rfl := List.forall₂_nil_right_iff.1 h
      exact .nil
  | cons e es ih =>
      cases es with
      | nil => exact .separated (.last (hitem e (by simp) toks h))
      | cons e₁ es =>
          obtain ⟨u, v, rfl, hu, hv⟩ := shown_append h
          obtain ⟨comma, rest, rfl, hcomma, hrest⟩ := shown_cons hv
          have hfirst := hitem e (by simp) u hu
          cases ih (fun e he => hitem e (by simp [he])) hrest with
          | separated hlisted => exact .separated (.cons hfirst hcomma hlisted)

theorem nesting_le_all {es : List Expr} (he : e ∈ es) : e.nesting ≤ nestingAll es := by
  induction es with
  | nil => cases he
  | cons e₁ es ih =>
      rw [nestingAll]
      rcases List.mem_cons.1 he with rfl | hrest
      · exact Nat.le_max_left _ _
      · exact Nat.le_trans (ih hrest) (Nat.le_max_right _ _)

namespace Written

theorem leaf (hsigns : e.signs = [.leaf e]) (hlevel : e.level = 7) : Written e := by
  intro n toks h _
  rw [hsigns] at h
  obtain ⟨t, rest, rfl, ht, hrest⟩ := shown_cons h
  obtain rfl := List.forall₂_nil_right_iff.1 hrest
  rw [hlevel]
  exact .leaf ht

theorem unary {op : UnaryOp} {span : Text.Span} (h : Written e) : Written (.unary op e span) := by
  intro n toks hshown hn
  obtain ⟨t, rest, rfl, hop, hrest⟩ := shown_cons hshown
  obtain ⟨m, rfl⟩ : ∃ m, n = m + 1 := ⟨n - 1, by simp only [Expr.nesting] at hn; omega⟩
  have hm := Nat.le_of_succ_le_succ hn
  exact .unary hop (h.operand hrest hm (by decide) (by simp))

theorem member {name : String} {qualified : Bool} {span : Text.Span} (h : Written e) :
    Written (.member e name qualified span) := by
  intro n toks hshown hn
  obtain ⟨u, v, rfl, hu, hv⟩ := shown_append hshown
  obtain ⟨dot, rest, rfl, hdot, hrest⟩ := shown_cons hv
  obtain ⟨t, rest, rfl, ht, hnil⟩ := shown_cons hrest
  obtain rfl := List.forall₂_nil_right_iff.1 hnil
  obtain ⟨hname, rfl⟩ := ht
  exact .member (h.operand hu hn (Nat.le_refl 7) (by simp)) hdot hname

/-- Items one level deeper, between brackets. -/
theorem listed {es : List Expr} (h : ∀ e ∈ es, Written e) (hshown : Shown toks (signsAll es))
    (hn : nestingAll es + 1 ≤ n) : Listed (forms n).expression toks es := by
  obtain ⟨m, rfl⟩ : ∃ m, n = m + 1 := ⟨n - 1, by omega⟩
  apply listed_of_shown _ hshown
  intro e he toks hshown
  exact (h e he).expression hshown (Nat.le_trans (nesting_le_all he) (Nat.le_of_succ_le_succ hn))

theorem call {es : List Expr} {span : Text.Span} (h : Written e) (hes : ∀ e ∈ es, Written e) :
    Written (.call e es span) := by
  intro n toks hshown hn
  obtain ⟨hbase, hargs⟩ := Nat.max_le.1 hn
  obtain ⟨u, v, rfl, hu, hv⟩ := shown_append hshown
  obtain ⟨opening, rest, rfl, hopen, hrest⟩ := shown_cons hv
  obtain ⟨inner, closing, rfl, hinner, hclose⟩ := shown_last hrest
  exact .call (h.operand hu hbase (Nat.le_refl 7) (by simp)) hopen (listed hes hinner hargs) hclose

theorem index {es : List Expr} {span : Text.Span} (h : Written e) (hes : ∀ e ∈ es, Written e) :
    Written (.index e es span) := by
  intro n toks hshown hn
  obtain ⟨hbase, hargs⟩ := Nat.max_le.1 hn
  obtain ⟨u, v, rfl, hu, hv⟩ := shown_append hshown
  obtain ⟨opening, rest, rfl, hopen, hrest⟩ := shown_cons hv
  obtain ⟨inner, closing, rfl, hinner, hclose⟩ := shown_last hrest
  exact .index (h.operand hu hbase (Nat.le_refl 7) (by simp)) hopen (listed hes hinner hargs) hclose

end Written

def WrittenElement (e : Expr) : Prop :=
  ∀ n toks, Shown toks e.signs → e.nesting ≤ n → Element (forms (n + 1)) toks e

theorem Written.element (h : Written e) : WrittenElement e :=
  fun _ _ hshown hn => .single (h.expression hshown hn)

theorem writtenElement_range {first last : Option Expr} {span : Text.Span}
    (hsome : (first.isSome || last.isSome) = true) (hfirst : ∀ e ∈ first, Written e) (hlast : ∀ e ∈ last, Written e) :
    WrittenElement (.range first last span) := by
  intro n toks hshown hn
  obtain ⟨hn₁, hn₂⟩ := Nat.max_le.1 hn
  obtain ⟨u, v, rfl, hu, hv⟩ := shown_append hshown
  obtain ⟨dots, rest, rfl, hdots, hrest⟩ := shown_cons hv
  cases first with
  | none =>
      obtain rfl := List.forall₂_nil_right_iff.1 hu
      cases last with
      | none => cases hsome
      | some last => exact .upTo hdots ((hlast last rfl).expression hrest hn₂)
  | some first =>
      have hread := (hfirst first rfl).expression hu hn₁
      cases last with
      | none =>
          obtain rfl := List.forall₂_nil_right_iff.1 hrest
          exact .onwards hread hdots
      | some last => exact .between hread hdots ((hlast last rfl).expression hrest hn₂)

theorem setForm_of_shown {es : List Expr} {span : Text.Span} (hes : ∀ e ∈ es, WrittenElement e)
    (hshown : Shown toks (Expr.set es span).signs) (hn : nestingAll es + 1 ≤ n) :
    SetForm (forms n) toks (.set es span) := by
  obtain ⟨m, rfl⟩ : ∃ m, n = m + 1 := ⟨n - 1, by omega⟩
  obtain ⟨opening, rest, rfl, hopen, hrest⟩ := shown_cons hshown
  obtain ⟨inner, closing, rfl, hinner, hclose⟩ := shown_last hrest
  refine .mk hopen (listed_of_shown ?_ hinner) hclose
  intro e he toks hshown
  exact hes e he m toks hshown (Nat.le_trans (nesting_le_all he) (Nat.le_of_succ_le_succ hn))

theorem Written.set {es : List Expr} {span : Text.Span} (hes : ∀ e ∈ es, WrittenElement e) : Written (.set es span) :=
  fun _ _ hshown hn => .set (setForm_of_shown hes hshown hn)

/-- A set behind IN is written without parentheses, and nothing else that starts with a bracket is. -/
theorem Written.binary {op : BinaryOp} {left right : Expr} {span : Text.Span} (hleft : Written left)
    (hright : Written right) (hset : ∀ es span, right = .set es span → ∀ e ∈ es, WrittenElement e) :
    Written (.binary op left right span) := by
  intro n toks hshown hn
  obtain ⟨hn₁, hn₂⟩ := Nat.max_le.1 hn
  obtain ⟨u, v, rfl, hu, hv⟩ := shown_append hshown
  obtain ⟨t, rest, rfl, hop, hrest⟩ := shown_cons hv
  have hlevel := level_lt op
  refine .binary (hleft.operand hu hn₁ (by omega) ?_) hop (hright.operand hrest hn₂ (by omega) ?_) ?_
  · simp [leftGroups]
  · simp only [rightGroups, Bool.or_eq_false_iff, decide_eq_false_iff_not]
    omega
  · rintro rfl hbracket
    have hleads := leadsWithBracket_of_shown hrest hbracket
    cases hgroups : rightGroups .isIn right right.signs with
    | true =>
        rw [hgroups] at hleads
        cases hleads
    | false =>
        rw [hgroups] at hleads hrest hn₂
        simp only [rightGroups, Expr.group, Bool.false_eq_true, if_false] at hgroups hleads
        rw [hleads] at hgroups
        cases right with
        | set es span => exact setForm_of_shown (hset es span rfl) hrest hn₂
        | _ => simp [isSet] at hgroups

theorem proper_element (he : e.proper true = true) : e.proper false = true ∨ ∃ first last span,
    e = .range first last span ∧ (first.isSome || last.isSome) = true ∧ properBound first = true ∧
      properBound last = true := by
  cases e with
  | range first last span =>
      simp only [proper, Bool.true_and, Bool.and_eq_true, and_assoc] at he
      exact .inr ⟨first, last, span, rfl, he⟩
  | _ => exact .inl he

mutual

theorem written (e : Expr) (he : e.proper false = true) : Written e := by
  cases e with
  | identifier | literal => exact .leaf rfl rfl
  | binary op left right span =>
      simp only [proper, Bool.and_eq_true] at he
      refine .binary (written left he.1) (written right he.2) ?_
      rintro es span rfl
      exact written_elements es he.2
  | unary op operand span => exact .unary (written operand he)
  | member object name qualified span => exact .member (written object he)
  | call callee arguments span =>
      simp only [proper, Bool.and_eq_true] at he
      exact .call (written callee he.1) (written_all arguments he.2)
  | index array indices span =>
      simp only [proper, Bool.and_eq_true] at he
      exact .index (written array he.1) (written_all indices he.2)
  | set elements span => exact .set (written_elements elements he)
  | range => cases he

theorem written_all (es : List Expr) (hes : properAll false es = true) : ∀ e ∈ es, Written e := by
  cases es with
  | nil => nofun
  | cons e es =>
      simp only [properAll, Bool.and_eq_true] at hes
      exact List.forall_mem_cons.2 ⟨written e hes.1, written_all es hes.2⟩

theorem written_element (e : Expr) (he : e.proper true = true) : WrittenElement e := by
  rcases proper_element he with hproper | ⟨first, last, span, rfl, hsome, hfirst, hlast⟩
  · exact (written e hproper).element
  · exact writtenElement_range hsome (written_bound first hfirst) (written_bound last hlast)

theorem written_elements (es : List Expr) (hes : properAll true es = true) : ∀ e ∈ es, WrittenElement e := by
  cases es with
  | nil => nofun
  | cons e es =>
      simp only [properAll, Bool.and_eq_true] at hes
      exact List.forall_mem_cons.2 ⟨written_element e hes.1, written_elements es hes.2⟩

theorem written_bound (bound : Option Expr) (hbound : properBound bound = true) : ∀ e ∈ bound, Written e := by
  cases bound with
  | none => nofun
  | some e =>
      rintro _ ⟨⟩
      exact written e hbound

end

theorem expression_written (he : e.proper false = true) (hshown : Shown toks e.signs) (hn : e.nesting + 1 ≤ n)
    (hmore : Stops 0 (nextKind more)) : RulePasses n expression toks more (Same e) := by
  obtain ⟨m, rfl⟩ : ∃ m, n = m + 1 := ⟨n - 1, by omega⟩
  exact expression_passes ((written e he).expression hshown (Nat.le_of_succ_le_succ hn)) hmore

theorem operand_written (he : e.proper false = true) (hlevel : e.level = 7) (hshown : Shown toks e.signs)
    (hn : e.nesting ≤ n) (hmore : Stops 7 (nextKind more)) : RulePasses n operand toks more (Same e) := by
  have hphrase := written e he n toks hshown hn
  rw [hlevel] at hphrase
  exact operand_passes hphrase hmore

/-- In front of a written expression that does not go on behind, with levels enough for its nesting, the rule passes
exactly its tokens, reports nothing and yields the expression. -/
theorem expression_round_trip (s : Parser) (e : Expr) (toks more : List Token) (he : e.proper false = true)
    (hshown : Shown toks e.signs) (hs : ahead s = toks ++ more) (hmore : Stops 0 (nextKind more))
    (hnesting : s.nesting + e.nesting < maxNesting) :
    ∃ e' t, expression s = (.ok e', t) ∧ e'.unplaced = e.unplaced ∧ t.position = s.position + toks.length ∧
      ahead t = more ∧ t.diagnostics = s.diagnostics ∧ t.nesting = s.nesting := by
  have hlevels : e.nesting + 1 ≤ s.freeLevels := by
    simp only [Parser.freeLevels]
    omega
  obtain ⟨e', hread, hsame⟩ := (expression_written he hshown hlevels hmore).run rfl hs
  exact ⟨e', _, hread, hsame, position_skip hs, ahead_skip hs, diagnostics_skip _ s, nesting_skip _ s⟩

def atOrigin (kind : Kind) (text : String) : Token := ⟨kind, text, .origin⟩

/-- `a IN ([1..2,5..][0]) = -(b + c).d(e,NOT f)`. -/
def mixedExpression : Expr :=
  .binary .equal
    (.binary .isIn (.identifier "a" .origin)
      (.index
        (.set
          [.range (some (.literal (.integer 1) "1" .origin)) (some (.literal (.integer 2) "2" .origin)) .origin,
            .range (some (.literal (.integer 5) "5" .origin)) none .origin] .origin)
        [.literal (.integer 0) "0" .origin] .origin) .origin)
    (.unary .negate
      (.call
        (.member (.binary .add (.identifier "b" .origin) (.identifier "c" .origin) .origin) "d" false .origin)
        [.identifier "e" .origin, .unary .not (.identifier "f" .origin) .origin] .origin) .origin) .origin

def mixedTokens : List Token :=
  [atOrigin .identifier "a", atOrigin (.keyword .in_) "IN", atOrigin .leftParen "(", atOrigin .leftBracket "[",
    atOrigin .integer "1", atOrigin .dotDot "..", atOrigin .integer "2", atOrigin .comma ",", atOrigin .integer "5",
    atOrigin .dotDot "..", atOrigin .rightBracket "]", atOrigin .leftBracket "[", atOrigin .integer "0",
    atOrigin .rightBracket "]", atOrigin .rightParen ")", atOrigin .equal "=", atOrigin .minus "-",
    atOrigin .leftParen "(", atOrigin .identifier "b", atOrigin .plus "+", atOrigin .identifier "c",
    atOrigin .rightParen ")", atOrigin .dot ".", atOrigin .identifier "d", atOrigin .leftParen "(",
    atOrigin .identifier "e", atOrigin .comma ",", atOrigin (.keyword .not_) "NOT", atOrigin .identifier "f",
    atOrigin .rightParen ")"]

theorem expression_round_trip_mixed :
    ∃ e' t, expression (.ofTokens mixedTokens.toArray {}) = (.ok e', t) ∧ e'.unplaced = mixedExpression.unplaced ∧
      t.position = 30 ∧ t.diagnostics = #[] := by
  have hshown : Shown mixedTokens mixedExpression.signs := by
    repeat' first | exact ⟨rfl, rfl⟩ | rfl | constructor
  obtain ⟨e', t, hread, hsame, hposition, -, hdiagnostics, -⟩ :=
    expression_round_trip (.ofTokens mixedTokens.toArray {}) mixedExpression mixedTokens [] rfl hshown rfl (by decide)
      (by decide)
  exact ⟨e', t, hread, hsame, hposition, hdiagnostics⟩

end Rule

end CalExport
