import CalExport.Proofs.Nesting.Calls
import CalExport.Proofs.Recording

namespace CalExport.Rule

structure Frame where
  rule : RuleName
  /-- It was called one nesting level deeper. -/
  guarded : Bool
deriving DecidableEq, Repr

/-- In a run of a script there is a moment at some state with some calls open, the outermost one first. -/
inductive Moment : {r : Nat} → {α : Type} → Script r α → Parser → List Frame → Parser → Prop
  | start {r : Nat} {α : Type} (x : Script r α) (s) : Moment x s [] s
  | stop {r : Nat} {α : Type} (x : Script r α) (s) : Moment x s [] (x.exec s).2
  | step {r : Nat} {α : Type} {x : Rule α} [Flat x] {s t} : Along x s t → Moment (.step x : Script r α) s [] t
  | first {r : Nat} {α β : Type} {x : Script r α} {f : α → Script r β} {s frames t} : Moment x s frames t →
    Moment (.bind x f) s frames t
  | second {r : Nat} {α β : Type} {x : Script r α} {f : α → Script r β} {a s t frames u} :
    x.exec s = (.ok a, t) → Moment (f a) t frames u → Moment (.bind x f) s frames u
  | attempt {r : Nat} {α : Type} {x : Script r α} {s frames t} : Moment x s frames t →
    Moment (.attempt x) s frames t
  | round {r : Nat} {α : Type} {round : α → Script r (ForInStep α)} {a s frames t} : Moment (round a) s frames t →
    Moment (.loop a round) s frames t
  | again {r : Nat} {α : Type} {round : α → Script r (ForInStep α)} {a b s t frames u} :
    (round a).exec s = (.ok (.yield b), t) → Moment (.loop b round) t frames u → Moment (.loop a round) s frames u
  | call {r : Nat} {b : RuleName} {lower : b.rank < r} {s frames t} : Moment b.script s frames t →
    Moment (.call b lower) s (⟨b, false⟩ :: frames) t
  | guarded {r : Nat} {b : RuleName} {s t frames u} : enterNesting s = (.ok (), t) → Moment b.script t frames u →
    Moment (.guarded b : Script r b.Result) s (⟨b, true⟩ :: frames) u

/-- How many of the open calls are a level deeper than the call around them. -/
def guardedCalls (frames : List Frame) : Nat := frames.countP (·.guarded)

/-- A rule inside of itself: some call between the two, or the inner one, is a level deeper. -/
def CyclesGuarded (frames : List Frame) : Prop :=
  ∀ before outer between inner after, frames = before ++ outer :: (between ++ inner :: after) →
    inner.rule = outer.rule → ∃ frame ∈ between ++ [inner], frame.guarded = true

theorem enterNesting_eq {s t : Parser} (h : enterNesting s = (.ok (), t)) :
    s.nesting < maxNesting ∧ t = s.withNesting (s.nesting + 1) := by
  unfold enterNesting tooDeep at h
  split at h
  · next hroom => exact ⟨hroom, (Prod.mk.inj h).2.symm⟩
  · exact nomatch (Prod.mk.inj h).1

namespace Moment

variable {r : Nat} {α : Type} {x : Script r α} {s t : Parser} {frames : List Frame}

theorem nesting_eq (h : Moment x s frames t) : t.nesting = s.nesting + guardedCalls frames := by
  induction h with
  | start x s => rfl
  | stop x s => exact (x.exec_same _ s rfl).2
  | step h => exact h.nesting_eq
  | first _ ih | attempt _ ih | round _ ih => exact ih
  | second hx _ ih => rw [ih, (Script.exec_same _ _).nesting_eq rfl hx]
  | again hx _ ih => rw [ih, (Script.exec_same _ _).nesting_eq rfl hx]
  | call _ ih => exact ih
  | guarded henter _ ih =>
    obtain ⟨-, rfl⟩ := enterNesting_eq henter
    rw [ih, Parser.nesting_withNesting, guardedCalls, guardedCalls, List.countP_cons_of_pos rfl]
    omega

theorem nesting_le (h : Moment x s frames t) (hs : s.nesting ≤ maxNesting) : t.nesting ≤ maxNesting := by
  induction h with
  | start x s => exact hs
  | stop x s => exact (x.exec_same _ s rfl).2 ▸ hs
  | step h => exact h.nesting_eq ▸ hs
  | first _ ih | attempt _ ih | round _ ih | call _ ih => exact ih hs
  | second hx _ ih => exact ih ((Script.exec_same _ _).nesting_eq rfl hx ▸ hs)
  | again hx _ ih => exact ih ((Script.exec_same _ _).nesting_eq rfl hx ▸ hs)
  | guarded henter _ ih =>
    obtain ⟨hroom, rfl⟩ := enterNesting_eq henter
    exact ih hroom

end Moment

def Falls : Nat → List Frame → Prop
  | _, [] => True
  | r, frame :: frames => (frame.guarded = false → frame.rule.rank < r) ∧ Falls frame.rule.rank frames

theorem Moment.falls {r : Nat} {α : Type} {x : Script r α} {s t : Parser} {frames : List Frame}
    (h : Moment x s frames t) : Falls r frames := by
  induction h with
  | start | stop | step => trivial
  | first _ ih | second _ _ ih | attempt _ ih | round _ ih | again _ _ ih => exact ih
  | @call _ _ lower _ _ _ _ ih => exact ⟨fun _ => lower, ih⟩
  | guarded _ _ ih => exact ⟨nofun, ih⟩

namespace Falls

theorem rank_lt {r : Nat} {frames after : List Frame} (h : Falls r (frames ++ after))
    (hplain : ∀ frame ∈ frames, frame.guarded = false) : ∀ frame ∈ frames, frame.rule.rank < r := by
  induction frames generalizing r with
  | nil => exact nofun
  | cons frame frames ih =>
    obtain ⟨hframe, hplain⟩ := List.forall_mem_cons.1 hplain
    have hlt := h.1 hframe
    refine List.forall_mem_cons.2 ⟨hlt, fun other hother => ?_⟩
    exact Nat.lt_trans (ih h.2 hplain other hother) hlt

theorem of_append {r : Nat} {before : List Frame} {frame : Frame} {after : List Frame}
    (h : Falls r (before ++ frame :: after)) : Falls frame.rule.rank after := by
  induction before generalizing r with
  | nil => exact h.2
  | cons _ _ ih => exact ih h.2

theorem cyclesGuarded {r : Nat} {frames : List Frame} (h : Falls r frames) : CyclesGuarded frames := by
  intro before outer between inner after heq hrule
  refine Classical.byContradiction fun hnone => ?_
  have hplain : ∀ frame ∈ between ++ [inner], frame.guarded = false := by
    simpa only [not_exists, not_and, Bool.not_eq_true] using hnone
  have hfrom : Falls outer.rule.rank ((between ++ [inner]) ++ after) := by
    rw [List.append_assoc]
    exact of_append (heq ▸ h)
  have hlt := hfrom.rank_lt hplain inner (List.mem_append_right _ (List.mem_singleton_self _))
  rw [hrule] at hlt
  exact Nat.lt_irrefl _ hlt

end Falls

theorem nesting_guard {s : Parser} (h : s.nesting ≤ maxNesting) :
    (∀ {α : Type} {x : Parse α}, Builder x → (x s).2.nesting = s.nesting) ∧
    (∀ {α : Type} {x : Rule α} {t}, Along x s t → t.nesting = s.nesting) ∧
    ∀ b : RuleName, b.rule s = b.script.exec s ∧ (b.rule s).2.nesting = s.nesting ∧
      ∀ {frames t}, Moment b.script s frames t → t.nesting ≤ maxNesting ∧
        guardedCalls frames ≤ maxNesting - s.nesting ∧ CyclesGuarded (⟨b, false⟩ :: frames) := by
  refine ⟨?_, Along.nesting_eq, fun b => ⟨congrFun b.rule_eq s, (b.rule_same _ s rfl).2, ?_⟩⟩
  · intro α x hx
    exact ((agree_builder records_anything hx 0).steady s).nesting
  · intro frames t ht
    have hle := ht.nesting_le h
    have heq := ht.nesting_eq
    have hfalls : Falls (b.rank + 1) (⟨b, false⟩ :: frames) := ⟨fun _ => Nat.lt_succ_self _, ht.falls⟩
    exact ⟨hle, by omega, hfalls.cyclesGuarded⟩

def nameInParentheses : Parser :=
  let tokens : Array Token := #[⟨.leftParen, "(", .origin⟩, ⟨.identifier, "x", .origin⟩, ⟨.rightParen, ")", .origin⟩]
  (Parser.ofTokens tokens {}).withNesting 127

/-- What stands in the parentheses is an expression in an expression. The outer one is called a level deeper, and so
there is no level left for the inner one. -/
theorem nesting_guard_parentheses :
    let outer := [⟨.wholeExpression, true⟩, ⟨.disjunction, false⟩, ⟨.conjunction, false⟩, ⟨.equality, false⟩,
      ⟨.relation, false⟩, ⟨.sum, false⟩, ⟨.product, false⟩, ⟨.unary, false⟩, ⟨.operand, false⟩, ⟨.primary, false⟩,
      ⟨.parenthesized, false⟩, ⟨.expression, false⟩]
    nameInParentheses.nesting ≤ maxNesting ∧
      (RuleName.expression.rule nameInParentheses).1 = .error (.nestingTooDeep .origin) ∧
      (RuleName.expression.rule nameInParentheses).2.nesting = 127 ∧
      Moment RuleName.expression.script nameInParentheses outer ((advance nameInParentheses).2.withNesting 128) ∧
      guardedCalls outer ≤ 1 ∧ CyclesGuarded (⟨.expression, false⟩ :: outer) := by
  intro outer
  have hroom : nameInParentheses.nesting ≤ maxNesting := by decide
  have hmoment : Moment RuleName.expression.script nameInParentheses outer
      ((advance nameInParentheses).2.withNesting 128) := by
    refine .guarded rfl ?_
    iterate 7 refine .first (.call ?_)
    -- `unary` looks at the token and finds no operator.
    apply Moment.second
    · rfl
    refine .call ?_
    apply Moment.second
    · rfl
    refine .first (.call ?_)
    -- `primary` finds the parenthesis, and `parenthesized` passes it.
    apply Moment.second
    · rfl
    refine .call ?_
    apply Moment.second
    · rfl
    refine .first (.call ?_)
    exact .start _ _
  have herror : (RuleName.expression.rule nameInParentheses).1 = .error (.nestingTooDeep .origin) := by rfl
  obtain ⟨-, -, hrules⟩ := nesting_guard hroom
  obtain ⟨-, hback, hmoments⟩ := hrules .expression
  obtain ⟨-, hguarded, hcycles⟩ := hmoments hmoment
  exact ⟨hroom, herror, hback, hmoment, hguarded, hcycles⟩

end CalExport.Rule
