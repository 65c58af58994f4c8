import CalExport.Proofs.Covering
import CalExport.Proofs.Expression.Reading

namespace CalExport.Rule

variable {n k : Nat} {κ : Kind} {P : List Token → Prop}

/-- A token of this kind is no operator of a level from `k` up to that of relations. A set behind IN ends its operand
at once, so operators that bind tighter may stand behind a relation. -/
def Ends (k : Nat) (κ : Kind) : Prop := ∀ op : BinaryOp, k ≤ op.level → op.level < 4 → κ ≠ op.kind

theorem ends_of_le (hk : 4 ≤ k) : Ends k κ := fun _ hlevel hlt => absurd hlt (by omega)

theorem Ends.step (h : Ends (k + 1) κ) (hnone : operatorAt k κ = none) : Ends k κ := by
  rintro op hlevel hlt rfl
  rcases Nat.lt_or_eq_of_le hlevel with hless | rfl
  · exact h op hless hlt rfl
  · rw [operatorAt_kind] at hnone
    cases hnone

def Finished (κ : Kind) : Prop := Ends 0 κ ∧ κ ≠ .questionMark

structure Covered (n : Nat) : Prop where
  expression {P : List Token → Prop} :
    Covers P (deeper n).expression fun run rest e => (forms n).expression run e ∧ Finished (nextKind rest)
  unary {P : List Token → Prop} : Covers P (deeper n).unary fun run _ e => (forms n).unary run e

theorem commaSeparated_covers {item : Rule Expr} {form : List Token → Expr → Prop}
    (hprogress : TryProgresses (commaRound item))
    (hitem : ∀ {P : List Token → Prop}, Covers P item fun run _ e => form run e) :
    Covers P (commaSeparated item) fun run _ es => Separated form run es := by
  have hloop : ∀ found : Array Expr, Covers (fun _ => True) (tryLoop found (commaRound item)) fun run _ all =>
      ∃ es, all.toList = found.toList ++ es ∧ Separated form run es := by
    apply Covers.tryLoop hprogress
    intro found
    apply Covers.bind hitem
    intro e u
    apply Covers.accept (by nofun)
    · intro comma
      apply Covers.pure
      rintro l ⟨⟨-, he⟩, hcomma⟩
      refine ⟨trivial, ?_⟩
      rintro v rest all ⟨es, hall, hes⟩
      refine ⟨e :: es, by simp [hall], ?_⟩
      have hcons := Separated.cons he hcomma hes
      simpa using hcons
    · apply Covers.pure
      rintro l ⟨⟨-, he⟩, -⟩
      refine ⟨[e], by simp, ?_⟩
      rw [List.append_nil]
      exact .last he
  apply Covers.bind ((hloop #[]).weaken fun _ _ => trivial)
  intro all u
  apply Covers.pure
  rintro l ⟨-, es, hall, hes⟩
  rw [List.append_nil]
  obtain rfl : all.toList = es := by simpa using hall
  exact hes

theorem listUpTo_covers {item : Rule Expr} {form : List Token → Expr → Prop}
    (hprogress : TryProgresses (commaRound item))
    (hitem : ∀ {P : List Token → Prop}, Covers P item fun run _ e => form run e) :
    Covers P (listUpTo κ item) fun run _ es => Listed form run es := by
  apply Covers.check
  intro close
  cases close with
  | true => exact Covers.pure fun _ _ => .nil
  | false =>
      apply (commaSeparated_covers hprogress hitem).mono
      intro run rest es _ hes
      exact .separated hes

theorem memberName_covers (expected : String) :
    Covers P (memberName expected) fun run _ name => ∃ t, run = [t] ∧ namesMember t.kind = true ∧ name = t.value := by
  apply Covers.peek
  intro t
  split
  case h_6 => exact Covers.throw _
  all_goals
    rename_i hkind
    apply Covers.advance
    · rintro l ⟨-, hnext, -⟩
      rw [hnext, hkind]
      nofun
    · intro t'
      apply Covers.pure
      rintro l ⟨-, -, hnext⟩
      obtain rfl := hnext t' l rfl
      exact ⟨t', rfl, by rw [hkind]; rfl, rfl⟩

section

variable (hsub : Covered n)

include hsub

theorem element_covers : Covers P (elementWith (deeper n)) fun run _ e => Element (forms n) run e := by
  apply Covers.here
  intro start
  apply Covers.accept (by nofun)
  · intro dots
    apply Covers.bind hsub.expression
    intro last u
    apply Covers.spanFrom
    intro span
    apply Covers.pure
    rintro l ⟨⟨-, hdots⟩, hlast, -⟩
    rw [List.append_nil]
    exact .upTo hdots hlast
  · apply Covers.bind hsub.expression
    intro first u
    apply Covers.accept (by nofun)
    · intro dots
      apply Covers.bind (p := fun run _ last => (run = [] ∧ last = none) ∨
        ∃ e, last = some e ∧ (forms n).expression run e)
      · apply Covers.peekKind
        intro κ
        split
        · apply hsub.expression.map
          intro run rest e he
          exact .inr ⟨e, rfl, he.1⟩
        · exact Covers.pure fun _ _ => .inl ⟨rfl, rfl⟩
      · intro last v
        apply Covers.spanFrom
        intro span
        apply Covers.pure
        rintro l ⟨⟨⟨-, hfirst, -⟩, hdots⟩, ⟨rfl, rfl⟩ | ⟨e, rfl, hlast⟩⟩
        · exact .onwards hfirst hdots
        · rw [List.append_nil]
          exact .between hfirst hdots hlast
    · apply Covers.pure
      rintro l ⟨⟨-, hfirst, -⟩, -⟩
      rw [List.append_nil]
      exact .single hfirst

theorem set_covers : Covers P (setLiteralWith (deeper n)) fun run _ e => SetForm (forms n) run e := by
  apply Covers.here
  intro start
  apply Covers.expect (by nofun)
  intro opening
  apply Covers.bind (listUpTo_covers (grammarTryLoop_progresses (.elements n)) (element_covers hsub))
  intro elements u
  apply Covers.expect (by nofun)
  intro closing
  apply Covers.spanFrom
  intro span
  apply Covers.pure
  rintro l ⟨⟨⟨-, hopen⟩, helements⟩, hclose⟩
  exact .mk hopen helements hclose

theorem group_covers : Covers P (parenthesizedWith (deeper n)) fun run _ e => Phrase (forms n) 7 run e := by
  apply Covers.expect (by nofun)
  intro opening
  apply Covers.bind hsub.expression
  intro e u
  apply Covers.expect (by nofun)
  intro closing
  apply Covers.pure
  rintro l ⟨⟨⟨-, hopen⟩, he, -⟩, hclose⟩
  exact .group hopen he hclose

end

/-- A literal that is not reported has its value within range. -/
theorem literalOf_covers (t : Token) :
    Covers P (liftM (literalOf? t)) fun run _ value => run = [] ∧ value = literal? t := by
  have hpure : ∀ value, Covers P (pure value : Rule (Option Literal)) fun run _ found => run = [] ∧ found = value :=
    fun _ => Covers.pure fun _ _ => ⟨rfl, rfl⟩
  unfold literalOf?
  fun_cases literal? t with
  | case1 hkind hrange =>
      simp only [hkind, integerValue, boundedValue, if_pos hrange]
      exact hpure (some (.integer (digitsValue t.text)))
  | case2 hkind hrange =>
      simp only [hkind, integerValue, boundedValue, if_neg hrange]
      exact Covers.report (f := fun _ => pure (some (Literal.integer 0))) Forward.refl
  | case3 hkind | case4 hkind | case5 hkind | case6 hkind | case7 hkind | case8 hkind | case9 hkind =>
      simp only [hkind]
      exact hpure _
  | case10 =>
      split
      case h_9 => exact hpure none
      all_goals simp_all

theorem wordOrLiteral_covers (t : Token) (hname : t.kind ≠ .identifier) (hquoted : t.kind ≠ .quotedIdentifier) :
    Covers (fun l => P l ∧ IsNext t l) (wordOrLiteral t) fun run _ e => run = [t] ∧ leaf? t = some e := by
  unfold wordOrLiteral
  split
  · rename_i hliteral
    apply Covers.advance
    · rintro l ⟨-, hnext, -⟩ heof
      rw [← hnext, heof] at hliteral
      cases hliteral
    · intro t'
      apply Covers.bind (literalOf_covers t)
      intro value u
      cases value with
      | none => exact Covers.throw _
      | some value =>
          apply Covers.pure
          rintro l ⟨⟨-, -, hnext⟩, rfl, hvalue⟩
          obtain rfl := hnext t' l rfl
          refine ⟨rfl, ?_⟩
          unfold leaf?
          split <;> simp_all [Kind.isLiteral]
  · rename_i hliteral
    split
    · rename_i word hkind
      split
      · exact Covers.throw _
      · rename_i hends
        have htrue : word ≠ .true_ := by
          rintro rfl
          exact hliteral (by rw [hkind]; rfl)
        have hfalse : word ≠ .false_ := by
          rintro rfl
          exact hliteral (by rw [hkind]; rfl)
        apply Covers.advance
        · rintro l ⟨-, hnext, -⟩
          rw [hnext, hkind]
          rintro ⟨⟩
        · intro t'
          apply Covers.pure
          rintro l ⟨-, -, hnext⟩
          obtain rfl := hnext t' l rfl
          refine ⟨rfl, ?_⟩
          unfold leaf?
          split <;> simp_all
    · exact Covers.throw _

theorem name_covers (t : Token) (hkind : t.kind = .identifier ∨ t.kind = .quotedIdentifier) :
    Covers (fun l => P l ∧ IsNext t l) (liftM advance >>= fun _ => pure (.identifier t.value t.span) : Rule Expr)
      fun run _ e => run = [t] ∧ leaf? t = some e := by
  apply Covers.advance
  · rintro l ⟨-, hnext, -⟩
    rw [hnext]
    rcases hkind with hkind | hkind <;> rw [hkind] <;> nofun
  · intro t'
    apply Covers.pure
    rintro l ⟨-, -, hnext⟩
    obtain rfl := hnext t' l rfl
    refine ⟨rfl, ?_⟩
    rcases hkind with hkind | hkind <;> simp [leaf?, hkind]

theorem stands_of_leaf {t : Token} {e : Expr} (h : leaf? t = some e) : Stands t e := by
  rw [Stands, h]
  rfl

theorem primary_covers (hsub : Covered n) :
    Covers P (primaryWith (deeper n)) fun run _ e => Phrase (forms n) 7 run e := by
  have hleaf : ∀ (t : Token) run (rest : List Token) e, run = [t] ∧ leaf? t = some e → Phrase (forms n) 7 run e := by
    rintro t run rest e ⟨rfl, he⟩
    exact .leaf (stands_of_leaf he)
  apply Covers.peek
  intro t
  split
  · exact group_covers hsub
  · apply (set_covers hsub).mono
    intro run rest e _ he
    exact .set he
  · rename_i hkind
    exact (name_covers t (.inl hkind)).mono fun run rest e _ => hleaf t run rest e
  · rename_i hkind
    exact (name_covers t (.inr hkind)).mono fun run rest e _ => hleaf t run rest e
  · rename_i hname hquoted
    exact (wordOrLiteral_covers t hname hquoted).mono fun run rest e _ => hleaf t run rest e

section

variable (hsub : Covered n)

include hsub

/-- Each trailer is put behind an operand that stands already. -/
theorem trailer_covers (start : Nat) (e : Expr) :
    Covers P (trailerRound (deeper n) start e) fun run _ next => match next with
      | .yield e' => ∀ u, Phrase (forms n) 7 u e → Phrase (forms n) 7 (u ++ run) e'
      | .done e' => run = [] ∧ e' = e := by
  have hargs : ∀ {κ : Kind} {P : List Token → Prop}, Covers P (listUpTo κ (deeper n).expression) fun run _ es =>
      Listed (forms n).expression run es :=
    listUpTo_covers (grammarTryLoop_progresses (.arguments n)) (hsub.expression.mono fun _ _ _ _ h => h.1)
  apply Covers.peekKind
  intro κ
  split
  · apply Covers.advance (by rintro l ⟨-, hnext⟩; rw [hnext]; nofun)
    intro dot
    apply Covers.bind (memberName_covers _)
    intro name u
    apply Covers.spanFrom
    intro span
    apply Covers.pure
    rintro l ⟨⟨-, hdot⟩, t, rfl, hname, rfl⟩ v hv
    exact .member hv hdot hname
  · apply Covers.advance (by rintro l ⟨-, hnext⟩; rw [hnext]; nofun)
    intro colons
    apply Covers.bind (memberName_covers _)
    intro name u
    apply Covers.spanFrom
    intro span
    apply Covers.pure
    rintro l ⟨⟨-, hcolons⟩, t, rfl, hname, rfl⟩ v hv
    exact .member hv hcolons hname
  · apply Covers.advance (by rintro l ⟨-, hnext⟩; rw [hnext]; nofun)
    intro opening
    apply Covers.bind hargs
    intro arguments u
    apply Covers.expect (by nofun)
    intro closing
    apply Covers.spanFrom
    intro span
    apply Covers.pure
    rintro l ⟨⟨⟨-, hopen⟩, harguments⟩, hclose⟩ v hv
    exact .call hv hopen harguments hclose
  · apply Covers.advance (by rintro l ⟨-, hnext⟩; rw [hnext]; nofun)
    intro opening
    apply Covers.bind hargs
    intro indices u
    apply Covers.expect (by nofun)
    intro closing
    apply Covers.spanFrom
    intro span
    apply Covers.pure
    rintro l ⟨⟨⟨-, hopen⟩, hindices⟩, hclose⟩ v hv
    exact .index hv hopen hindices hclose
  · exact Covers.pure fun _ _ => ⟨rfl, rfl⟩

theorem operand_covers : Covers P (operandWith (deeper n)) fun run _ e => Phrase (forms n) 7 run e := by
  apply Covers.here
  intro start
  apply Covers.bind (primary_covers hsub)
  intro e u
  have hloop : Covers (fun _ => True) (tryLoop e (trailerRound (deeper n) start)) fun run _ e' =>
      ∀ u, Phrase (forms n) 7 u e → Phrase (forms n) 7 (u ++ run) e' := by
    apply Covers.tryLoop (g := fun e run _ e' => ∀ u, Phrase (forms n) 7 u e → Phrase (forms n) 7 (u ++ run) e')
      (grammarTryLoop_progresses (.trailers n start))
    intro e
    apply (trailer_covers hsub start e).mono
    rintro run rest (e' | e') - hstep
    · obtain ⟨rfl, rfl⟩ := hstep
      simp
    · refine ⟨trivial, ?_⟩
      intro v _ e'' hnext u hu
      rw [← List.append_assoc]
      exact hnext _ (hstep u hu)
  apply (hloop.weaken fun _ _ => trivial).mono
  rintro run rest e' ⟨-, he⟩ hstep
  exact hstep u he

theorem unary_covers : Covers P (unaryWith (deeper n)) fun run _ e => Phrase (forms n) 6 run e := by
  apply Covers.peek
  intro t
  split
  · apply (operand_covers hsub).mono
    intro run rest e _ he
    exact .tighter (by decide) he
  · rename_i op hop
    have hkind := eq_of_unaryOp hop
    apply Covers.advance
    · rintro l ⟨-, hnext, -⟩
      rw [hnext, hkind]
      cases op <;> nofun
    · intro t'
      apply Covers.bind hsub.unary
      intro e u
      apply Covers.pure
      rintro l ⟨⟨-, -, hnext⟩, he⟩
      obtain rfl := hnext t' _ rfl
      rw [List.append_nil]
      exact .unary hkind he

end

def LevelCovers (n k : Nat) : Prop := ∀ {P : List Token → Prop}, Covers P (levelWith (deeper n) k) fun run rest e =>
  Phrase (forms n) k run e ∧ Ends k (nextKind rest)

def RightOf (n k : Nat) (op : BinaryOp) (run rest : List Token) (e : Expr) : Prop :=
  Phrase (forms n) (k + 1) run e ∧ Ends (k + 1) (nextKind rest) ∧
    (op = .isIn → nextKind run = .leftBracket → SetForm (forms n) run e)

theorem relationRight_covers (hsub : Covered n) (h : LevelCovers n 4) (op : BinaryOp) :
    Covers P (relationRightWith (deeper n) op) (RightOf n 3 op) := by
  apply Covers.check
  intro bracket
  split
  · apply (set_covers hsub).mono
    intro run rest e _ he
    exact ⟨(Phrase.set he).looser (Nat.le_refl 7) (by decide), ends_of_le (Nat.le_refl 4), fun _ _ => he⟩
  · rename_i hopen
    apply h.mono
    rintro run rest e ⟨-, hbracket⟩ ⟨he, hends⟩
    refine ⟨he, hends, ?_⟩
    intro hin hrun
    rw [nextKind_append (by rw [hrun]; nofun), hrun] at hbracket
    exact absurd ⟨hin, hbracket.symm⟩ hopen

theorem right_covers (hsub : Covered n) {op : BinaryOp} (h : LevelCovers n (op.level + 1)) :
    Covers P (rightWith (deeper n) op.level op) (RightOf n op.level op) := by
  have hplain : op ≠ .isIn → Covers P (levelWith (deeper n) (op.level + 1)) (RightOf n op.level op) := by
    intro hop
    apply h.mono
    rintro run rest e - ⟨he, hends⟩
    exact ⟨he, hends, fun hin => absurd hin hop⟩
  cases op with
  | less | lessEqual | greater | greaterEqual | isIn => exact relationRight_covers hsub h _
  | _ => exact hplain (by nofun)

theorem leftAssocRound_covers (hsub : Covered n) (hk : k < 6) (h : LevelCovers n (k + 1)) (e : Expr) :
    Covers (fun l => Ends (k + 1) (nextKind l)) (leftAssocRound (operatorAt k) (rightWith (deeper n) k) e)
      fun run rest next => match next with
        | .yield e' => Ends (k + 1) (nextKind rest) ∧ ∀ u, Phrase (forms n) k u e → Phrase (forms n) k (u ++ run) e'
        | .done e' => (run = [] ∧ e' = e) ∧ Ends k (nextKind rest) := by
  apply Covers.peekKind
  intro κ
  split
  · rename_i hnone
    apply Covers.pure
    rintro l ⟨hends, rfl⟩
    exact ⟨⟨rfl, rfl⟩, hends.step hnone⟩
  · rename_i op hop
    obtain ⟨hkind, rfl⟩ := eq_of_operatorAt hk hop
    apply Covers.advance
    · rintro l ⟨-, hnext⟩
      rw [hnext, hkind]
      cases op <;> nofun
    · intro t
      apply Covers.bind (right_covers hsub h)
      intro right v
      apply Covers.pure
      rintro l ⟨⟨-, ht⟩, hright, hends, hset⟩
      refine ⟨hends, ?_⟩
      intro u hu
      rw [List.append_nil]
      exact .binary hu (ht.trans hkind) hright hset

/-- Operands of one level, with those of the next one tighter in between. -/
theorem LevelCovers.looser (hsub : Covered n) (hk : k < 6) (h : LevelCovers n (k + 1)) : LevelCovers n k := by
  intro P
  have hloop : ∀ e, Covers (fun l => Ends (k + 1) (nextKind l))
      (tryLoop e (leftAssocRound (operatorAt k) (rightWith (deeper n) k))) fun run rest e' =>
        (∀ u, Phrase (forms n) k u e → Phrase (forms n) k (u ++ run) e') ∧ Ends k (nextKind rest) := by
    apply Covers.tryLoop (progresses_leftAssocRound n hk)
    intro e
    apply (leftAssocRound_covers hsub hk h e).mono
    rintro run rest (e' | e') - hstep
    · obtain ⟨⟨rfl, rfl⟩, hends⟩ := hstep
      exact ⟨by simp, hends⟩
    · obtain ⟨hends, hstep⟩ := hstep
      refine ⟨hends, ?_⟩
      rintro v rest' e'' ⟨hnext, hends'⟩
      refine ⟨?_, hends'⟩
      intro u hu
      rw [← List.append_assoc]
      exact hnext _ (hstep u hu)
  rw [levelWith_eq _ hk]
  apply Covers.bind h
  intro e u
  apply ((hloop e).weaken fun l hl => hl.2.2).mono
  rintro run rest e' ⟨-, he, -⟩ ⟨hstep, hends⟩
  exact ⟨hstep u (.tighter (by omega) he), hends⟩

theorem levelCovers (hsub : Covered n) (hk : k ≤ 6) : LevelCovers n k := by
  obtain ⟨d, hd⟩ := Nat.exists_eq_add_of_le hk
  induction d generalizing k with
  | zero =>
      obtain rfl : k = 6 := by omega
      intro P
      apply (unary_covers hsub).mono
      intro run rest e _ he
      exact ⟨he, ends_of_le (by decide)⟩
  | succ d ih =>
      have htighter : LevelCovers n (k + 1) := ih (by omega) (by omega)
      intro P
      exact htighter.looser hsub (by omega)

/-- A ternary is always reported. -/
theorem ternary_covers (hsub : Covered n) :
    Covers P (ternaryWith (deeper n)) fun _ _ _ => False := by
  have hdisjunction : ∀ {P}, Covers P (disjunctionWith (deeper n)) fun _ _ _ => True :=
    (levelCovers hsub (Nat.zero_le 6)).mono fun _ _ _ _ _ => trivial
  apply Covers.expect (by nofun)
  intro mark
  apply Covers.report
  have hrest : Covers (fun _ => True) (disjunctionWith (deeper n) >>= fun _ =>
      liftM (accept .colon) >>= fun found =>
        if found then disjunctionWith (deeper n) >>= fun _ => pure () else pure ()) fun _ _ _ => True := by
    apply Covers.bind hdisjunction
    intro _ u
    apply Covers.accept (by nofun)
    · intro colon
      apply Covers.bind hdisjunction
      intro _ v
      exact Covers.pure fun _ _ => trivial
    · exact Covers.pure fun _ _ => trivial
  exact hrest.steady

theorem expressionWith_covers (hsub : Covered n) : Covers P (expressionWith (deeper n)) fun run rest e =>
    Phrase (forms n) 0 run e ∧ Finished (nextKind rest) := by
  apply Covers.bind (levelCovers hsub (Nat.zero_le 6))
  intro e u
  apply Covers.check
  intro mark
  cases mark with
  | true =>
      apply Covers.bind (ternary_covers hsub)
      intro _ v
      exact Covers.absurd Forward.refl fun _ h => h.2
  | false =>
      apply Covers.pure
      rintro l ⟨⟨-, he, hends⟩, hmark⟩
      rw [List.append_nil]
      exact ⟨he, hends, by simpa using hmark⟩

/-- At every level, the rules yield what the grammar derives. -/
theorem covered (n : Nat) : Covered n := by
  induction n with
  | zero => exact ⟨Covers.tooDeep, Covers.tooDeep⟩
  | succ n ih =>
      refine ⟨Covers.nested (expressionWith_covers ih), Covers.nested ?_⟩
      exact (unary_covers ih)

theorem Finished.not_mem (h : Finished κ) : κ ∉ [.keyword .or_, .keyword .xor_, .keyword .and_, .equal, .notEqual,
    .less, .lessEqual, .greater, .greaterEqual, .keyword .in_, .questionMark] := by
  have hop : ∀ op : BinaryOp, op.level < 4 → κ ≠ op.kind := fun op => h.1 op (Nat.zero_le _)
  simp only [List.mem_cons, List.not_mem_nil, or_false, not_or]
  exact ⟨hop .or (by decide), hop .xor (by decide), hop .and (by decide), hop .equal (by decide),
    hop .notEqual (by decide), hop .less (by decide), hop .lessEqual (by decide), hop .greater (by decide),
    hop .greaterEqual (by decide), hop .isIn (by decide), h.2⟩

/-- Wherever the rule succeeds and reports nothing, the tokens that it has passed are the expression that it yields.
Once the limit on diagnostics has been met, reports leave no trace, so the run starts before that. -/
theorem expression_derives {s t : Parser} {e : Expr} (hread : expression s = (.ok e, t)) (hcapped : s.capped = false)
    (hclean : t.diagnostics = s.diagnostics) :
    ∃ run, ahead s = run ++ ahead t ∧ t.position = s.position + run.length ∧ Derives run e ∧
      t.peek.kind ∉ [.keyword .or_, .keyword .xor_, .keyword .and_, .equal, .notEqual, .less, .lessEqual, .greater,
        .greaterEqual, .keyword .in_, .questionMark] := by
  have hcovers : Covers (fun _ => True) expression fun run rest e => Derives run e ∧ Finished (nextKind rest) := by
    apply Covers.of_levels (x := fun n => (deeper n).expression)
    intro n
    apply (covered n).expression.mono
    rintro run rest e - ⟨he, hfinished⟩
    exact ⟨⟨n, he⟩, hfinished⟩
  have hrun := hcovers.clean trivial hcapped
  rw [hread] at hrun
  obtain ⟨run, rest, hpassed, hform⟩ := hrun (by rw [hclean])
  obtain ⟨hderives, hfinished⟩ := hform e rfl
  refine ⟨run, ?_, ?_, hderives, ?_⟩
  · rw [hpassed.rest_eq, hpassed.ahead_eq]
  · obtain rfl : t = skip run.length s := hpassed.skip_eq
    exact position_skip hpassed.ahead_eq
  · rw [kind_peek, hpassed.rest_eq]
    exact hfinished.not_mem

def openProduct : List Token :=
  [⟨.identifier, "a", .origin⟩, ⟨.keyword .in_, "IN", .origin⟩, ⟨.leftBracket, "[", .origin⟩,
    ⟨.integer, "1", .origin⟩, ⟨.dotDot, "..", .origin⟩, ⟨.rightBracket, "]", .origin⟩, ⟨.times, "*", .origin⟩,
    ⟨.identifier, "b", .origin⟩]

theorem expression_derives_openProduct :
    ∃ e t, expression (.ofTokens openProduct.toArray {}) = (.ok e, t) ∧ t.position = 6 ∧
      Derives (openProduct.take 6) e := by
  have hok : (expression (.ofTokens openProduct.toArray {})).1.toBool = true := by decide +kernel
  have hposition : (expression (.ofTokens openProduct.toArray {})).2.position = 6 := by decide +kernel
  have hclean : (expression (.ofTokens openProduct.toArray {})).2.diagnostics.size = 0 := by decide +kernel
  rcases hread : expression (.ofTokens openProduct.toArray {}) with ⟨fault | e, t⟩
  · rw [hread] at hok
    cases hok
  rw [hread] at hposition hclean
  obtain ⟨run, hahead, hlength, hderives, -⟩ := expression_derives hread rfl (Array.eq_empty_of_size_eq_zero hclean)
  refine ⟨e, t, rfl, hposition, ?_⟩
  have hrun : run.length = 6 := by
    exact (Nat.zero_add run.length).symm.trans (hlength.symm.trans hposition)
  have htake : openProduct.take 6 = run := by
    have hall : openProduct = run ++ ahead t := hahead
    rw [hall, ← hrun, List.take_left]
  rw [htake]
  exact hderives

end CalExport.Rule
