import CalExport.Proofs.ItemRecovery
import CalExport.Proofs.Recording
import CalExport.Proofs.Rounds

namespace CalExport.Rule

variable {α : Type}

/-- The next `n` tokens are there, and none of them is a closing brace. -/
def SparesBraces (c : Cursor) (n : Nat) : Prop :=
  ∀ k < n, (c.after k).peek.kind ≠ .eof ∧ (c.after k).peek.kind ≠ .rightBrace

namespace SparesBraces

variable {c : Cursor} {n : Nat}

theorem zero (c : Cursor) : SparesBraces c 0 := fun k hk => absurd hk (Nat.not_lt_zero k)

theorem succ (h : SparesBraces c n) (heof : (c.after n).peek.kind ≠ .eof)
    (hbrace : (c.after n).peek.kind ≠ .rightBrace) : SparesBraces c (n + 1) := by
  intro k hk
  rcases Nat.lt_succ_iff_lt_or_eq.1 hk with hlt | rfl
  · exact h k hlt
  · exact ⟨heof, hbrace⟩

/-- Behind tokens without a closing brace no brace is closed that was open in front of them. -/
theorem keepsDepth {base : Nat} (h : SparesBraces c n) (hbase : base ≤ c.braceDepth) : KeepsDepth base c n := by
  induction n with
  | zero => exact .zero hbase
  | succ n ih =>
      have hkeeps := ih fun k hk => h k (Nat.lt_succ_of_lt hk)
      obtain ⟨heof, hbrace⟩ := h n (Nat.lt_succ_self n)
      have hend : (c.after n).atEnd = false := by rwa [← Bool.not_eq_true, ← Cursor.kind_peek_eq_eof]
      exact hkeeps.trans (.one (hkeeps.depth n (Nat.le_refl n)) hend fun hclose => absurd hclose hbrace)

end SparesBraces

def Spared (c : Cursor) (s s' : Parser) : Prop := s' = s ∧ ∃ n, s.toCursor = c.after n ∧ SparesBraces c n

namespace Spared

variable {c : Cursor} {s s' : Parser}

theorem advance (h : Spared c s s') (hbrace : s.peek.kind ≠ .rightBrace) :
    Spared c (Rule.advance s).2 (Rule.advance s').2 := by
  obtain ⟨rfl, n, hcursor, hspares⟩ := h
  refine ⟨rfl, ?_⟩
  show ∃ n, s'.next = c.after n ∧ SparesBraces c n
  by_cases heof : s'.peek.kind = .eof
  · exact ⟨n, by rw [Cursor.next, dif_pos (Cursor.kind_peek_eq_eof.1 heof), hcursor], hspares⟩
  · exact ⟨n + 1, by rw [Cursor.after, hcursor], hspares.succ (hcursor ▸ heof) (hcursor ▸ hbrace)⟩

/-- A step that stays in front of the same token. -/
theorem of_cursor (h : Spared c s s') (x : Parser → Parser) (hx : ∀ s, (x s).toCursor = s.toCursor) :
    Spared c (x s) (x s') := by
  obtain ⟨rfl, hs⟩ := h
  exact ⟨rfl, by rwa [hx]⟩

end Spared

def Simulation.sparing (c : Cursor) : Simulation where
  rel := Spared c
  lost _ := False
  closes := False
  ahead := True
  shift := 0
  deep := 0
  lost_mono _ _ h := h
  ahead_of_closes _ := trivial
  peek_eq h := h.1 ▸ rfl
  peekAhead_eq _ h _ _ := h.1 ▸ rfl
  position_eq h := h.1 ▸ rfl
  braceDepth_eq h := h.1 ▸ rfl
  nesting_eq h := h.1 ▸ rfl
  spanFrom_eq h _ := h.1 ▸ rfl
  advance h hbrace := .inr (h.advance hbrace)
  record d h := h.of_cursor (fun s => (Rule.record d s).2) (toCursor_record d)
  recordSkipped start reason h :=
    h.of_cursor (fun s => (Rule.recordSkipped start reason s).2) (toCursor_recordSkipped start reason)
  note e h := h.of_cursor (fun s => (Rule.note e s).2) fun _ => rfl
  withNesting n h := h.of_cursor (fun s => s.withNesting n) fun _ => rfl

/-- What goes on alike wherever closing braces may not be passed passes none. -/
theorem spares_of_agree {P : Parser → Prop} {p : α → Prop} {x : Parse α} {s : Parser}
    (h : Agree (.sparing s.toCursor) P p x x) (hs : P s) :
    ∃ n, (x s).2.toCursor = s.after n ∧ SparesBraces s.toCursor n := by
  have hstart : Spared s.toCursor s s := ⟨rfl, 0, rfl, .zero _⟩
  rcases h.alike hstart hs with hlost | ⟨-, -, -, -, hend⟩
  · exact hlost.elim
  · exact hend

/-- The rules that read expressions and statements, as they are called and with any number of nesting levels left, and
what passes over those that fail. -/
inductive CodeBuilder : {α : Type} → Parse α → Prop
  | expression : CodeBuilder (attempt expression)
  | operand : CodeBuilder (attempt operand)
  | element : CodeBuilder (attempt element)
  | setLiteral : CodeBuilder (attempt setLiteral)
  | statement : CodeBuilder (attempt statement)
  | statementList : CodeBuilder statementList
  | block : CodeBuilder (attempt block)
  | body : CodeBuilder (attempt body)
  | nested {α : Type} {x : Rule α} : CodeBuilder (attempt x) → CodeBuilder (attempt (nested x))
  | commaSeparated {α : Type} {x : Rule α} : CodeBuilder (attempt x) → CodeBuilder (attempt (commaSeparated x))
  | listUpTo {α : Type} (close) {x : Rule α} : CodeBuilder (attempt x) → CodeBuilder (attempt (listUpTo close x))
  | memberName (expected) : CodeBuilder (attempt (memberName expected))
  | deeperExpression (n) : CodeBuilder (attempt (deeper n).expression)
  | deeperUnary (n) : CodeBuilder (attempt (deeper n).unary)
  | elementWith (n) : CodeBuilder (attempt (elementWith (deeper n)))
  | setLiteralWith (n) : CodeBuilder (attempt (setLiteralWith (deeper n)))
  | parenthesizedWith (n) : CodeBuilder (attempt (parenthesizedWith (deeper n)))
  | primaryWith (n) : CodeBuilder (attempt (primaryWith (deeper n)))
  | operandWith (n) : CodeBuilder (attempt (operandWith (deeper n)))
  | unaryWith (n) : CodeBuilder (attempt (unaryWith (deeper n)))
  | productWith (n) : CodeBuilder (attempt (productWith (deeper n)))
  | sumWith (n) : CodeBuilder (attempt (sumWith (deeper n)))
  | relationWith (n) : CodeBuilder (attempt (relationWith (deeper n)))
  | equalityWith (n) : CodeBuilder (attempt (equalityWith (deeper n)))
  | conjunctionWith (n) : CodeBuilder (attempt (conjunctionWith (deeper n)))
  | disjunctionWith (n) : CodeBuilder (attempt (disjunctionWith (deeper n)))
  | ternaryWith (n) : CodeBuilder (attempt (ternaryWith (deeper n)))
  | expressionWith (n) : CodeBuilder (attempt (expressionWith (deeper n)))
  | assignmentOrCall : CodeBuilder (attempt assignmentOrCall)
  | exitStatement : CodeBuilder (attempt exitStatement)
  | counter : CodeBuilder (attempt counter)
  | direction : CodeBuilder (attempt direction)
  | separator (ends) : CodeBuilder (separator ends)
  | skipStatement : CodeBuilder skipStatement
  | recoverStatement (fault start reason) : CodeBuilder (recoverStatement fault start reason)
  | statementAt (n) : CodeBuilder (attempt (statementAt n))
  | listWith (n) : CodeBuilder (listWith (statementAt n))
  | bodyWith (n) : CodeBuilder (attempt (bodyWith (statementAt n)))
  | blockWith (n) : CodeBuilder (attempt (blockWith (statementAt n)))
  | branchWith (n) : CodeBuilder (attempt (branchWith (statementAt n)))
  | elseWith (n) : CodeBuilder (attempt (elseWith (statementAt n)))
  | ifWith (n) : CodeBuilder (attempt (ifWith (statementAt n)))
  | whileWith (n) : CodeBuilder (attempt (whileWith (statementAt n)))
  | repeatWith (n) : CodeBuilder (attempt (repeatWith (statementAt n)))
  | forWith (n) : CodeBuilder (attempt (forWith (statementAt n)))
  | withWith (n) : CodeBuilder (attempt (withWith (statementAt n)))
  | caseBranchWith (n) : CodeBuilder (attempt (caseBranchWith (statementAt n)))
  | caseBranchesWith (n) : CodeBuilder (caseBranchesWith (statementAt n))
  | otherwiseWith (n) : CodeBuilder (otherwiseWith (statementAt n))
  | caseWith (n) : CodeBuilder (attempt (caseWith (statementAt n)))
  | statementWith (n) : CodeBuilder (attempt (statementWith (statementAt n)))

theorem agree_codeBuilder {x : Parse α} (hx : CodeBuilder x) (c : Cursor) (k : Nat) :
    Agree (.sparing c) (Below k) Never x x := by
  have hdeeper : ∀ n, Deeper.Agree (.sparing c) k (deeper n) (deeper n) := fun n => agree_deeper n k
  have hstatement : ∀ n, RuleAgree (.sparing c) (Below k) Always (statementAt n) (statementAt n) :=
    fun n => agree_statementAt n k
  have hup : ∀ {α : Type} {p : α → Prop} {x : Rule α}, RuleAgree (.sparing c) (Below (k + 1)) p x x →
      Agree (.sparing c) (Below k) Never (attempt x) (attempt x) := fun hx => (hx.le (Nat.le_succ k)).agree
  induction hx with
  | expression => exact agree_expression.agree
  | operand => exact agree_operand.agree
  | element => exact agree_element.agree
  | setLiteral =>
      have hset : RuleAgree (.sparing c) (Below (k + 1)) Always setLiteral setLiteral :=
        RuleAgree.of_levels fun n => agree_setLiteralWith (hdeeper n)
      exact hup hset
  | statement =>
      have hstatement' : RuleAgree (.sparing c) (Below k) Always statement statement := RuleAgree.of_levels hstatement
      exact hstatement'.agree
  | statementList => exact Agree.of_levels fun n => agree_listWith (hstatement n)
  | block =>
      have hblock : RuleAgree (.sparing c) (Below (k + 1)) Always block block :=
        RuleAgree.of_levels fun n => agree_blockWith (hstatement n)
      exact hup hblock
  | body => exact agree_body.agree
  | nested _ ih => exact (RuleAgree.nested (RuleAgree.of_agree ih)).agree
  | commaSeparated _ ih => exact (agree_commaSeparated (RuleAgree.of_agree ih)).agree
  | listUpTo close _ ih => exact (agree_listUpTo close (RuleAgree.of_agree ih)).agree
  | memberName expected => exact (agree_memberName expected).agree
  | deeperExpression n => exact (hdeeper n).expression.agree
  | deeperUnary n => exact (hdeeper n).unary.agree
  | elementWith n => exact (agree_elementWith (hdeeper n)).agree
  | setLiteralWith n => exact hup (agree_setLiteralWith (hdeeper n))
  | parenthesizedWith n => exact hup (agree_parenthesizedWith (hdeeper n))
  | primaryWith n => exact hup (agree_primaryWith (hdeeper n))
  | operandWith n => exact hup (agree_operandWith (hdeeper n))
  | unaryWith n => exact hup (agree_unaryWith (hdeeper n))
  | productWith n => exact hup (agree_productWith (hdeeper n))
  | sumWith n => exact hup (agree_sumWith (hdeeper n))
  | relationWith n => exact hup (agree_relationWith (hdeeper n))
  | equalityWith n => exact hup (agree_equalityWith (hdeeper n))
  | conjunctionWith n => exact hup (agree_conjunctionWith (hdeeper n))
  | disjunctionWith n => exact hup (agree_disjunctionWith (hdeeper n))
  | ternaryWith n => exact hup (agree_ternaryWith (hdeeper n))
  | expressionWith n => exact hup (agree_expressionWith (hdeeper n))
  | assignmentOrCall => exact agree_assignmentOrCall.agree
  | exitStatement => exact agree_exitStatement.agree
  | counter => exact agree_counter.agree
  | direction => exact agree_direction.agree
  | separator ends => exact agree_separator ends
  | skipStatement => exact agree_skipStatement
  | recoverStatement fault start reason => exact agree_recoverStatement fault start reason
  | statementAt n => exact (hstatement n).agree
  | listWith n => exact agree_listWith (hstatement n)
  | bodyWith n => exact hup (agree_bodyWith (hstatement n))
  | blockWith n => exact hup (agree_blockWith (hstatement n))
  | branchWith n => exact (agree_branchWith (hstatement n)).agree
  | elseWith n => exact (agree_elseWith (hstatement n)).agree
  | ifWith n => exact hup (agree_ifWith (hstatement n))
  | whileWith n => exact hup (agree_whileWith (hstatement n))
  | repeatWith n => exact hup (agree_repeatWith (hstatement n))
  | forWith n => exact hup (agree_forWith (hstatement n))
  | withWith n => exact hup (agree_withWith (hstatement n))
  | caseBranchWith n => exact hup (agree_caseBranchWith (hstatement n))
  | caseBranchesWith n => exact (agree_caseBranchesWith (hstatement n)).le (Nat.le_succ k)
  | otherwiseWith n => exact (agree_otherwiseWith (hstatement n)).le (Nat.le_succ k)
  | caseWith n => exact hup (agree_caseWith (hstatement n))
  | statementWith n => exact hup (agree_statementWith (hstatement n))

/-- A round over statements is the last one only in front of a token that ends the list. -/
theorem listRound_done {statement : Rule Statement} {found more : Array Statement} {s t : Parser}
    (h : listRound statement found s = (.done more, t)) : t = s ∧ endsList s.peek.kind = true := by
  simp only [listRound, Rule.peek, here, look_bind_apply] at h
  by_cases hlist : endsList s.peek.kind = true
  · rw [if_pos hlist, pure_apply] at h
    cases h
    exact ⟨rfl, hlist⟩
  rw [if_neg hlist] at h
  by_cases hsemicolon : s.peek.kind = .semicolon
  · rw [if_pos hsemicolon, bind_apply, pure_apply] at h
    cases h
  rw [if_neg hsemicolon, look_bind_apply, bind_apply] at h
  cases hresult : (attempt statement s).1 with
  | ok a =>
      rw [hresult] at h
      cases h
  | error fault =>
      rw [hresult] at h
      cases h

/-- The tokens that a list of statements leaves for what stands around it: words that close a block, words that begin
another declaration, a closing brace, and the end of the input. -/
def listEnds : List Kind :=
  [.keyword .end_, .keyword .until_, .keyword .procedure, .keyword .function, .keyword .local_, .keyword .trigger,
    .keyword .event, .rightBrace, .eof]

theorem mem_listEnds {κ : Kind} (h : endsList κ = true) : κ ∈ listEnds := by
  unfold endsList at h
  split at h
  case h_3 k _ _ => cases k <;> first | exact absurd h Bool.false_ne_true | decide
  all_goals first | exact absurd h Bool.false_ne_true | decide

theorem listWith_ends (n : Nat) (s : Parser) : endsList (listWith (statementAt n) s).2.peek.kind = true := by
  obtain ⟨b, t, -, hdone⟩ := (grammarLoop_progresses (.statements n)).loop_ends #[] s
  obtain ⟨hstay, hend⟩ := listRound_done hdone
  have hlist : (listWith (statementAt n) s).2 = (loop #[] (listRound (statementAt n)) s).2 := rfl
  rw [hlist, hstay]
  exact hend

/-- From every state, whether it succeeds or fails, a builder of code passes tokens none of which is a closing brace,
so that no fewer braces are open behind it than in front of it. And a list of statements ends in front of one of
`listEnds`, whatever the tokens. -/
theorem code_spares_braces :
    (∀ {α : Type} {x : Parse α}, CodeBuilder x → ∀ s : Parser, ∃ n, (x s).2.toCursor = s.after n ∧
      SparesBraces s.toCursor n ∧ s.braceDepth ≤ (x s).2.braceDepth) ∧
    ∀ s : Parser, (statementList s).2.peek.kind ∈ listEnds ∧
      ∀ n, (listWith (statementAt n) s).2.peek.kind ∈ listEnds := by
  refine ⟨?_, fun s => ⟨mem_listEnds (listWith_ends s.freeLevels s), fun n => mem_listEnds (listWith_ends n s)⟩⟩
  intro α x hx s
  obtain ⟨n, hcursor, hspares⟩ :=
    spares_of_agree (agree_codeBuilder hx s.toCursor (s.left + 1)) (Nat.lt_succ_self s.left)
  refine ⟨n, hcursor, hspares, ?_⟩
  rw [hcursor]
  exact (hspares.keepsDepth (Nat.le_refl _)).depth n (Nat.le_refl n)

def brokenCase : Parser := (advance (.ofTokens #[⟨.leftBrace, "\x7b", .origin⟩, ⟨.keyword .case_, "CASE", .origin⟩,
  ⟨.identifier, "x", .origin⟩, ⟨.keyword .of, "OF", .origin⟩, ⟨.integer, "1", .origin⟩, ⟨.colon, ":", .origin⟩,
  ⟨.rightParen, ")", .origin⟩, ⟨.rightBrace, "\x7d", .origin⟩] {})).2

theorem code_spares_braces_brokenCase :
    (caseWith (statementAt 1) brokenCase).2.position = 7 ∧
      (caseWith (statementAt 1) brokenCase).2.peek.kind = .rightBrace ∧
      brokenCase.braceDepth ≤ (attempt (caseWith (statementAt 1)) brokenCase).2.braceDepth ∧
      (statementList brokenCase).2.peek.kind ∈ listEnds := by
  have hrun := code_spares_braces.1 (.caseWith 1) brokenCase
  refine ⟨by decide +kernel, by decide +kernel, ?_, (code_spares_braces.2 brokenCase).1⟩
  exact hrun.elim fun _ h => h.2.2

end CalExport.Rule
