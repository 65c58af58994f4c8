import CalExport.Proofs.Expression.Extent
import CalExport.Proofs.SpanGeometry
import CalExport.Proofs.Upkeep.Object

namespace CalExport

open Text Rule

namespace Rule

variable {c : Cursor} {s t : Parser} {n : Nat}

structure Over (c : Cursor) (s : Parser) : Prop where
  tokens : s.tokens = c.tokens
  eof : s.eof = c.eof
  start_le : c.position ≤ s.position

theorem Over.of_forward (h : Over c s) (g : Forward s t) : Over c t :=
  ⟨g.tokens.trans h.tokens, g.eof.trans h.eof, Nat.le_trans h.start_le g.position⟩

/-- A run over these tokens is one in front of their end. -/
theorem Over.within (h : Over c s) : Within { Fence.whole c with earlier := s.diagnostics } s where
  tokens := h.tokens
  eof := h.eof
  start_le := h.start_le
  le_limit := by
    show s.position ≤ c.tokens.size
    rw [← h.tokens]
    exact s.position_le
  level hlt := absurd hlt (Nat.lt_irrefl _)
  reported _ _ hd := .inl hd

def Upkeep.over (c : Cursor) : Upkeep where
  holds := Over c
  advance h := h.of_forward (forward_advance _)
  report _ h := h.of_forward (forward_record _ _)
  note e h := h.of_forward (forward_note e _)
  withNesting _ h := ⟨h.tokens, h.eof, h.start_le⟩
  recordSkipped _ h hwalked _ := (h.of_forward hwalked.forward).of_forward (forward_recordSkipped _ _ _)

theorem traced_of_items {x : Rule Expr} {R : Expr → Prop} (hx : ∀ F, Items F x)
    (hserves : RuleServes (.over c) n x R) :
    RuleServes (.over c) n x fun e => c.InOrder → (SyntaxNode.expr e).Traced c := by
  intro s hs hn
  obtain ⟨hholds, hnesting, -⟩ := hserves s hs hn
  obtain ⟨-, -, hread⟩ := hx _ s.position s hs.within rfl
  refine ⟨hholds, hnesting, ?_⟩
  cases hresult : (attempt x s).1 with
  | error fault => trivial
  | ok e =>
      rw [hresult] at hread
      exact fun hc => (hread hc).traced e (List.mem_singleton_self e)

def Growth.traced (c : Cursor) : Growth (.over c) where
  grade _ m := c.InOrder → m.Traced c
  mono h _ := h
  statement h hc := .statement fun child hchild => h child hchild hc
  dataType h hc := .dataType fun child hchild => h child hchild hc
  placeholder _ span _ := .placeholder span
  compound hl hr hc := .compound (hl hc) (hr hc)
  expression n := traced_of_items (fun _ => items_expressionRule) (bendsTo_expression n)
  operand n := traced_of_items (fun _ => items_operand) (bendsTo_operand n)
  element n := traced_of_items (fun _ => items_element) (bendsTo_element n)

/-- Every operation of a document, wherever it stands. -/
theorem traced_document (tokens : Array Token) (preferences : ParserPreferences) (events : Array Event)
    (hc : (Cursor.ofTokens tokens).InOrder) :
    ∀ e, (wholeDocument { Parser.ofTokens tokens preferences with events }).1.Has (.expr e) → e.isOperation = true →
      ∃ i j front back, e.ReadFrom (Cursor.ofTokens tokens) i j front back := by
  rintro e ⟨root, hroot, hreaches⟩ hoperation
  have hstart : Over (Cursor.ofTokens tokens) { Parser.ofTokens tokens preferences with events } :=
    ⟨rfl, rfl, Nat.le_refl _⟩
  exact (upkeep_wholeDocument (.traced _) hstart rfl).2 root hroot hc e hreaches hoperation

end Rule

namespace Expr.ReadFrom

variable {c : Cursor} {i j : Nat} {front back : Bool} {e : Expr}

theorem start_iff (hc : c.InOrder) (h : e.ReadFrom c i j front back) :
    e.span.start = (c.tokenAt i).span.start ↔ front = true := by
  obtain ⟨a, b, ha, hab, hb, hspan, hfront, -⟩ := h.span_eq hc
  rw [hspan, hfront]
  constructor
  · intro hstart
    apply Decidable.byContradiction
    intro hne
    have hsize := h.le_size
    have hwidth := hc.start_lt_stop (show i < c.tokens.size by omega)
    have hgap := hc.stop_le_start (show i < a by omega) (by omega)
    have hoffset : (c.tokenAt a).span.start.offset = (c.tokenAt i).span.start.offset :=
      congrArg Position.offset hstart
    omega
  · rintro rfl
    rfl

theorem stop_iff (hc : c.InOrder) (h : e.ReadFrom c i j front back) :
    e.span.stop = (c.tokenAt (j - 1)).span.stop ↔ back = true := by
  obtain ⟨a, b, ha, hab, hb, hspan, -, hback⟩ := h.span_eq hc
  rw [hspan, hback]
  constructor
  · intro hstop
    apply Decidable.byContradiction
    intro hne
    have hsize := h.le_size
    have hwidth := hc.start_lt_stop (show j - 1 < c.tokens.size by omega)
    have hgap := hc.stop_le_start (show b < j - 1 by omega) (by omega)
    have hoffset : (c.tokenAt b).span.stop.offset = (c.tokenAt (j - 1)).span.stop.offset :=
      congrArg Position.offset hstop
    omega
  · rintro rfl
    rfl

end Expr.ReadFrom

/-- For every source and every operation in its tree: the parentheses of the tokens that were read for it belong to each
other; its span begins with the first of these tokens and ends with the last one, except where a parenthesised operand
stands there; and so it is the text of the operation where none does. -/
theorem operation_spans (preferences : ParserPreferences) (source : String) (lexed : Lexer)
    (h : Lexer.read source = (lexed, none)) :
    let c := Cursor.ofTokens lexed.tokens
    ∃ a events, analyse preferences source = (.ok a, events) ∧
      ∀ e, a.document.Has (.expr e) → e.isOperation = true → ∃ i j front back,
        e.ReadFrom c i j front back ∧ Paired c i j ∧
        (e.span.start = (c.tokenAt i).span.start ↔ front = true) ∧
        (e.span.stop = (c.tokenAt (j - 1)).span.stop ↔ back = true) ∧
        (front = true → back = true → e.span = c.over i (j - 1) ∧ Slices source e.span) := by
  intro c
  have htokenize : tokenize source = .ok (lexed.tokens, lexed.metrics) := by rw [tokenize, h]
  obtain ⟨hsource, -⟩ := ofSource_of_tokenize htokenize
  have hc := hsource.inOrder
  obtain ⟨a, events, hanalyse, hdocument⟩ : ∃ a events, analyse preferences source = (.ok a, events) ∧
      a.document = (wholeDocument { Parser.ofTokens lexed.tokens preferences with events := lexed.events }).1 := by
    unfold analyse
    rw [h]
    exact ⟨_, _, rfl, rfl⟩
  refine ⟨a, events, hanalyse, ?_⟩
  intro e he hoperation
  rw [hdocument] at he
  obtain ⟨i, j, front, back, hread⟩ := traced_document lexed.tokens preferences lexed.events hc e he hoperation
  have hlt := hread.lt
  refine ⟨i, j, front, back, hread, hread.paired, hread.start_iff hc, hread.stop_iff hc, ?_⟩
  intro hfront hback
  have hspan : e.span = c.over i (j - 1) := by
    obtain ⟨first, last, -, -, -, hspan, hfirst, hlast⟩ := hread.span_eq hc
    rw [hspan, hfirst.1 hfront, ← hlast.1 hback, Nat.add_sub_cancel]
  exact ⟨hspan, hspan ▸ hsource.slices_over (by omega)⟩

def assignmentTable (value : String) : String :=
  "OBJECT Table 1 T \x7b PROPERTIES \x7b OnInsert=BEGIN\n x := " ++ value ++ ";\nEND \x7d \x7d"

def assigned? : List SyntaxNode → Option Expr
  | [.statement (.assign _ .assign value _)] => some value
  | _ => none

theorem has_of_assigned {d : Document} {e : Expr} (h : assigned? d.nodes = some e) : d.Has (.expr e) := by
  unfold assigned? at h
  split at h
  · rename_i hnodes
    cases h
    refine ⟨_, hnodes ▸ List.mem_singleton_self _, ?_⟩
    exact .inside (List.mem_cons_of_mem _ (List.mem_singleton_self _)) (.self _)
  · cases h

/-- An operation that a trigger assigns. -/
theorem exists_assigned (value slice : String) (hread : (Lexer.read (assignmentTable value)).2 = none)
    (h : ((assigned? (document (readingState {} (Lexer.read (assignmentTable value)).1)).1.nodes).map fun e =>
      (e.isOperation, e.span.slice (assignmentTable value))) = some (true, slice)) :
    ∃ lexed a events e, Lexer.read (assignmentTable value) = (lexed, none) ∧
      analyse {} (assignmentTable value) = (.ok a, events) ∧ a.document.Has (.expr e) ∧ e.isOperation = true ∧
      e.span.slice (assignmentTable value) = slice := by
  have hlexed : Lexer.read (assignmentTable value) = ((Lexer.read (assignmentTable value)).1, none) :=
    Prod.ext rfl hread
  obtain ⟨a, events, hanalyse, hdocument, -⟩ := analyse_of_read {} hlexed
  obtain ⟨e, he, hfacts⟩ := Option.map_eq_some_iff.1 h
  obtain ⟨hoperation, hslice⟩ := Prod.mk.inj hfacts
  exact ⟨_, a, events, e, hlexed, hanalyse, has_of_assigned (hdocument ▸ he), hoperation, hslice⟩

theorem operation_spans_trailers : ∃ lexed a events e, Lexer.read (assignmentTable "(a).b + -f(c)") = (lexed, none) ∧
    analyse {} (assignmentTable "(a).b + -f(c)") = (.ok a, events) ∧ a.document.Has (.expr e) ∧
    e.span.slice (assignmentTable "(a).b + -f(c)") = "(a).b + -f(c)" ∧
    ∃ i j front back, e.ReadFrom (.ofTokens lexed.tokens) i j front back ∧ Paired (.ofTokens lexed.tokens) i j ∧
      (e.span.start = ((Cursor.ofTokens lexed.tokens).tokenAt i).span.start ↔ front = true) ∧
      (e.span.stop = ((Cursor.ofTokens lexed.tokens).tokenAt (j - 1)).span.stop ↔ back = true) := by
  obtain ⟨lexed, a, events, e, hread, hanalyse, he, hoperation, hslice⟩ :=
    exists_assigned "(a).b + -f(c)" "(a).b + -f(c)" (by decide +kernel) (by decide +kernel)
  obtain ⟨a', events', hanalyse', hspans⟩ := operation_spans {} (assignmentTable "(a).b + -f(c)") lexed hread
  obtain ⟨rfl, rfl⟩ : a = a' ∧ events = events' := by
    rw [hanalyse] at hanalyse'
    cases hanalyse'
    exact ⟨rfl, rfl⟩
  obtain ⟨i, j, front, back, hfrom, hpaired, hstart, hstop, -⟩ := hspans e he hoperation
  exact ⟨lexed, a, events, e, hread, hanalyse, he, hslice, i, j, front, back, hfrom, hpaired, hstart, hstop⟩

/-- The parenthesis that opens an operation is left out of its span, the one that closes it is not. -/
theorem operation_cut_open : ∃ lexed a events e, Lexer.read (assignmentTable "(a) + b") = (lexed, none) ∧
    analyse {} (assignmentTable "(a) + b") = (.ok a, events) ∧ a.document.Has (.expr e) ∧ e.isOperation = true ∧
    e.span.slice (assignmentTable "(a) + b") = "a) + b" :=
  exists_assigned "(a) + b" "a) + b" (by decide +kernel) (by decide +kernel)

end CalExport
