import CalExport.Proofs.Simulation.Object

namespace CalExport.Rule

/-- From any state with so many levels left two rules do the same, and come back to the level of that state. -/
def SameAt {α : Type} (n : Nat) (x y : Rule α) : Prop :=
  ∀ s : Parser, s.freeLevels = n → x s = y s ∧ (y s).2.nesting = s.nesting

class inductive Flat : {α : Type} → Rule α → Prop
  | pure {α : Type} (a : α) : Flat (pure a : Rule α)
  | throw {α : Type} (fault : Fault) : Flat (throw fault : Rule α)
  | look {α : Type} (f : Parser → α) : Flat (liftM (look f))
  | advance : Flat (liftM advance)
  | record (d) : Flat (liftM (record d))
  | note (e) : Flat (liftM (note e))
  | recordSkipped (start reason) : Flat (liftM (recordSkipped start reason))
  | bind {α β : Type} {x : Rule α} {f : α → Rule β} : Flat x → (∀ a, Flat (f a)) → Flat (x >>= f)
  | attempt {α : Type} {x : Rule α} : Flat x → Flat (liftM (attempt x))
  | loop {α : Type} {a : α} {step : α → Rule (ForInStep α)} : (∀ a, Flat (step a)) → Flat (tryLoop a step)

section

variable {α β : Type}

namespace SameAt

variable {n : Nat}

theorem of_eq {x : Rule α} (h : ∀ s, (x s).2.nesting = s.nesting) : SameAt n x x := fun s _ => ⟨rfl, h s⟩

theorem right {x y : Rule α} (h : SameAt n x y) : SameAt n y y := fun s hs => ⟨rfl, (h s hs).2⟩

/-- The second rule stands on the level it started on. -/
theorem nesting_eq {x y : Rule α} (h : SameAt n x y) {s t : Parser} (hs : s.freeLevels = n)
    {result : Except Fault α} (hy : y s = (result, t)) : t.nesting = s.nesting := by
  rw [← (h s hs).2, hy]

theorem bind {x y : Rule α} {f g : α → Rule β} (hx : SameAt n x y) (hf : ∀ a, SameAt n (f a) (g a)) :
    SameAt n (x >>= f) (y >>= g) := by
  intro s hs
  have hxs := (hx s hs).1
  rcases hy : y s with ⟨fault | a, t⟩
  · rw [bind_of_error (hxs.trans hy), bind_of_error hy]
    exact ⟨rfl, hx.nesting_eq hs hy⟩
  · have ht := hx.nesting_eq hs hy
    obtain ⟨hsame, hback⟩ := hf a t (by rw [← hs, Parser.freeLevels, Parser.freeLevels, ht])
    rw [bind_of_ok (hxs.trans hy), bind_of_ok hy]
    exact ⟨hsame, hback.trans ht⟩

theorem tryRounds {f g : α → Rule (ForInStep α)} (h : ∀ a, SameAt n (f a) (g a)) (m : Nat) (a : α) :
    SameAt n (tryRounds f m a) (tryRounds g m a) := by
  induction m generalizing a with
  | zero => exact of_eq fun s => rfl
  | succ m ih =>
    intro s hs
    have hfs := (h a s hs).1
    rcases hg : g a s with ⟨fault | b | b, t⟩
    · rw [tryRounds_error (hfs.trans hg), tryRounds_error hg]
      exact ⟨rfl, (h a).nesting_eq hs hg⟩
    · rw [tryRounds_done (hfs.trans hg), tryRounds_done hg]
      exact ⟨rfl, (h a).nesting_eq hs hg⟩
    · have ht := (h a).nesting_eq hs hg
      obtain ⟨hsame, hback⟩ := ih b t (by rw [← hs, Parser.freeLevels, Parser.freeLevels, ht])
      rw [tryRounds_yield (hfs.trans hg), tryRounds_yield hg]
      exact ⟨hsame, hback.trans ht⟩

theorem loop {f g : α → Rule (ForInStep α)} (h : ∀ a, SameAt n (f a) (g a)) (a : α) :
    SameAt n (tryLoop a f) (tryLoop a g) := fun s hs => tryRounds h _ a s hs

theorem attempt {x y : Rule α} (h : SameAt n x y) :
    SameAt n (liftM (Rule.attempt x)) (liftM (Rule.attempt y)) := by
  intro s hs
  obtain ⟨hsame, hback⟩ := h s hs
  refine ⟨?_, hback⟩
  show (Except.ok (x s).1, (x s).2) = (Except.ok (y s).1, (y s).2)
  rw [hsame]

end SameAt

theorem Flat.same {x : Rule α} (h : Flat x) (n : Nat) : SameAt n x x := by
  induction h with
  | pure | throw | look | advance | note => exact .of_eq fun s => rfl
  | record d => exact .of_eq fun s => (forward_record d s).nesting
  | recordSkipped start reason => exact .of_eq fun s => (forward_recordSkipped start reason s).nesting
  | bind _ _ hx hf => exact hx.bind hf
  | attempt _ hx => exact hx.attempt
  | loop _ hstep => exact .loop hstep _

theorem Flat.nesting_eq {x : Rule α} (h : Flat x) {result : Except Fault α} {s t : Parser} (hx : x s = (result, t)) :
    t.nesting = s.nesting := (h.same s.freeLevels).nesting_eq rfl hx

/-- The states that a flat rule comes by on its way. -/
inductive Along : {α : Type} → Rule α → Parser → Parser → Prop
  | start {α : Type} (x : Rule α) (s) : Along x s s
  | stop {α : Type} {x : Rule α} (s) : Flat x → Along x s (x s).2
  | first {α β : Type} {x : Rule α} {f : α → Rule β} {s t} : Along x s t → Along (x >>= f) s t
  | second {α β : Type} {x : Rule α} {f : α → Rule β} {a s t u} : Flat x → x s = (.ok a, t) → Along (f a) t u →
    Along (x >>= f) s u
  | attempt {α : Type} {x : Rule α} {s t} : Along x s t → Along (liftM (attempt x)) s t
  | round {α : Type} {step : α → Rule (ForInStep α)} {a s t} : Along (step a) s t → Along (tryLoop a step) s t
  | again {α : Type} {step : α → Rule (ForInStep α)} {a b s t u} : Flat (step a) → step a s = (.ok (.yield b), t) →
    Along (tryLoop b step) t u → Along (tryLoop a step) s u

theorem Along.nesting_eq {x : Rule α} {s t : Parser} (h : Along x s t) : t.nesting = s.nesting := by
  induction h with
  | start => rfl
  | stop s hx => exact hx.nesting_eq rfl
  | first _ ih | attempt _ ih | round _ ih => exact ih
  | second hx heq _ ih => rw [ih, hx.nesting_eq heq]
  | again hx heq _ ih => rw [ih, hx.nesting_eq heq]

attribute [instance] Flat.pure Flat.throw Flat.look Flat.advance Flat.record Flat.note Flat.recordSkipped

instance {x : Rule α} {f : α → Rule β} [hx : Flat x] [hf : ∀ a, Flat (f a)] : Flat (x >>= f) := .bind hx hf

instance {x : Rule α} {f : α → β} [Flat x] : Flat (f <$> x) := inferInstanceAs (Flat (x >>= fun a => pure (f a)))

instance {x : Rule α} [hx : Flat x] : Flat (liftM (attempt x)) := .attempt hx

instance {a : α} {step : α → Rule (ForInStep α)} [hstep : ∀ a, Flat (step a)] : Flat (tryLoop a step) := .loop hstep

instance {c : Prop} [Decidable c] {x y : Rule α} [Flat x] [Flat y] : Flat (if c then x else y) := by
  split <;> infer_instance

instance (a : α) : Flat (liftM (pure a : Parse α)) := .pure a

instance {x : Parse α} {f : α → Parse β} [hx : Flat (liftM x)] [hf : ∀ a, Flat (liftM (f a))] :
    Flat (liftM (x >>= f)) := .bind hx hf

instance {x : Parse α} {f : α → β} [Flat (liftM x)] : Flat (liftM (f <$> x)) :=
  inferInstanceAs (Flat (liftM (x >>= fun a => pure (f a))))

instance {a : α} {step : α → Parse (ForInStep α)} [hstep : ∀ a, Flat (liftM (step a))] :
    Flat (liftM (loop a step)) := by
  rw [liftM_loop]
  exact .loop hstep

instance {c : Prop} [Decidable c] {x y : Parse α} [Flat (liftM x)] [Flat (liftM y)] :
    Flat (liftM (if c then x else y)) := by
  rw [liftM_ite]
  infer_instance

end

instance (c : Parser → Bool) : Flat (liftM (test c)) := .look c

instance : Flat (liftM peek) := .look _

instance : Flat (liftM peekKind) := .look _

instance (κ : Kind) : Flat (liftM (check κ)) := .look _

instance : Flat (liftM atEnd) := .look _

instance : Flat (liftM here) := .look _

instance (start : Nat) : Flat (liftM (passedSince start)) := .look _

instance : Flat (liftM depth) := .look _

instance (base : Nat) : Flat (liftM (openBeyond base)) := .look _

instance (start : Nat) : Flat (liftM (spanFrom start)) := .look _

instance (fault : Fault) : Flat (liftM (report fault)) := .record _

instance (κ : Kind) : Flat (liftM (accept κ)) := by
  unfold accept advanceIf
  infer_instance

instance (n : Nat) : Flat (liftM (advanceBy n)) := by
  induction n with
  | zero => exact .pure []
  | succ n ih =>
    unfold advanceBy
    infer_instance

instance (κ : Kind) : Flat (expect κ) := by
  unfold expect
  infer_instance

-- Keywords apart: nearly every rule begins with one, and these instances name it alone.

instance (k : Keyword) : Flat (liftM (accept (.keyword k))) := inferInstance

instance (k : Keyword) : Flat (expect (.keyword k)) := inferInstance

instance (c : Parser → Bool) : Flat (liftM (skipWhile c)) := by
  have hround : skipRound c = fun _ => do
      if ← test fun s => !s.atEnd && c s then
        let _ ← advance
        return .yield ()
      else return .done () := by
    funext _ s
    show (if _ then _ else _) = _
    rw [bind_apply]
    unfold test look
    dsimp only
    split <;> rfl
  unfold skipWhile
  rw [hround]
  infer_instance

instance : Flat (liftM semicolon) := by
  unfold semicolon
  infer_instance

instance (largest : Nat) (t : Token) : Flat (liftM (boundedValue largest t)) := by
  unfold boundedValue
  infer_instance

instance : Flat integer := by
  unfold integer integerValue
  infer_instance

instance : Flat size := by
  unfold size
  infer_instance

instance : Flat autoNumber := by
  unfold autoNumber
  infer_instance

instance (role : String) : Flat (declaredName role) := by
  refine .bind inferInstance fun token => ?_
  split
  · infer_instance
  · split <;> infer_instance

instance (stops : Kind → Bool) : Flat (liftM (raw stops)) := by
  unfold raw rawRound
  infer_instance

instance (base : Nat) (recovery : List Kind) : Flat (liftM (skipItem base recovery)) := by
  unfold skipItem skipItemRound
  infer_instance

instance (start : Nat) : Flat (liftM (forceProgress start)) := by
  unfold forceProgress
  infer_instance

instance (base start : Nat) (recovery : List Kind) : Flat (liftM (recoverItem base start recovery)) := by
  unfold recoverItem
  infer_instance

instance : Flat (liftM skipStatement) := by
  unfold skipStatement skipStatementRound
  infer_instance

instance (depth : Nat) (reason : String) : Flat (liftM (skipToSection depth reason)) := by
  unfold skipToSection
  infer_instance

instance (depth : Nat) : Flat (liftM (skipDeclaration depth)) := by
  unfold skipDeclaration
  infer_instance

instance (expected : String) : Flat (memberName expected) := by
  refine .bind inferInstance fun token => ?_
  cases token.kind <;> infer_instance

instance (token : Token) : Flat (liftM (literalOf? token)) := by
  unfold literalOf? integerValue
  split <;> infer_instance

instance (token : Token) : Flat (wordOrLiteral token) := by
  unfold wordOrLiteral
  split
  · refine .bind inferInstance fun _ => .bind inferInstance fun value => ?_
    split <;> infer_instance
  · split <;> infer_instance

instance (fault : Fault) (start : Nat) (reason : String) : Flat (liftM (recoverStatement fault start reason)) := by
  unfold recoverStatement
  infer_instance

instance (ends : Kind → Bool) : Flat (liftM (separator ends)) := by
  unfold separator
  infer_instance

instance : Flat direction := by
  unfold direction
  infer_instance

instance : Flat simpleType := by
  unfold simpleType
  infer_instance

instance (target : Keyword) : Flat (referenceType target) := by
  unfold referenceType objectNumber
  infer_instance

instance : Flat (liftM skipTexts) := by
  unfold skipTexts skipTextRound
  infer_instance

instance : Flat textConstType := by
  unfold textConstType
  infer_instance

instance {α : Type} (typeName : String) (read : String → Except DescriptorError α) :
    Flat (liftM (descriptor typeName read)) := by
  unfold descriptor
  rw [liftM_bind]
  refine .bind inferInstance fun token => ?_
  split
  · rw [liftM_bind]
    refine .bind inferInstance fun _ => ?_
    split <;> infer_instance
  · rw [liftM_bind]
    refine .bind inferInstance fun _ => ?_
    split <;> infer_instance
  · infer_instance

instance : Flat dotNetType := by
  unfold dotNetType
  infer_instance

instance : Flat automationType := by
  unfold automationType
  infer_instance

instance : Flat dimensions := by
  unfold dimensions dimensionRound
  infer_instance

instance : Flat filteringMode := by
  unfold filteringMode
  infer_instance

instance (v : Variable) : Flat (modifierRound v) := by
  refine .bind inferInstance fun kind => ?_
  split <;> infer_instance

instance (u : Unit) : Flat (liftM (skipMisnamedRound u)) := by
  unfold skipMisnamedRound
  infer_instance

instance : Flat (liftM skipMisnamed) := by
  unfold skipMisnamed
  infer_instance

instance (u : Unit) : Flat (parameterModifierRound u) := by
  refine .bind inferInstance fun kind => ?_
  split <;> infer_instance

instance : Flat (liftM skipModifier) := by
  unfold skipModifier
  rw [liftM_bind]
  refine .bind inferInstance fun follows => ?_
  split
  · rw [liftM_bind]
    refine .bind inferInstance fun modifier => ?_
    split <;> infer_instance
  · infer_instance

instance : Flat returnName := by
  unfold returnName
  infer_instance

instance : Flat procedureWord := by
  unfold procedureWord
  infer_instance

instance : Flat triggerName := by
  unfold triggerName
  infer_instance

instance : Flat emptyParentheses := by
  unfold emptyParentheses
  infer_instance

instance (role : String) : Flat (numberedName role) := by
  refine .bind inferInstance fun token => ?_
  split
  · refine .bind inferInstance fun _ => .bind inferInstance fun number => ?_
    split <;> infer_instance
  · infer_instance

instance (depth : Nat) : Flat (liftM (skipAttributeRound depth)) := by
  unfold skipAttributeRound
  rw [liftM_bind]
  refine .bind inferInstance fun ended => ?_
  split
  · infer_instance
  · rw [liftM_bind]
    refine .bind inferInstance fun token => ?_
    split <;> infer_instance

instance : Flat (liftM skipAttributes) := by
  unfold skipAttributes
  infer_instance

instance (fault : Fault) (start depth : Nat) : Flat (liftM (recoverDeclaration fault start depth)) := by
  unfold recoverDeclaration forceProgress
  infer_instance

instance : Flat propertyName := by
  refine .bind inferInstance fun length? => ?_
  split <;> infer_instance

instance : Flat (liftM skipStray) := by
  unfold skipStray
  infer_instance

instance : Flat (liftM column) := by
  unfold column
  infer_instance

instance : Flat (liftM fieldName) := by
  unfold fieldName nameColumn
  infer_instance

instance : Flat (liftM nameList) := by
  unfold nameList
  infer_instance

instance : Flat fieldGroupColumns := by
  unfold fieldGroupColumns
  infer_instance

instance : Flat fieldGroup := by
  unfold fieldGroup braced
  infer_instance

instance (depth headingLength : Nat) : Flat (liftM (passSection depth headingLength)) := by
  unfold passSection
  infer_instance

instance : Flat (liftM reportedName) := by
  unfold reportedName objectName objectNameRound
  infer_instance

instance : Flat objectKind := by
  refine .bind inferInstance fun token => ?_
  split <;> infer_instance

instance : Flat (liftM closingBrace) := by
  unfold closingBrace
  infer_instance

instance : Flat (liftM skipTrailing) := by
  unfold skipTrailing
  infer_instance

end CalExport.Rule
