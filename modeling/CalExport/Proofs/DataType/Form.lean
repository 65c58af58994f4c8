import CalExport.Proofs.Meaning

namespace CalExport.Rule

variable {e : Token} {n : Nat} {s : Parser} {first : Token} {w rest more : List Token} {faults : List Fault}
  {type : DataType}

def boundedNumber (largest : Nat) (t : Token) : Nat :=
  if digitsValue t.text ≤ largest then digitsValue t.text else 0

def excess (largest : Nat) (t : Token) : List Fault :=
  if digitsValue t.text ≤ largest then [] else [.invalidInteger t.description t.span]

def maxSize : Nat := 0xffffffff

def maxInteger : Nat := 0x7fffffffffffffff

theorem boundedNumber_le (largest : Nat) (t : Token) : boundedNumber largest t ≤ largest := by
  unfold boundedNumber
  split
  · assumption
  · exact Nat.zero_le _

theorem boundedValue_means (largest : Nat) (t : Token) :
    Means e n (liftM (boundedValue largest t)) fun w _ faults value =>
      w = [] ∧ faults = excess largest t ∧ value = boundedNumber largest t := by
  unfold excess boundedNumber
  by_cases hle : digitsValue t.text ≤ largest
  · have hbounded : boundedValue largest t = pure (digitsValue t.text) := if_pos hle
    rw [hbounded, if_pos hle, if_pos hle]
    exact Means.pure _
  · have hbounded : boundedValue largest t = report (.invalidInteger t.description t.span) >>= fun _ => pure 0 :=
      if_neg hle
    have hlift : (liftM (boundedValue largest t) : Rule Nat) =
        liftM (report (.invalidInteger t.description t.span)) >>= fun _ => pure 0 := by
      rw [hbounded]
      rfl
    rw [hlift, if_neg hle, if_neg hle]
    refine Means.congr (Means.report_bind _ (Means.pure 0)) ?_
    grind

theorem size_means : Means e n size fun w _ faults value =>
    ∃ t, t.kind = .integer ∧ w = [t] ∧ faults = excess maxSize t ∧ value = boundedNumber maxSize t := by
  refine Means.congr (Means.expect_bind nofun fun t => boundedValue_means maxSize t) ?_
  grind

theorem integer_means : Means e n integer fun w _ faults value =>
    ∃ t, t.kind = .integer ∧ faults = excess maxInteger t ∧
      ((w = [t] ∧ value = boundedNumber maxInteger t) ∨
        ∃ sign, sign.kind = .minus ∧ w = [sign, t] ∧ value = -(boundedNumber maxInteger t : Int)) := by
  have hvalue : ∀ t, Means e n (liftM (integerValue t)) fun w _ faults value =>
      w = [] ∧ faults = excess maxInteger t ∧ value = boundedNumber maxInteger t := by
    intro t
    refine Means.congr ((boundedValue_means maxInteger t).map Int.ofNat) ?_
    intro w more faults value
    constructor
    · rintro ⟨_, ⟨hw, hfaults, rfl⟩, hv⟩
      exact ⟨hw, hfaults, hv⟩
    · rintro ⟨hw, hfaults, hv⟩
      exact ⟨_, ⟨hw, hfaults, rfl⟩, hv⟩
  have hsigned : ∀ negative, Means e n (do
      let value ← integerValue (← expect .integer)
      return if negative = true then -value else value : Rule Int) fun w _ faults value =>
        ∃ t, t.kind = .integer ∧ w = [t] ∧ faults = excess maxInteger t ∧
          value = if negative = true then -(boundedNumber maxInteger t : Int) else boundedNumber maxInteger t := by
    intro negative
    refine Means.congr (Means.expect_bind (by rintro ⟨⟩) fun t => Means.bind_pure (hvalue t) _) ?_
    grind
  refine Means.congr (Means.accept_bind (by rintro ⟨⟩) (hsigned true) (hsigned false)) ?_
  intro w more faults value
  constructor
  · rintro (⟨sign, _, hsign, rfl, t, hkind, rfl, hfaults, hv⟩ | ⟨-, t, hkind, rfl, hfaults, hv⟩)
    · exact ⟨t, hkind, hfaults, .inr ⟨sign, hsign, rfl, hv⟩⟩
    · exact ⟨t, hkind, hfaults, .inl ⟨rfl, hv⟩⟩
  · rintro ⟨t, hkind, hfaults, ⟨rfl, hv⟩ | ⟨sign, hsign, rfl, hv⟩⟩
    · refine .inr ⟨?_, t, hkind, rfl, hfaults, hv⟩
      rw [List.cons_append, nextKind, hkind]
      rintro ⟨⟩
    · exact .inl ⟨sign, [t], hsign, rfl, t, hkind, rfl, hfaults, hv⟩

inductive TextRun : List Token → List Token → Prop
  | nil {more : List Token} (hmore : nextKind more ≠ .string) : TextRun [] more
  | single {text : Token} {w more : List Token} (htext : text.kind = .string) (hnext : nextKind (w ++ more) ≠ .comma)
      (hw : TextRun w more) : TextRun (text :: w) more
  | separated {text comma : Token} {w more : List Token} (htext : text.kind = .string) (hcomma : comma.kind = .comma)
      (hw : TextRun w more) : TextRun (text :: comma :: w) more

inductive DescriptorForm {α : Type} (e : Token) (typeName : String) (read : String → Except DescriptorError α) :
    Meaning (Option α)
  | read {t : Token} {more : List Token} {info : α} (ht : t.kind = .quotedIdentifier ∨ t.kind = .string)
      (hread : read t.value = .ok info) : DescriptorForm e typeName read [t] more [] (some info)
  | malformed {t : Token} {more : List Token} {cause : DescriptorError}
      (ht : t.kind = .quotedIdentifier ∨ t.kind = .string) (hread : read t.value = .error cause) :
      DescriptorForm e typeName read [t] more [.invalidDescriptor cause t.span] none
  | missing {more : List Token} (hmore : nextKind more ≠ .quotedIdentifier ∧ nextKind more ≠ .string) :
      DescriptorForm e typeName read [] more
        [.invalidDescriptor (.missingDescriptor typeName) ((more.head?.getD e).span)] none

inductive DimensionTail : List Token → List Fault → List Nat → Prop
  | nil : DimensionTail [] [] []
  | cons {comma number : Token} {w : List Token} {faults : List Fault} {sizes : List Nat} (hcomma : comma.kind = .comma)
      (hnumber : number.kind = .integer) (hw : DimensionTail w faults sizes) :
      DimensionTail (comma :: number :: w) (excess maxSize number ++ faults) (boundedNumber maxSize number :: sizes)

def surplus (count : Nat) (span : Text.Span) : List Fault :=
  if maxArrayDimensions < count then [.tooManyDimensions count span] else []

inductive DimensionForm : List Token → List Fault → List Nat → Prop
  | mk {opening number closing : Token} {w : List Token} {faults : List Fault} {sizes : List Nat}
      (hopening : opening.kind = .leftBracket) (hnumber : number.kind = .integer) (hw : DimensionTail w faults sizes)
      (hclosing : closing.kind = .rightBracket) :
      DimensionForm (opening :: number :: (w ++ [closing]))
        (excess maxSize number ++ faults ++ surplus (sizes.length + 1) (opening.span.merge closing.span))
        (boundedNumber maxSize number :: sizes)

def refersTo (k : Keyword) : Bool := k.isObjectReference || k == .form

def namesType : Kind → Bool
  | .identifier | .keyword .code => true
  | _ => false

inductive TypeForm (e : Token) : Nat → Meaning DataType
  | word {n : Nat} {t : Token} {more : List Token} (ht : namesType t.kind = true)
      (hmore : nextKind more ≠ .leftBracket) :
      TypeForm e n [t] more [] (.simple t.text (splitSize t.text).2 (runSpan [t]))
  | sized {n : Nat} {t opening number closing : Token} {more : List Token} (ht : namesType t.kind = true)
      (hopening : opening.kind = .leftBracket) (hnumber : number.kind = .integer)
      (hclosing : closing.kind = .rightBracket) :
      TypeForm e n [t, opening, number, closing] more (excess maxSize number)
        (.simple s!"{(splitSize t.text).1}[{boundedNumber maxSize number}]" (some (boundedNumber maxSize number))
          (runSpan [t, opening, number, closing]))
  | reference {n : Nat} {t : Token} {k : Keyword} {more : List Token} (ht : t.kind = .keyword k)
      (hk : refersTo k = true) (hmore : nextKind more ≠ .integer) :
      TypeForm e n [t] more [] (.reference k none (runSpan [t]))
  | numbered {n : Nat} {t number : Token} {k : Keyword} {more : List Token} (ht : t.kind = .keyword k)
      (hk : refersTo k = true) (hnumber : number.kind = .integer) :
      TypeForm e n [t, number] more (excess maxInteger number)
        (.reference k (some (boundedNumber maxInteger number)) (runSpan [t, number]))
  | textConst {n : Nat} {t : Token} {w more : List Token} (ht : t.kind = .keyword .textConst) (hw : TextRun w more) :
      TypeForm e n (t :: w) more [] (.textConst (runSpan (t :: w)))
  | dotNet {n : Nat} {t : Token} {w more : List Token} {faults : List Fault} {info : Option DotNetInfo}
      (ht : t.kind = .keyword .dotNet) (hw : DescriptorForm e "DotNet" DotNetInfo.ofString w more faults info) :
      TypeForm e n (t :: w) more faults (.dotNet info (runSpan (t :: w)))
  | automation {n : Nat} {t : Token} {w more : List Token} {faults : List Fault} {info : Option AutomationInfo}
      (ht : t.kind = .keyword .automation)
      (hw : DescriptorForm e "Automation" AutomationInfo.ofString w more faults info) :
      TypeForm e n (t :: w) more faults (.automation info (runSpan (t :: w)))
  | options {n : Nat} {t : Token} {more : List Token} (ht : t.kind = .string) :
      TypeForm e n [t] more [] (.options t.text t.value (runSpan [t]))
  | array {n : Nat} {t of : Token} {temporary : Option Token} {d w more : List Token} {told later : List Fault}
      {sizes : List Nat} {element : DataType} (ht : t.kind = .keyword .array) (hd : DimensionForm d told sizes)
      (hof : of.kind = .keyword .of) (htemporary : ∀ k ∈ temporary, k.kind = .keyword .temporary)
      (hw : TypeForm e n w more later element) :
      TypeForm e (n + 1) (t :: (d ++ of :: (temporary.toList ++ w))) more (told ++ later)
        (.array sizes temporary.isSome element (runSpan (t :: (d ++ of :: (temporary.toList ++ w)))))

def TextRound : Meaning (ForInStep Unit) := fun w more faults next =>
  faults = [] ∧ ((next = .yield () ∧ ∃ text, text.kind = .string ∧
    ((nextKind more ≠ .comma ∧ w = [text]) ∨ ∃ comma, comma.kind = .comma ∧ w = [text, comma])) ∨
    next = .done () ∧ nextKind more ≠ .string ∧ w = [])

theorem skipTextRound_means : Means e n (liftM (skipTextRound ())) TextRound := by
  have hround : (liftM (skipTextRound ()) : Rule (ForInStep Unit)) = liftM (accept .string) >>= fun found =>
      liftM (if found = true then accept .comma >>= fun _ => pure (.yield ()) else pure (.done ()) :
        Parse (ForInStep Unit)) := rfl
  have hcomma : Means e n (liftM (accept .comma) >>= fun _ => pure (.yield ()) : Rule (ForInStep Unit)) _ :=
    Means.accept_bind nofun (Means.pure _) (Means.pure _)
  rw [hround]
  refine Means.congr (Means.accept_bind nofun hcomma (Means.pure _)) ?_
  intro w more faults next
  constructor
  · rintro (⟨text, _, htext, rfl, ⟨comma, _, hcomma, rfl, rfl, rfl, rfl⟩ | ⟨hnext, rfl, rfl, rfl⟩⟩ |
      ⟨hnext, rfl, rfl, rfl⟩)
    · exact ⟨rfl, .inl ⟨rfl, text, htext, .inr ⟨comma, hcomma, rfl⟩⟩⟩
    · exact ⟨rfl, .inl ⟨rfl, text, htext, .inl ⟨hnext, rfl⟩⟩⟩
    · exact ⟨rfl, .inr ⟨rfl, hnext, rfl⟩⟩
  · rintro ⟨rfl, ⟨rfl, text, htext, ⟨hnext, rfl⟩ | ⟨comma, hcomma, rfl⟩⟩ | ⟨rfl, hnext, rfl⟩⟩
    · exact .inl ⟨text, [], htext, rfl, .inr ⟨hnext, rfl, rfl, rfl⟩⟩
    · exact .inl ⟨text, [comma], htext, rfl, .inl ⟨comma, [], hcomma, rfl, rfl, rfl, rfl⟩⟩
    · exact .inr ⟨hnext, rfl, rfl, rfl⟩

theorem textRun_of_rounds {a b : Unit} (h : Means.Rounds (fun _ => TextRound) a w more faults b) :
    faults = [] ∧ TextRun w more := by
  induction h with
  | done h =>
      obtain ⟨rfl, ⟨hyield, -⟩ | ⟨-, hnext, rfl⟩⟩ := h
      · cases hyield
      · exact ⟨rfl, .nil hnext⟩
  | yield h hrest ih =>
      obtain ⟨rfl, hrun⟩ := ih
      obtain ⟨rfl, ⟨-, text, htext, ⟨hnext, rfl⟩ | ⟨comma, hcomma, rfl⟩⟩ | ⟨hdone, -⟩⟩ := h
      · exact ⟨rfl, .single htext hnext hrun⟩
      · exact ⟨rfl, .separated htext hcomma hrun⟩
      · cases hdone

theorem rounds_of_textRun (h : TextRun w more) : Means.Rounds (fun _ => TextRound) () w more [] () := by
  induction h with
  | nil hnext => exact .done ⟨rfl, .inr ⟨rfl, hnext, rfl⟩⟩
  | @single text w more htext hnext hw ih =>
      show Means.Rounds _ () ([text] ++ w) more ([] ++ []) ()
      exact .yield ⟨rfl, .inl ⟨rfl, text, htext, .inl ⟨hnext, rfl⟩⟩⟩ ih
  | @separated text comma w more htext hcomma hw ih =>
      show Means.Rounds _ () ([text, comma] ++ w) more ([] ++ []) ()
      exact .yield ⟨rfl, .inl ⟨rfl, text, htext, .inr ⟨comma, hcomma, rfl⟩⟩⟩ ih

theorem skipTexts_means : Means e n (liftM skipTexts) fun w more faults _ => faults = [] ∧ TextRun w more := by
  refine Means.congr (Means.loop (grammarLoop_progresses .skipTexts) (fun _ => skipTextRound_means) ()) ?_
  intro w more faults _
  constructor
  · exact textRun_of_rounds
  · rintro ⟨rfl, h⟩
    exact rounds_of_textRun h

theorem peek_eq_head (s : Parser) : s.peek = (ahead s).head?.getD s.eof := by
  rw [ahead, List.head?_drop, Array.getElem?_toList]
  rfl

def descriptorAt {α : Type} (typeName : String) (read : String → Except DescriptorError α) (t : Token) :
    Parse (Option α) :=
  match t.kind with
  | .quotedIdentifier | .string => advance >>= fun _ =>
    match read t.value with
    | .ok info => pure (some info)
    | .error cause => report (.invalidDescriptor cause t.span) >>= fun _ => pure none
  | _ => report (.invalidDescriptor (.missingDescriptor typeName) t.span) >>= fun _ => pure none

theorem descriptorAt_ok {α : Type} {typeName : String} {read : String → Except DescriptorError α} {t : Token} {info : α}
    (hkind : t.kind = .quotedIdentifier ∨ t.kind = .string) (hread : read t.value = .ok info) :
    descriptorAt typeName read t = advance >>= fun _ => pure (some info) := by
  rcases hkind with hkind | hkind <;> rw [descriptorAt, hkind, hread]

theorem descriptorAt_error {α : Type} {typeName : String} {read : String → Except DescriptorError α} {t : Token}
    {cause : DescriptorError} (hkind : t.kind = .quotedIdentifier ∨ t.kind = .string)
    (hread : read t.value = .error cause) : descriptorAt typeName read t =
      advance >>= fun _ => report (.invalidDescriptor cause t.span) >>= fun _ => pure none := by
  rcases hkind with hkind | hkind <;> rw [descriptorAt, hkind, hread]

theorem descriptorAt_missing {α : Type} {typeName : String} {read : String → Except DescriptorError α} {t : Token}
    (hkind : t.kind ≠ .quotedIdentifier ∧ t.kind ≠ .string) : descriptorAt typeName read t =
      report (.invalidDescriptor (.missingDescriptor typeName) t.span) >>= fun _ => pure none := by
  unfold descriptorAt
  split
  · exact absurd ‹_› hkind.1
  · exact absurd ‹_› hkind.2
  · rfl

theorem descriptor_means {α : Type} (typeName : String) (read : String → Except DescriptorError α) :
    Means e n (liftM (descriptor typeName read)) (DescriptorForm e typeName read) := by
  rintro s rfl hn
  have happly : (liftM (descriptor typeName read) : Rule (Option α)) s =
      (liftM (descriptorAt typeName read s.peek) : Rule (Option α)) s := rfl
  by_cases hkind : s.peek.kind = .quotedIdentifier ∨ s.peek.kind = .string
  · have hnext : nextKind (ahead s) ≠ .eof := by
      rw [← kind_peek]
      rcases hkind with h | h <;> rw [h] <;> rintro ⟨⟩
    obtain ⟨t, rest, hahead⟩ := exists_cons_of_nextKind hnext
    rw [peek_of_ahead hahead] at happly hkind
    cases hread : read t.value with
    | ok info =>
        rw [descriptorAt_ok hkind hread] at happly
        refine .of_ok (w := [t]) (a := some info) (happly.trans rfl) hahead (.read hkind hread) ?_
        · intro w' more' faults' a' hahead' hm
          rw [hahead] at hahead'
          cases hm <;> grind [nextKind]
    | error cause =>
        rw [descriptorAt_error hkind hread] at happly
        refine .of_ok (w := [t]) (a := none) (happly.trans rfl) hahead (.malformed hkind hread) ?_
        · intro w' more' faults' a' hahead' hm
          rw [hahead] at hahead'
          cases hm <;> grind [nextKind]
  · rw [not_or] at hkind
    have hnext : nextKind (ahead s) ≠ .quotedIdentifier ∧ nextKind (ahead s) ≠ .string := by rwa [← kind_peek]
    rw [descriptorAt_missing hkind] at happly
    refine .of_ok (w := []) (a := none) ?_ (List.nil_append (ahead s)).symm (.missing hnext) ?_
    · rw [happly, ← peek_eq_head]
      rfl
    · intro w' more' faults' a' hahead' hm
      rw [hahead'] at hnext
      cases hm <;> grind [nextKind]

def DimensionRound (found : Array Nat) : Meaning (ForInStep (Array Nat)) := fun w more faults next =>
  (∃ comma number, comma.kind = .comma ∧ number.kind = .integer ∧ w = [comma, number] ∧
    faults = excess maxSize number ∧ next = .yield (found.push (boundedNumber maxSize number))) ∨
  nextKind more ≠ .comma ∧ w = [] ∧ faults = [] ∧ next = .done found

theorem dimensionRound_means (found : Array Nat) : Means e n (dimensionRound found) (DimensionRound found) := by
  have hnumber : Means e n (size >>= fun number => pure (.yield (found.push number)) : Rule (ForInStep (Array Nat)))
      fun w _ faults next => ∃ t, t.kind = .integer ∧ w = [t] ∧ faults = excess maxSize t ∧
        next = .yield (found.push (boundedNumber maxSize t)) := by
    refine Means.congr (Means.bind_pure size_means fun number => ForInStep.yield (found.push number)) ?_
    grind
  refine Means.congr (Means.accept_bind nofun hnumber (Means.pure (ForInStep.done found))) ?_
  intro w more faults next
  constructor
  · rintro (⟨comma, _, hcomma, rfl, number, hkind, rfl, hfaults, hnext⟩ | ⟨hnone, rfl, hfaults, hnext⟩)
    · exact .inl ⟨comma, number, hcomma, hkind, rfl, hfaults, hnext⟩
    · exact .inr ⟨hnone, rfl, hfaults, hnext⟩
  · rintro (⟨comma, number, hcomma, hkind, rfl, hfaults, hnext⟩ | ⟨hnone, rfl, hfaults, hnext⟩)
    · exact .inl ⟨comma, [number], hcomma, rfl, number, hkind, rfl, hfaults, hnext⟩
    · exact .inr ⟨hnone, rfl, hfaults, hnext⟩

theorem dimensionTail_of_rounds {found result : Array Nat}
    (h : Means.Rounds DimensionRound found w more faults result) :
    ∃ sizes, DimensionTail w faults sizes ∧ nextKind more ≠ .comma ∧ result = found ++ sizes.toArray := by
  induction h with
  | done h =>
      obtain ⟨_, _, _, _, _, _, hyield⟩ | ⟨hnext, rfl, rfl, hdone⟩ := h
      · cases hyield
      · cases hdone
        exact ⟨[], .nil, hnext, (Array.append_empty).symm⟩
  | yield h hrest ih =>
      obtain ⟨comma, number, hcomma, hnumber, rfl, rfl, hyield⟩ | ⟨_, _, _, hdone⟩ := h
      · cases hyield
        obtain ⟨sizes, htail, hnext, rfl⟩ := ih
        exact ⟨_, .cons hcomma hnumber htail, hnext, by simp⟩
      · cases hdone

theorem rounds_of_dimensionTail {sizes : List Nat} (h : DimensionTail w faults sizes) (hmore : nextKind more ≠ .comma)
    (found : Array Nat) : Means.Rounds DimensionRound found w more faults (found ++ sizes.toArray) := by
  induction h generalizing found with
  | nil =>
      rw [Array.append_empty]
      exact .done (.inr ⟨hmore, rfl, rfl, rfl⟩)
  | @cons comma number w faults sizes hcomma hnumber hw ih =>
      have hlist : found ++ (boundedNumber maxSize number :: sizes).toArray =
          found.push (boundedNumber maxSize number) ++ sizes.toArray := by simp
      rw [hlist]
      exact .yield (.inl ⟨comma, number, hcomma, hnumber, rfl, rfl, rfl⟩) (ih _)

theorem surplus_means (found : Array Nat) (span : Text.Span) :
    Means e n (if maxArrayDimensions < found.size then do
        report (.tooManyDimensions found.size span)
        return found
      else return found) fun w _ faults a => w = [] ∧ faults = surplus found.size span ∧ a = found := by
  unfold surplus
  split
  · refine Means.congr (Means.report_bind _ (Means.pure found)) ?_
    grind
  · exact Means.pure found

theorem dimensions_means : Means e n dimensions fun w _ faults found => DimensionForm w faults found.toList := by
  have hclosed : ∀ (opening : Token) (found : Array Nat), Means e n (do
      let closing ← expect .rightBracket
      if maxArrayDimensions < found.size then
        report (.tooManyDimensions found.size (opening.span.merge closing.span))
        return found
      else return found) fun w more faults a => ∃ closing, closing.kind = .rightBracket ∧ w = [closing] ∧
        faults = surplus found.size (opening.span.merge closing.span) ∧ a = found := by
    intro opening found
    refine Means.congr (Means.expect_bind (by rintro ⟨⟩) fun closing =>
      surplus_means found (opening.span.merge closing.span)) ?_
    grind
  refine Means.congr (Means.expect_bind (by rintro ⟨⟩) fun opening => Means.bind size_means fun number =>
    Means.bind (Means.tryLoop (grammarTryLoop_progresses .dimensions) dimensionRound_means #[number])
      (hclosed opening)) ?_
  intro w more faults found
  constructor
  · rintro ⟨opening, _, hopening, rfl, _, _, _, _, _, ⟨number, hnumber, rfl, rfl, rfl⟩, ⟨_, w, _, told, _, hloop,
      ⟨closing, hclosing, rfl, rfl, rfl⟩, rfl, rfl⟩, rfl, rfl⟩
    obtain ⟨sizes, htail, -, rfl⟩ := dimensionTail_of_rounds hloop
    have hform := DimensionForm.mk hopening hnumber htail hclosing
    rw [List.append_assoc] at hform
    simpa [Nat.add_comm] using hform
  · intro h
    generalize hfound : found.toList = sizes at h
    cases h with
    | @mk opening number closing w told sizes hopening hnumber hw hclosing =>
        have hnext : nextKind ([closing] ++ more) ≠ .comma := by
          rw [List.singleton_append, nextKind, hclosing]
          rintro ⟨⟩
        have hloop := rounds_of_dimensionTail hw hnext #[boundedNumber maxSize number]
        obtain rfl : found = #[boundedNumber maxSize number] ++ sizes.toArray := by
          rw [← Array.toList_inj, hfound]
          simp
        refine ⟨opening, _, hopening, rfl, _, [number], _, _, _, ⟨number, hnumber, rfl, rfl, rfl⟩, ⟨_, w, [closing],
          told, _, hloop, ⟨closing, hclosing, rfl, rfl, rfl⟩, rfl, rfl⟩, rfl, ?_⟩
        simp

def simpleParts (t : Token) : Rule (Text.Span → DataType) := do
  if ← accept .leftBracket then
    let length ← size
    let _ ← expect .rightBracket
    return .simple s!"{(splitSize t.text).1}[{length}]" (some length)
  else return .simple t.text (splitSize t.text).2

theorem simpleParts_means (t : Token) : Means e n (simpleParts t) fun w more faults make =>
    (∃ opening number closing, opening.kind = .leftBracket ∧ number.kind = .integer ∧ closing.kind = .rightBracket ∧
      w = [opening, number, closing] ∧ faults = excess maxSize number ∧
      make = .simple s!"{(splitSize t.text).1}[{boundedNumber maxSize number}]" (some (boundedNumber maxSize number))) ∨
    nextKind more ≠ .leftBracket ∧ w = [] ∧ faults = [] ∧ make = .simple t.text (splitSize t.text).2 := by
  refine Means.congr (Means.accept_bind nofun (Means.bind size_means fun length =>
    Means.expect_bind nofun fun _ => Means.pure _) (Means.pure _)) ?_
  intro w more faults make
  constructor
  · rintro (⟨opening, _, hopening, rfl, _, _, _, _, _, ⟨number, hnumber, rfl, rfl, rfl⟩,
      ⟨closing, _, hclosing, rfl, rfl, rfl, rfl⟩, rfl, rfl⟩ | ⟨hmore, rfl, rfl, rfl⟩)
    · exact .inl ⟨opening, number, closing, hopening, hnumber, hclosing, rfl, List.append_nil _, rfl⟩
    · exact .inr ⟨hmore, rfl, rfl, rfl⟩
  · rintro (⟨opening, number, closing, hopening, hnumber, hclosing, rfl, rfl, rfl⟩ | ⟨hmore, rfl, rfl, rfl⟩)
    · exact .inl ⟨opening, _, hopening, rfl, _, [number], [closing], _, [], ⟨number, hnumber, rfl, rfl, rfl⟩,
        ⟨closing, [], hclosing, rfl, rfl, rfl, rfl⟩, rfl, (List.append_nil _).symm⟩
    · exact .inr ⟨hmore, rfl, rfl, rfl⟩

theorem simpleType_eq : simpleType = spanned (liftM advance >>= simpleParts) := by
  simp only [simpleType, spanned, simpleParts, bind_assoc]
  refine bind_congr fun start => bind_congr fun t => bind_congr fun found => ?_
  cases found <;> simp

theorem namesType_iff {κ : Kind} : namesType κ = true ↔ κ = .identifier ∨ κ = .keyword .code := by
  unfold namesType
  split <;> simp_all

theorem not_refersTo_of_namesType {k : Keyword} (h : namesType (.keyword k) = true) : refersTo k = false := by
  rcases namesType_iff.1 h with hkind | hkind
  · cases hkind
  · cases hkind
    rfl

/-- The first token of a type. -/
theorem exists_head (h : TypeForm e n w more faults type) : ∃ t v, w = t :: v := by
  cases h <;> exact ⟨_, _, rfl⟩

theorem simpleType_means (he : s.eof = e) (hn : s.freeLevels = n) (hahead : ahead s = first :: rest)
    (hkind : namesType first.kind = true) : MeansAt s simpleType (TypeForm e n) := by
  rw [simpleType_eq]
  refine MeansAt.congr (MeansAt.spanned (Means.bind_at (MeansAt.advance hahead) he hn simpleParts_means) ?_) ?_
  · rintro _ more faults make ⟨_, _, v, _, _, ⟨rfl, rfl, rfl⟩, -, rfl, rfl⟩
    exact List.cons_ne_nil _ _
  intro w more faults type hw
  constructor
  · rintro ⟨make, ⟨_, _, v, _, _, ⟨rfl, rfl, rfl⟩,
      ⟨opening, number, closing, hopening, hnumber, hclosing, rfl, rfl, rfl⟩ | ⟨hmore, rfl, rfl, rfl⟩, rfl, rfl⟩, rfl⟩
    · exact .sized hkind hopening hnumber hclosing
    · exact .word hkind hmore
  · intro h
    rw [hahead] at hw
    cases h with
    | @word _ t _ ht hmore =>
        obtain ⟨rfl, -⟩ := List.cons_eq_cons.1 hw
        exact ⟨_, ⟨_, [first], [], [], [], ⟨rfl, rfl, rfl⟩, .inr ⟨hmore, rfl, rfl, rfl⟩, rfl, rfl⟩, rfl⟩
    | @sized _ t opening number closing _ ht hopening hnumber hclosing =>
        obtain ⟨rfl, -⟩ := List.cons_eq_cons.1 hw
        exact ⟨_, ⟨_, [first], _, [], _, ⟨rfl, rfl, rfl⟩,
          .inl ⟨opening, number, closing, hopening, hnumber, hclosing, rfl, rfl, rfl⟩, rfl, rfl⟩, rfl⟩
    | reference ht hk =>
        obtain ⟨rfl, -⟩ := List.cons_eq_cons.1 hw
        rw [ht] at hkind
        rw [not_refersTo_of_namesType hkind] at hk
        cases hk
    | numbered ht hk =>
        obtain ⟨rfl, -⟩ := List.cons_eq_cons.1 hw
        rw [ht] at hkind
        rw [not_refersTo_of_namesType hkind] at hk
        cases hk
    | textConst ht | dotNet ht | automation ht | options ht | array ht =>
        obtain ⟨rfl, -⟩ := List.cons_eq_cons.1 hw
        rw [ht] at hkind
        cases hkind

theorem objectNumber_means : Means e n objectNumber fun w more faults id =>
    (∃ number, number.kind = .integer ∧ w = [number] ∧ faults = excess maxInteger number ∧
      id = some (boundedNumber maxInteger number : Int)) ∨
    nextKind more ≠ .integer ∧ w = [] ∧ faults = [] ∧ id = none := by
  have hnumber : ∀ found,
      Means e n (if found = true then some <$> integer else pure none : Rule (Option Int)) fun w _ faults id =>
      (found = true ∧ ∃ t, t.kind = .integer ∧ faults = excess maxInteger t ∧
        ((w = [t] ∧ id = some (boundedNumber maxInteger t : Int)) ∨
          ∃ sign, sign.kind = .minus ∧ w = [sign, t] ∧ id = some (-(boundedNumber maxInteger t : Int)))) ∨
        found = false ∧ w = [] ∧ faults = [] ∧ id = none := by
    intro found
    cases found with
    | true =>
        refine Means.congr (integer_means.map some) ?_
        grind
    | false =>
        refine Means.congr (Means.pure none) ?_
        grind
  refine Means.congr (Means.bind Means.check hnumber) ?_
  intro w more faults id
  constructor
  · rintro ⟨_, _, v, _, later, ⟨rfl, rfl, rfl⟩, h, rfl, rfl⟩
    grind [nextKind]
  · rintro (⟨number, hnumber, rfl, rfl, rfl⟩ | ⟨hmore, rfl, rfl, rfl⟩)
    · refine ⟨_, [], [number], [], _, ⟨rfl, rfl, rfl⟩, .inl ⟨?_, number, hnumber, rfl, .inl ⟨rfl, rfl⟩⟩, rfl, rfl⟩
      exact beq_iff_eq.2 hnumber
    · refine ⟨_, [], [], [], [], ⟨rfl, rfl, rfl⟩, .inr ⟨?_, rfl, rfl, rfl⟩, rfl, rfl⟩
      exact beq_eq_false_iff_ne.2 hmore

theorem referenceType_means (he : s.eof = e) (hn : s.freeLevels = n) (hahead : ahead s = first :: rest) {k : Keyword}
    (hkind : first.kind = .keyword k) (hk : refersTo k = true) : MeansAt s (referenceType k) (TypeForm e n) := by
  have heq : referenceType k =
      spanned (liftM advance >>= fun _ => objectNumber >>= fun id => pure (.reference k id)) := by
    simp only [referenceType, spanned, bind_assoc, pure_bind]
  rw [heq]
  refine MeansAt.congr (MeansAt.spanned (Means.bind_at (MeansAt.advance hahead) he hn fun _ =>
    Means.bind_pure objectNumber_means _) ?_) ?_
  · rintro _ more faults make ⟨_, _, v, _, _, ⟨rfl, rfl, rfl⟩, -, rfl, rfl⟩
    exact List.cons_ne_nil _ _
  intro w more faults type hw
  constructor
  · rintro ⟨make, ⟨_, _, _, _, _, ⟨rfl, rfl, rfl⟩, ⟨_, hnumber, rfl⟩, rfl, rfl⟩, rfl⟩
    rcases hnumber with ⟨number, hnumber, rfl, rfl, rfl⟩ | ⟨hmore, rfl, rfl, rfl⟩
    · exact .numbered hkind hk hnumber
    · exact .reference hkind hk hmore
  · intro h
    rw [hahead] at hw
    cases h with
    | @reference _ t k' _ ht hk' hmore =>
        obtain ⟨rfl, -⟩ := List.cons_eq_cons.1 hw
        obtain rfl : k = k' := Kind.keyword.inj (hkind.symm.trans ht)
        exact ⟨_, ⟨_, [first], [], [], [], ⟨rfl, rfl, rfl⟩, ⟨_, .inr ⟨hmore, rfl, rfl, rfl⟩, rfl⟩, rfl, rfl⟩, rfl⟩
    | @numbered _ t number k' _ ht hk' hnumber =>
        obtain ⟨rfl, -⟩ := List.cons_eq_cons.1 hw
        obtain rfl : k = k' := Kind.keyword.inj (hkind.symm.trans ht)
        exact ⟨_, ⟨_, [first], [number], [], _, ⟨rfl, rfl, rfl⟩, ⟨_, .inl ⟨number, hnumber, rfl, rfl, rfl⟩, rfl⟩, rfl,
          rfl⟩, rfl⟩
    | word ht | sized ht =>
        obtain ⟨rfl, -⟩ := List.cons_eq_cons.1 hw
        rw [hkind] at ht
        rw [not_refersTo_of_namesType ht] at hk
        cases hk
    | textConst ht | dotNet ht | automation ht | options ht | array ht =>
        obtain ⟨rfl, -⟩ := List.cons_eq_cons.1 hw
        rw [hkind] at ht
        cases ht <;> cases hk

def headed {α : Type} (k : Keyword) (rule : Rule α) (make : α → Text.Span → DataType) : Rule DataType := spanned do
  let _ ← expect (.keyword k)
  return make (← rule)

theorem headed_means {α : Type} (k : Keyword) {x : Rule α} {M : Meaning α} (hx : Means e n x M)
    (make : α → Text.Span → DataType) : Means e n (headed k x make) fun w more faults type =>
      ∃ t v a, t.kind = .keyword k ∧ w = t :: v ∧ M v more faults a ∧ type = make a (runSpan w) := by
  intro s he hn
  have hkind : Kind.keyword k ≠ .eof := nofun
  refine MeansAt.congr (MeansAt.spanned (Means.expect_bind hkind (fun _ => Means.bind_pure hx make) s he hn) ?_) ?_
  · rintro _ more faults make ⟨t, v, -, rfl, -⟩
    exact List.cons_ne_nil _ _
  intro w more faults type _
  constructor
  · rintro ⟨_, ⟨t, v, hkind, rfl, a, hm, rfl⟩, rfl⟩
    exact ⟨t, v, a, hkind, rfl, hm, rfl⟩
  · rintro ⟨t, v, a, hkind, rfl, hm, rfl⟩
    exact ⟨_, ⟨t, v, hkind, rfl, a, hm, rfl⟩, rfl⟩

theorem textConstType_eq : textConstType = headed .textConst (liftM skipTexts) fun _ => .textConst := by
  simp only [textConstType, headed, spanned, bind_assoc, pure_bind]

theorem dotNetType_eq : dotNetType =
    headed .dotNet (liftM (descriptor "DotNet" DotNetInfo.ofString)) .dotNet := by
  simp only [dotNetType, headed, spanned, bind_assoc, pure_bind]

theorem automationType_eq : automationType =
    headed .automation (liftM (descriptor "Automation" AutomationInfo.ofString)) .automation := by
  simp only [automationType, headed, spanned, bind_assoc, pure_bind]

def arrayParts (element : Rule DataType) : Rule (List Nat × Bool × DataType) := do
  let found ← dimensions
  let _ ← expect (.keyword .of)
  let temporary ← accept (.keyword .temporary)
  return (found.toList, temporary, ← element)

theorem arrayType_eq (element : Rule DataType) : arrayType element =
    headed .array (arrayParts element) fun (sizes, temporary, element) => .array sizes temporary element := by
  simp only [arrayType, headed, arrayParts, spanned, bind_assoc, pure_bind]

theorem arrayParts_means {element : Rule DataType} {M : Meaning DataType} (h : Means e n element M)
    (hM : ∀ {w more faults type}, M w more faults type → nextKind (w ++ more) ≠ .keyword .temporary) :
    Means e n (arrayParts element) fun w more faults parts => ∃ d told sizes of temporary v later type,
      DimensionForm d told sizes ∧ of.kind = .keyword .of ∧ (∀ k ∈ temporary, k.kind = .keyword .temporary) ∧
        M v more later type ∧ w = d ++ of :: (Option.toList temporary ++ v) ∧ faults = told ++ later ∧
          parts = (sizes, temporary.isSome, type) := by
  refine Means.congr (Means.bind dimensions_means fun found => Means.expect_bind nofun fun _ =>
    Means.accept_bind nofun (Means.bind_pure h fun type => (found.toList, true, type))
      (Means.bind_pure h fun type => (found.toList, false, type))) ?_
  intro w more faults parts
  constructor
  · rintro ⟨found, d, _, told, later, hd, ⟨of, _, hof, rfl, ⟨temporary, v, htemporary, rfl, type, hm, rfl⟩ |
      ⟨-, type, hm, rfl⟩⟩, rfl, rfl⟩
    · refine ⟨d, told, _, of, some temporary, v, later, type, hd, hof, ?_, hm, rfl, rfl, rfl⟩
      rintro _ ⟨⟩
      exact htemporary
    · exact ⟨d, told, _, of, none, _, later, type, hd, hof, nofun, hm, rfl, rfl, rfl⟩
  · rintro ⟨d, told, sizes, of, temporary, v, later, type, hd, hof, htemporary, hm, rfl, rfl, rfl⟩
    refine ⟨sizes.toArray, d, _, told, later, hd, ⟨of, _, hof, rfl, ?_⟩, rfl, rfl⟩
    cases temporary with
    | none => exact .inr ⟨hM hm, type, hm, rfl⟩
    | some k => exact .inl ⟨k, v, htemporary k rfl, rfl, type, hm, rfl⟩

def heads : DataType → Kind → Prop
  | .simple .., κ => namesType κ = true
  | .reference k .., κ => refersTo k = true ∧ κ = .keyword k
  | .array .., κ => κ = .keyword .array
  | .textConst _, κ => κ = .keyword .textConst
  | .dotNet .., κ => κ = .keyword .dotNet
  | .automation .., κ => κ = .keyword .automation
  | .options .., κ => κ = .string

theorem heads_of_form (h : TypeForm e n w more faults type) : heads type (nextKind (w ++ more)) := by
  cases h with
  | reference ht hk | numbered ht hk => exact ⟨hk, ht⟩
  | word ht | sized ht | textConst ht | dotNet ht | automation ht | options ht | array ht => exact ht

theorem heads_of_ahead (h : TypeForm e n w more faults type) (hw : first :: rest = w ++ more) :
    heads type first.kind := by
  have hheads := heads_of_form h
  rwa [← hw, nextKind] at hheads

/-- No type begins like what may stand in front of one. -/
theorem nextKind_ne_temporary (h : TypeForm e n w more faults type) : nextKind (w ++ more) ≠ .keyword .temporary := by
  intro hkind
  have hheads := heads_of_form h
  rw [hkind] at hheads
  cases type with
  | reference k id span =>
      obtain ⟨hk, hk'⟩ := hheads
      cases hk'
      cases hk
  | simple _ _ _ | array _ _ _ _ | textConst _ | dotNet _ _ | automation _ _ | options _ _ _ => cases hheads

def dataTypeAt (element : Rule DataType) (token : Token) : Rule DataType :=
  match token.kind with
  | .keyword .array => arrayType element
  | .keyword .textConst => textConstType
  | .keyword .dotNet => dotNetType
  | .keyword .automation => automationType
  | .string => do
    let _ ← advance
    return .options token.text token.value token.span
  | .identifier | .keyword .code => simpleType
  | .keyword k =>
    if k.isObjectReference || k == Keyword.form then referenceType k else throw (Fault.expected "data type" token)
  | _ => throw (Fault.expected "data type" token)

theorem dataTypeWith_apply (element : Rule DataType) (s : Parser) :
    dataTypeWith element s = dataTypeAt element s.peek s := rfl

theorem runSpan_singleton (t : Token) : runSpan [t] = t.span := by
  simp [runSpan, Text.Span.merge_self]

def ElementForm (e : Token) : Nat → Meaning DataType
  | 0 => fun _ _ _ _ => False
  | n + 1 => TypeForm e n

theorem optionsType_means (he : s.eof = e) (hn : s.freeLevels = n) (hahead : ahead s = first :: rest)
    (hkind : first.kind = .string) : MeansAt s (do
      let _ ← advance
      return .options first.text first.value first.span) (TypeForm e n) := by
  refine MeansAt.congr (Means.bind_at (MeansAt.advance hahead) he hn fun _ => Means.pure _) ?_
  intro w more faults type hw
  rw [hahead] at hw
  constructor
  · rintro ⟨_, _, _, _, _, ⟨rfl, rfl, rfl⟩, ⟨rfl, rfl, rfl⟩, rfl, rfl⟩
    rw [← runSpan_singleton]
    exact .options hkind
  · intro h
    have hheads := heads_of_ahead h hw
    rw [hkind] at hheads
    cases h with
    | options ht =>
        obtain ⟨rfl, -⟩ := List.cons_eq_cons.1 hw
        exact ⟨_, [first], [], [], [], ⟨rfl, rfl, rfl⟩, ⟨rfl, rfl, by rw [runSpan_singleton]⟩, rfl, rfl⟩
    | reference | numbered => cases hheads.2
    | word | sized | textConst | dotNet | automation | array => cases hheads

/-- A rule behind a keyword reads a type when what it means is the form of that type. -/
theorem headedType_means {α : Type} {k : Keyword} {x : Rule α} {M : Meaning α} {make : α → Text.Span → DataType}
    (hx : Means e n x M) (he : s.eof = e) (hn : s.freeLevels = n) (hahead : ahead s = first :: rest)
    (hkind : first.kind = .keyword k)
    (hform : ∀ t v more faults a, t.kind = .keyword k → M v more faults a →
      TypeForm e n (t :: v) more faults (make a (runSpan (t :: v))))
    (hparts : ∀ w more faults type, TypeForm e n w more faults type → heads type (.keyword k) →
      ∃ t v a, t.kind = .keyword k ∧ w = t :: v ∧ M v more faults a ∧ type = make a (runSpan w)) :
    MeansAt s (headed k x make) (TypeForm e n) := by
  refine MeansAt.congr (headed_means k hx make s he hn) ?_
  intro w more faults type hw
  rw [hahead] at hw
  constructor
  · rintro ⟨t, v, a, ht, rfl, hm, rfl⟩
    exact hform t v more faults a ht hm
  · intro h
    have hheads := heads_of_ahead h hw
    rw [hkind] at hheads
    exact hparts w more faults type h hheads

theorem textConstType_means (he : s.eof = e) (hn : s.freeLevels = n) (hahead : ahead s = first :: rest)
    (hkind : first.kind = .keyword .textConst) : MeansAt s textConstType (TypeForm e n) := by
  rw [textConstType_eq]
  refine headedType_means skipTexts_means he hn hahead hkind ?_ ?_
  · rintro t v more _ _ ht ⟨rfl, hv⟩
    exact .textConst ht hv
  · intro w more faults type h hheads
    cases h with
    | textConst ht hv => exact ⟨_, _, (), ht, rfl, ⟨rfl, hv⟩, rfl⟩
    | reference ht hk | numbered ht hk =>
        cases hheads.2
        cases hk
    | word | sized | options | dotNet | automation | array => cases hheads

theorem dotNetType_means (he : s.eof = e) (hn : s.freeLevels = n) (hahead : ahead s = first :: rest)
    (hkind : first.kind = .keyword .dotNet) : MeansAt s dotNetType (TypeForm e n) := by
  rw [dotNetType_eq]
  refine headedType_means (descriptor_means _ _) he hn hahead hkind ?_ ?_
  · intro t v more faults info ht hv
    exact .dotNet ht hv
  · intro w more faults type h hheads
    cases h with
    | dotNet ht hv => exact ⟨_, _, _, ht, rfl, hv, rfl⟩
    | reference ht hk | numbered ht hk =>
        cases hheads.2
        cases hk
    | word | sized | options | textConst | automation | array => cases hheads

theorem automationType_means (he : s.eof = e) (hn : s.freeLevels = n) (hahead : ahead s = first :: rest)
    (hkind : first.kind = .keyword .automation) : MeansAt s automationType (TypeForm e n) := by
  rw [automationType_eq]
  refine headedType_means (descriptor_means _ _) he hn hahead hkind ?_ ?_
  · intro t v more faults info ht hv
    exact .automation ht hv
  · intro w more faults type h hheads
    cases h with
    | automation ht hv => exact ⟨_, _, _, ht, rfl, hv, rfl⟩
    | reference ht hk | numbered ht hk =>
        cases hheads.2
        cases hk
    | word | sized | options | textConst | dotNet | array => cases hheads

theorem arrayType_means {element : Rule DataType} (h : Means e n element (ElementForm e n)) (he : s.eof = e)
    (hn : s.freeLevels = n) (hahead : ahead s = first :: rest) (hkind : first.kind = .keyword .array) :
    MeansAt s (arrayType element) (TypeForm e n) := by
  have helement : ∀ {w more faults type}, ElementForm e n w more faults type →
      nextKind (w ++ more) ≠ .keyword .temporary := by
    intro w more faults type h
    cases n with
    | zero => exact h.elim
    | succ n => exact nextKind_ne_temporary h
  rw [arrayType_eq]
  refine headedType_means (arrayParts_means h helement) he hn hahead hkind ?_ ?_
  · rintro t v more faults _ ht ⟨d, told, sizes, of, temporary, v, later, type, hd, hof, htemporary, hm, rfl, rfl, rfl⟩
    cases n with
    | zero => exact hm.elim
    | succ n => exact .array ht hd hof htemporary hm
  · intro w more faults type h hheads
    cases h with
    | array ht hd hof htemporary hm =>
        exact ⟨_, _, _, ht, rfl, ⟨_, _, _, _, _, _, _, _, hd, hof, htemporary, hm, rfl, rfl, rfl⟩, rfl⟩
    | reference ht hk | numbered ht hk =>
        cases hheads.2
        cases hk
    | word | sized | options | textConst | dotNet | automation => cases hheads

theorem dataTypeWith_means {element : Rule DataType} (h : Means e n element (ElementForm e n)) :
    Means e n (dataTypeWith element) (TypeForm e n) := by
  intro s he hn
  cases hahead : ahead s with
  | nil =>
      have hkind : s.peek.kind = .eof := by rw [kind_peek, hahead, nextKind]
      have hfails : dataTypeWith element s = (.error (.expected "data type" s.peek), s) := by
        rw [dataTypeWith_apply, dataTypeAt, hkind]
        rfl
      refine .of_error hfails ?_
      intro w more faults type hw hform
      obtain ⟨t, v, rfl⟩ := exists_head hform
      rw [hahead] at hw
      cases hw
  | cons first rest =>
      refine MeansAt.of_eq (y := dataTypeAt element first) ?_ (by rw [dataTypeWith_apply, peek_of_ahead hahead])
      unfold dataTypeAt
      split
      · rename_i hkind
        exact arrayType_means h he hn hahead hkind
      · rename_i hkind
        exact textConstType_means he hn hahead hkind
      · rename_i hkind
        exact dotNetType_means he hn hahead hkind
      · rename_i hkind
        exact automationType_means he hn hahead hkind
      · rename_i hkind
        exact optionsType_means he hn hahead hkind
      · rename_i hkind
        exact simpleType_means he hn hahead (by rw [hkind]; rfl)
      · rename_i hkind
        exact simpleType_means he hn hahead (by rw [hkind]; rfl)
      · rename_i k _ _ _ _ _ hkind
        split
        · rename_i hk
          exact referenceType_means he hn hahead hkind hk
        · rename_i hk
          refine .of_error rfl ?_
          intro w more faults type hw hform
          rw [hahead] at hw
          have hheads := heads_of_ahead hform hw
          rw [hkind] at hheads
          cases type <;> grind [heads, namesType_iff, refersTo]
      · refine .of_error rfl ?_
        intro w more faults type hw hform
        rw [hahead] at hw
        have hheads := heads_of_ahead hform hw
        cases type <;> grind [heads, namesType_iff]

theorem elementType_means (n : Nat) : Means e n (elementType n) (ElementForm e n) := by
  induction n with
  | zero => exact Means.tooDeep
  | succ n ih => exact Means.nested (dataTypeWith_means ih)

/-- Reading a type comes to one of its forms and to nothing else. -/
theorem dataType_means : Means e n dataType (TypeForm e n) :=
  Means.of_levels (x := fun n => dataTypeWith (elementType n)) (dataTypeWith_means (elementType_means n))

/-- All that is left reads as a type that it spells. -/
theorem dataType_of_whole (hform : TypeForm s.eof s.freeLevels (ahead s) [] faults type)
    (hclean : s.diagnostics = #[]) (hroom : faults.length ≤ maxDiagnostics) :
    ∃ t, dataType s = (.ok type, t) ∧ t.atEnd = true ∧ t.diagnostics = (faults.map Diagnostic.ofFault).toArray := by
  have hwhole : ahead s = ahead s ++ [] := (List.append_nil _).symm
  refine ⟨_, (dataType_means s rfl rfl type _).2 ⟨_, _, faults, hwhole, rfl, hform⟩, ?_, ?_⟩
  · rw [← ahead_eq_nil_iff, ahead_tell, ahead_skip hwhole]
  · rw [diagnostics_tell (by rwa [diagnostics_skip, hclean, Array.size_empty, Nat.zero_add]), diagnostics_skip, hclean,
      Array.empty_append]

def continuesType : Kind → Bool
  | .leftBracket | .integer | .string | .comma => true
  | _ => false

theorem ne_of_not_continuesType {κ : Kind} (h : continuesType κ = false) :
    κ ≠ .leftBracket ∧ κ ≠ .integer ∧ κ ≠ .string ∧ κ ≠ .comma := by
  refine ⟨?_, ?_, ?_, ?_⟩ <;> rintro rfl <;> cases h

theorem TextRun.elsewhere {more' : List Token} (h : TextRun w more) (hmore : continuesType (nextKind more') = false) :
    TextRun w more' := by
  induction h with
  | nil => exact .nil (ne_of_not_continuesType hmore).2.2.1
  | @single text w more htext hnext hw ih =>
      refine .single htext ?_ ih
      cases w with
      | nil => exact (ne_of_not_continuesType hmore).2.2.2
      | cons x w => exact hnext
  | separated htext hcomma hw ih => exact .separated htext hcomma ih

/-- A type of which nothing is told is the same in front of other tokens that it does not go on with, and with as many
levels or more. -/
theorem TypeForm.elsewhere (h : TypeForm e n w more [] type) (e' : Token) {m : Nat} (hnm : n ≤ m) {more' : List Token}
    (hmore : continuesType (nextKind more') = false) : TypeForm e' m w more' [] type := by
  generalize hfaults : ([] : List Fault) = faults at h
  induction h generalizing m with
  | word ht => exact .word ht (ne_of_not_continuesType hmore).1
  | sized ht hopening hnumber hclosing => exact .sized ht hopening hnumber hclosing
  | reference ht hk => exact .reference ht hk (ne_of_not_continuesType hmore).2.1
  | numbered ht hk hnumber => exact .numbered ht hk hnumber
  | textConst ht hw => exact .textConst ht (hw.elsewhere hmore)
  | dotNet ht hw =>
      cases hw with
      | read ht' hread => exact .dotNet ht (.read ht' hread)
      | malformed | missing => cases hfaults
  | automation ht hw =>
      cases hw with
      | read ht' hread => exact .automation ht (.read ht' hread)
      | malformed | missing => cases hfaults
  | options ht => exact .options ht
  | @array n t of temporary d w more told later sizes element ht hd hof htemporary hw ih =>
      obtain ⟨rfl, rfl⟩ := List.append_eq_nil_iff.1 hfaults.symm
      obtain ⟨m, rfl⟩ : ∃ k, m = k + 1 := ⟨m - 1, by omega⟩
      exact .array ht hd hof htemporary (ih (Nat.le_of_succ_le_succ hnm) rfl)

/-- A type of which nothing is told, in its place. -/
theorem TypeForm.passes (h : TypeForm e n w [] [] type) (hmore : continuesType (nextKind more) = false) :
    RulePasses n dataType w more (· = type) :=
  Means.passes (fun _ => dataType_means) fun e => h.elsewhere e (Nat.le_refl n) hmore

def belongsToType : Kind → Bool
  | .identifier | .quotedIdentifier | .string | .integer | .comma | .leftBracket | .rightBracket => true
  | .keyword .code | .keyword .textConst | .keyword .dotNet | .keyword .automation | .keyword .array | .keyword .of
  | .keyword .temporary => true
  | .keyword k => refersTo k
  | _ => false

theorem belongsToType_of_namesType {κ : Kind} (h : namesType κ = true) : belongsToType κ = true := by
  rcases namesType_iff.1 h with rfl | rfl <;> rfl

theorem belongsToType_of_refersTo {k : Keyword} (h : refersTo k = true) : belongsToType (.keyword k) = true := by
  cases k <;> first | rfl | exact absurd h Bool.false_ne_true

theorem belongs_textRun (h : TextRun w more) : ∀ t ∈ w, belongsToType t.kind = true := by
  induction h with
  | nil => nofun
  | single htext _ _ ih => exact List.forall_mem_cons.2 ⟨by rw [htext]; rfl, ih⟩
  | separated htext hcomma _ ih =>
      exact List.forall_mem_cons.2 ⟨by rw [htext]; rfl, List.forall_mem_cons.2 ⟨by rw [hcomma]; rfl, ih⟩⟩

theorem belongs_descriptor {α : Type} {typeName : String} {read : String → Except DescriptorError α} {info : Option α}
    (h : DescriptorForm e typeName read w more faults info) : ∀ t ∈ w, belongsToType t.kind = true := by
  cases h with
  | read ht | malformed ht =>
      refine List.forall_mem_singleton.2 ?_
      rcases ht with ht | ht <;> rw [ht] <;> rfl
  | missing => nofun

theorem belongs_dimensionTail {sizes : List Nat} (h : DimensionTail w faults sizes) :
    ∀ t ∈ w, belongsToType t.kind = true := by
  induction h with
  | nil => nofun
  | cons hcomma hnumber _ ih =>
      exact List.forall_mem_cons.2 ⟨by rw [hcomma]; rfl, List.forall_mem_cons.2 ⟨by rw [hnumber]; rfl, ih⟩⟩

theorem belongs_dimensions {sizes : List Nat} (h : DimensionForm w faults sizes) :
    ∀ t ∈ w, belongsToType t.kind = true := by
  cases h with
  | mk hopening hnumber hw hclosing =>
      have htail := belongs_dimensionTail hw
      simp only [List.forall_mem_cons, List.forall_mem_append, hopening, hnumber, hclosing]
      exact ⟨rfl, rfl, htail, rfl, nofun⟩

theorem TypeForm.belongs (h : TypeForm e n w more faults type) : ∀ t ∈ w, belongsToType t.kind = true := by
  induction h with
  | word ht => exact List.forall_mem_singleton.2 (belongsToType_of_namesType ht)
  | sized ht hopening hnumber hclosing =>
      have hword := belongsToType_of_namesType ht
      simp only [List.forall_mem_cons, hopening, hnumber, hclosing]
      exact ⟨hword, rfl, rfl, rfl, nofun⟩
  | reference ht hk => exact List.forall_mem_singleton.2 (ht ▸ belongsToType_of_refersTo hk)
  | numbered ht hk hnumber =>
      simp only [List.forall_mem_cons, hnumber]
      exact ⟨ht ▸ belongsToType_of_refersTo hk, rfl, nofun⟩
  | textConst ht hw => exact List.forall_mem_cons.2 ⟨by rw [ht]; rfl, belongs_textRun hw⟩
  | dotNet ht hw => exact List.forall_mem_cons.2 ⟨by rw [ht]; rfl, belongs_descriptor hw⟩
  | automation ht hw => exact List.forall_mem_cons.2 ⟨by rw [ht]; rfl, belongs_descriptor hw⟩
  | options ht => exact List.forall_mem_singleton.2 (by rw [ht]; rfl)
  | @array _ _ _ temporary _ _ _ _ _ _ _ ht hd hof htemporary _ ih =>
      have hdimensions := belongs_dimensions hd
      have hword : ∀ k ∈ temporary.toList, belongsToType k.kind = true := by
        intro k hk
        rw [htemporary k (Option.mem_toList.1 hk)]
        rfl
      simp only [List.forall_mem_cons, List.forall_mem_append, ht, hof]
      exact ⟨rfl, hdimensions, rfl, hword, ih⟩

end CalExport.Rule
