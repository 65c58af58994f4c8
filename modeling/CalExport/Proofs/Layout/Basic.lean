import CalExport.Proofs.Layout.Outline
import CalExport.Proofs.Simulation.Leaf

namespace CalExport

open Text

/-- Tokens stand behind each other, and each but the end of the input has a width. -/
structure Cursor.InOrder (c : Cursor) : Prop where
  start_lt_stop {i} : i < c.tokens.size → (c.tokenAt i).span.start.offset < (c.tokenAt i).span.stop.offset
  stop_le_start {i j} : i < j → i < c.tokens.size → (c.tokenAt i).span.stop.offset ≤ (c.tokenAt j).span.start.offset
  eof_point : c.eof.span.start = c.eof.span.stop

def Bounded (c : Cursor) (span : Span) : Prop := ∃ i j, i ≤ j ∧ span = c.over i j

theorem Bounded.token (c : Cursor) (i : Nat) : Bounded c (c.tokenAt i).span := ⟨i, i, Nat.le_refl i, rfl⟩

theorem Bounded.expected (c : Cursor) (what : String) (i : Nat) :
    Bounded c (Fault.expected what (c.tokenAt i)).span := by
  unfold Fault.expected
  split
  · exact .token c i
  · exact .token c i

section

variable {c : Cursor} {lo mid hi i j i' j' m k : Nat} {o o' : Outline} {span : Span} {lists : List (List Outline)}

theorem Solid.bounded (h : Solid c lo hi o) : Bounded c o.span := by
  obtain ⟨i, j, -, hij, -, -, hspan, -⟩ := h
  exact ⟨i, j, hij, hspan⟩

theorem Cursor.InOrder.start_lt_over (hc : c.InOrder) (hij : i ≤ j) (hj : j < c.tokens.size) :
    (c.tokenAt i).span.start.offset < (c.tokenAt j).span.stop.offset := by
  have hwidth := hc.start_lt_stop hj
  rcases Nat.lt_or_eq_of_le hij with hlt | rfl
  · have hi := hc.start_lt_stop (Nat.lt_trans hlt hj)
    have hgap := hc.stop_le_start hlt (Nat.lt_trans hlt hj)
    omega
  · exact hwidth

theorem Cursor.InOrder.merge_over (hc : c.InOrder) (hij : i ≤ j) (hj : j < i') (hij' : i' ≤ j')
    (hsize : j' < c.tokens.size) : (c.over i j).merge (c.over i' j') = c.over i j' := by
  have hfirst := hc.start_lt_over hij (by omega)
  have hgap := hc.stop_le_start hj (by omega)
  have hlast := hc.start_lt_over hij' hsize
  show Span.mk (if (c.tokenAt i).span.start.offset ≤ (c.tokenAt i').span.start.offset then _ else _)
    (if (c.tokenAt j').span.stop.offset ≤ (c.tokenAt j).span.stop.offset then _ else _) = _
  rw [if_pos (by omega), if_neg (by omega)]
  rfl

/-- A node over all tokens between two places. -/
theorem Solid.node (hlt : m < k) (hsize : k ≤ c.tokens.size) (hspan : m < k → span = c.over m (k - 1))
    (hlists : ∀ list ∈ lists, Row c m k list) : Solid c m k (.node span lists) := by
  refine ⟨m, k - 1, Nat.le_refl m, by omega, by omega, by omega, hspan hlt, ?_⟩
  rw [Nat.sub_add_cancel (by omega)]
  exact hlists

/-- A node of one token. -/
theorem Solid.token (hsize : m < c.tokens.size) : Solid c m (m + 1) (.node (c.tokenAt m).span []) :=
  ⟨m, m, Nat.le_refl m, Nat.le_refl m, Nat.lt_succ_self m, hsize, rfl, fun _ h => nomatch h⟩

/-- Another node in the place of one. -/
theorem Solid.bare (h : Solid c lo hi o) : Solid c lo hi (.node o.span []) := by
  obtain ⟨i, j, hi, hij, hj, hsize, hspan, -⟩ := h
  exact ⟨i, j, hi, hij, hj, hsize, hspan, fun _ h => nomatch h⟩

/-- A node over one other, of the same span. -/
theorem Solid.around (h : Solid c lo hi o) : Solid c lo hi (.node o.span [[o]]) := by
  obtain ⟨i, j, hi, hij, hj, hsize, hspan, hlists⟩ := h
  refine ⟨i, j, hi, hij, hj, hsize, hspan, ?_⟩
  intro list hlist
  obtain rfl := List.mem_singleton.1 hlist
  exact Solid.row ⟨i, j, Nat.le_refl i, hij, Nat.lt_succ_self j, hsize, hspan, hlists⟩

/-- A node over two others, one behind the other. -/
theorem Solid.merge (hc : c.InOrder) (h : Solid c lo mid o) (h' : Solid c mid hi o') :
    Solid c lo hi (.node (o.span.merge o'.span) [[o], [o']]) := by
  obtain ⟨i, j, hi, hij, hj, hsize, hspan, hlists⟩ := h
  obtain ⟨i', j', hi', hij', hj', hsize', hspan', hlists'⟩ := h'
  refine ⟨i, j', hi, by omega, hj', hsize', ?_, ?_⟩
  · rw [hspan, hspan']
    exact hc.merge_over hij (by omega) hij' hsize'
  · intro list hlist
    rcases List.mem_cons.1 hlist with rfl | hlist
    · exact Solid.row ⟨i, j, Nat.le_refl i, hij, by omega, hsize, hspan, hlists⟩
    · obtain rfl := List.mem_singleton.1 hlist
      exact Solid.row ⟨i', j', by omega, hij', by omega, hsize', hspan', hlists'⟩

/-- A node over a token and what stands behind it. -/
theorem Solid.prefixed (hc : c.InOrder) (h : Solid c (m + 1) hi o) :
    Solid c m hi (.node ((c.tokenAt m).span.merge o.span) [[o]]) := by
  have hlt := h.lt
  obtain ⟨i, j, hi, hij, hj, hsize, hspan, hlists⟩ := h
  refine ⟨m, j, Nat.le_refl m, by omega, hj, hsize, ?_, ?_⟩
  · rw [hspan]
    exact hc.merge_over (Nat.le_refl m) (by omega) hij hsize
  · intro list hlist
    obtain rfl := List.mem_singleton.1 hlist
    exact Solid.row ⟨i, j, by omega, hij, Nat.lt_succ_self j, hsize, hspan, hlists⟩

end

def fences : Kind → Bool
  | .eof | .rightBrace | .keyword .procedure | .keyword .function | .keyword .local_ => true
  | _ => false

/-- Tokens behind which a keyword may be passed that stands at a fence elsewhere. -/
def leadsOn (t : Token) : Bool :=
  match t.kind with
  | .dot | .doubleColon | .keyword .local_ => true
  | .identifier => (foreignModifier? t.text).isSome
  | _ => false

structure Fence extends Cursor where
  limit : Nat
  position_le_limit : position ≤ limit
  limit_le : limit ≤ tokens.size
  fenced : fences (toCursor.tokenAt limit).kind = true
  /-- Nothing goes on with a keyword at the fence. -/
  apart : ∀ i, i + 1 = limit → leadsOn (toCursor.tokenAt i) = true → (toCursor.tokenAt limit).kind.keyword? = none
  /-- There are no braces in front of a fence that stands at a token. -/
  flat : limit < tokens.size → ∀ i, position ≤ i → i < limit →
    (toCursor.tokenAt i).kind ≠ .leftBrace ∧ (toCursor.tokenAt i).kind ≠ .rightBrace
  /-- What was reported before. -/
  earlier : Array Diagnostic

theorem Cursor.tokenAt_size (c : Cursor) : c.tokenAt c.tokens.size = c.eof := by
  simp [Cursor.tokenAt]

theorem Cursor.kind_tokenAt_ne_eof {c : Cursor} {i : Nat} (h : i < c.tokens.size) : (c.tokenAt i).kind ≠ .eof := by
  rw [Cursor.tokenAt, Array.getElem?_eq_getElem h, Option.getD_some]
  exact c.kind_ne_eof _ (Array.getElem_mem h)

namespace Fence

variable {F : Fence} {κ : Kind} {i m : Nat}

def whole (c : Cursor) : Fence where
  toCursor := c
  limit := c.tokens.size
  position_le_limit := c.position_le
  limit_le := Nat.le_refl _
  fenced := by rw [c.tokenAt_size, c.kind_eof]; rfl
  apart := by rw [c.tokenAt_size, c.kind_eof]; exact fun _ _ _ => rfl
  flat := fun h => absurd h (Nat.lt_irrefl _)
  earlier := #[]

def Open (F : Fence) : Prop := F.limit = F.tokens.size

theorem open_whole (c : Cursor) : (whole c).Open := rfl

def Lets (F : Fence) (m : Nat) : Prop := m ≤ F.limit → m < F.limit

theorem lets_of_kind (h : fences (F.tokenAt m).kind = false) : F.Lets m := by
  intro hle
  apply Nat.lt_of_le_of_ne hle
  rintro rfl
  rw [F.fenced] at h
  cases h

theorem lets_of_open (ho : F.Open) (h : (F.tokenAt m).kind ≠ .eof) : F.Lets m := by
  intro hle
  apply Nat.lt_of_le_of_ne hle
  rintro rfl
  rw [ho, Cursor.tokenAt_size] at h
  exact h F.kind_eof

theorem lets_of_lt (h : m < F.limit) : F.Lets m := fun _ => h

/-- Tokens of a kind may be passed wherever they stand. -/
theorem passes (h : fences κ = false) (hm : (F.tokenAt m).kind = κ) : F.Lets m := lets_of_kind (hm.symm ▸ h)

theorem passes_brace (ho : F.Open) (hm : (F.tokenAt m).kind = .rightBrace) : F.Lets m :=
  lets_of_open ho (by rw [hm]; nofun)

/-- A keyword may be passed behind a token that leads on to it. -/
theorem lets_of_leadsOn (h : leadsOn (F.tokenAt m) = true) (hk : (F.tokenAt (m + 1)).kind.keyword? ≠ none) :
    F.Lets (m + 1) := by
  intro hle
  apply Nat.lt_of_le_of_ne hle
  intro heq
  apply hk
  rw [heq]
  exact F.apart m heq h

/-- Every test that the kinds at a fence fail. -/
theorem lets_of_test {c : Kind → Bool} (h : c (F.tokenAt m).kind = true)
    (hc : ∀ κ, fences κ = true → c κ = false) : F.Lets m := by
  apply lets_of_kind
  cases hf : fences (F.tokenAt m).kind with
  | false => rfl
  | true => rw [hc _ hf] at h; cases h

end Fence

/-- The kinds at a fence, one by one. -/
theorem forall_fences {p : Kind → Prop} (heof : p .eof) (hbrace : p .rightBrace) (hprocedure : p (.keyword .procedure))
    (hfunction : p (.keyword .function)) (hlocal : p (.keyword .local_)) : ∀ κ, fences κ = true → p κ := by
  intro κ h
  unfold fences at h
  split at h
  case h_6 => cases h
  all_goals assumption

namespace Rule

theorem diagnostics_recordSkipped (start : Nat) (reason : String) (s : Parser) :
    (recordSkipped start reason s).2.diagnostics = s.diagnostics := by
  unfold recordSkipped
  split
  · rfl
  · dsimp only
    split <;> split <;> rfl

/-- A state that the fence allows. -/
structure Within (F : Fence) (s : Parser) : Prop where
  tokens : s.tokens = F.tokens
  eof : s.eof = F.eof
  start_le : F.position ≤ s.position
  le_limit : s.position ≤ F.limit
  level : F.limit < F.tokens.size → s.braceDepth = F.braceDepth
  reported : F.InOrder → ∀ d ∈ s.diagnostics, d ∈ F.earlier ∨ Bounded F.toCursor d.span

namespace Within

variable {F : Fence} {s t : Parser}

theorem tokenAt (h : Within F s) (i : Nat) : s.tokenAt i = F.tokenAt i := by
  rw [Cursor.tokenAt, h.tokens, h.eof, ← Cursor.tokenAt]

theorem peek (h : Within F s) : s.peek = F.tokenAt s.position := h.tokenAt _

theorem of_cursor (h : Within F s) (hc : t.toCursor = s.toCursor)
    (hd : F.InOrder → ∀ d ∈ t.diagnostics, d ∈ F.earlier ∨ Bounded F.toCursor d.span) : Within F t where
  tokens := hc ▸ h.tokens
  eof := hc ▸ h.eof
  start_le := hc ▸ h.start_le
  le_limit := hc ▸ h.le_limit
  level := hc ▸ h.level
  reported := hd

theorem reports {c : Cursor} (h : Within (.whole c) s) (hc : c.InOrder) : ∀ d ∈ s.diagnostics, Bounded c d.span :=
  fun d hd => (h.reported hc d hd).resolve_left (Array.not_mem_empty d)

theorem record (h : Within F s) (d : Diagnostic) (hd : F.InOrder → Bounded F.toCursor d.span) :
    Within F (Rule.record d s).2 := by
  apply h.of_cursor (toCursor_record d s)
  intro hc e he
  have hpush : ∀ last : Diagnostic, last.span = d.span →
      ∀ e ∈ s.diagnostics.push last, e ∈ F.earlier ∨ Bounded F.toCursor e.span := by
    intro last hlast e he
    rcases Array.mem_push.1 he with he | rfl
    · exact h.reported hc e he
    · rw [hlast]
      exact .inr (hd hc)
  by_cases hroom : s.diagnostics.size < maxDiagnostics
  · rw [Rule.record, if_pos hroom] at he
    exact hpush d rfl e he
  · rw [Rule.record, if_neg hroom] at he
    by_cases hcapped : s.capped = true
    · rw [if_pos hcapped] at he
      exact h.reported hc e he
    · rw [if_neg hcapped] at he
      exact hpush (.make .diagnosticLimitReached _ d.span) rfl e he

theorem recordSkipped (h : Within F s) (start : Nat) (reason : String) :
    Within F (Rule.recordSkipped start reason s).2 := by
  apply h.of_cursor (toCursor_recordSkipped start reason s)
  rw [diagnostics_recordSkipped]
  exact h.reported

theorem note (h : Within F s) (e : Event) : Within F (Rule.note e s).2 := h.of_cursor rfl h.reported

theorem advance (h : Within F s) (hlt : s.position < F.limit) :
    Within F (Rule.advance s).2 ∧ (Rule.advance s).2.position = s.position + 1 := by
  have hend : s.atEnd = false := by
    rw [← Bool.not_eq_true, Cursor.atEnd_iff, h.tokens]
    exact Nat.ne_of_lt (Nat.lt_of_lt_of_le hlt F.limit_le)
  have hposition : (Rule.advance s).2.position = s.position + 1 := Cursor.position_next hend
  have hstart := h.start_le
  refine ⟨⟨(forward_advance s).tokens.trans h.tokens, (forward_advance s).eof.trans h.eof, ?_, ?_, ?_, h.reported⟩,
    hposition⟩
  · omega
  · omega
  · intro hbrace
    obtain ⟨hleft, hright⟩ := F.flat hbrace s.position hstart hlt
    have hdepth : (Rule.advance s).2.braceDepth = Cursor.depthAfter s.braceDepth s.peek.kind :=
      Cursor.braceDepth_next hend
    rw [hdepth, h.peek, ← h.level hbrace]
    unfold Cursor.depthAfter
    split <;> simp_all

theorem spanFrom (h : Within F s) (hc : F.InOrder) {start : Nat} (hlt : start < s.position) :
    s.spanFrom start = F.over start (s.position - 1) := by
  have hlimit := h.le_limit
  have hsize := F.limit_le
  rw [Cursor.spanFrom, if_neg (by omega), Cursor.previous, if_neg (by omega), h.tokenAt, h.tokenAt]
  rcases Nat.lt_or_eq_of_le (Nat.le_sub_one_of_lt hlt) with hless | heq
  · exact hc.merge_over (Nat.le_refl start) hless (Nat.le_refl _) (by omega)
  · rw [← heq, Span.merge_self]
    rfl

end Within

/-- A step from the token at `m` on. -/
def Lays (F : Fence) (m : Nat) (x : Parse α) (Q : α → Nat → Prop) : Prop :=
  ∀ s, Within F s → s.position = m →
    Within F (x s).2 ∧ m ≤ (x s).2.position ∧ (F.InOrder → Q (x s).1 (x s).2.position)

def Outcome (F : Fence) (Q : α → Nat → Prop) : Except Fault α → Nat → Prop
  | .ok a, k => Q a k
  | .error fault, _ => Bounded F.toCursor fault.span

def RuleLays (F : Fence) (m : Nat) (x : Rule α) (Q : α → Nat → Prop) : Prop := Lays F m (attempt x) (Outcome F Q)

def Builds (F : Fence) (outline : α → Outline) (x : Rule α) : Prop :=
  ∀ m, RuleLays F m x fun a k => Solid F.toCursor m k (outline a)

def BuildsRow (F : Fence) (outline : α → Outline) (x : Rule (List α)) : Prop :=
  ∀ m, RuleLays F m x fun as k => Row F.toCursor m k (as.map outline)

def payload : ForInStep α → α
  | .yield a | .done a => a

section

variable {α β : Type} {F : Fence} {m : Nat} {Q : β → Nat → Prop} {R : α → Nat → Prop}

namespace Lays

variable {x : Parse α} {f : α → Parse β}

theorem mono {R' : α → Nat → Prop} (h : Lays F m x R) (hR : ∀ a k, m ≤ k → F.InOrder → R a k → R' a k) :
    Lays F m x R' := by
  intro s hs hm
  obtain ⟨hwithin, hle, hres⟩ := h s hs hm
  exact ⟨hwithin, hle, fun hc => hR _ _ hle hc (hres hc)⟩

theorem pure {a : α} (h : F.InOrder → R a m) : Lays F m (pure a) R := by
  rintro s hs rfl
  exact ⟨hs, Nat.le_refl _, h⟩

theorem bind (hx : Lays F m x R) (hf : ∀ a k, m ≤ k → (F.InOrder → R a k) → Lays F k (f a) Q) :
    Lays F m (x >>= f) Q := by
  intro s hs hm
  obtain ⟨hwithin, hle, hres⟩ := hx s hs hm
  obtain ⟨hwithin', hle', hres'⟩ := hf _ _ hle hres _ hwithin rfl
  exact ⟨hwithin', Nat.le_trans hle hle', hres'⟩

theorem map {g : α → β} (hx : Lays F m x R) (hg : ∀ a k, m ≤ k → F.InOrder → R a k → Q (g a) k) :
    Lays F m (g <$> x) Q := by
  intro s hs hm
  obtain ⟨hwithin, hle, hres⟩ := hx s hs hm
  exact ⟨hwithin, hle, fun hc => hg _ _ hle hc (hres hc)⟩

/-- Facts about the place where a step starts. -/
theorem of_place (h : F.position ≤ m → m ≤ F.limit → Lays F m x R) : Lays F m x R := by
  rintro s hs rfl
  exact h hs.start_le hs.le_limit s hs rfl

/-- A step that stays where it is. -/
theorem still (hx : ∀ s, Within F s → Within F (x s).2 ∧ (x s).2.position = s.position)
    (hf : ∀ a, Lays F m (f a) Q) : Lays F m (x >>= f) Q := by
  rintro s hs rfl
  obtain ⟨hwithin, hposition⟩ := hx s hs
  obtain ⟨hwithin', hle, hres⟩ := hf (x s).1 _ hwithin hposition
  exact ⟨hwithin', hle, hres⟩

theorem look_of {p : α → Prop} {g : Parser → α} (hp : ∀ s, Within F s → s.position = m → p (g s))
    (hf : ∀ a, p a → Lays F m (f a) Q) : Lays F m (Rule.look g >>= f) Q := by
  intro s hs hm
  exact hf _ (hp s hs hm) s hs hm

theorem look {g : Parser → α} (hf : ∀ a, Lays F m (f a) Q) : Lays F m (Rule.look g >>= f) Q :=
  look_of (p := fun _ => True) (fun _ _ _ => trivial) fun a _ => hf a

theorem peek {f : Token → Parse β} (hf : Lays F m (f (F.tokenAt m)) Q) : Lays F m (Rule.peek >>= f) Q := by
  apply look_of (p := (· = F.tokenAt m))
  · rintro s hs rfl
    exact hs.peek
  · rintro _ rfl
    exact hf

theorem peekKind {f : Kind → Parse β} (hf : Lays F m (f (F.tokenAt m).kind) Q) :
    Lays F m (Rule.peekKind >>= f) Q := peek (f := fun t => f t.kind) hf

theorem here {f : Nat → Parse β} (hf : Lays F m (f m) Q) : Lays F m (Rule.here >>= f) Q := by
  apply look_of (p := (· = m)) (fun _ _ hm => hm)
  rintro _ rfl
  exact hf

/-- The brace depth does not change in front of a fence at a token. -/
theorem depth {f : Nat → Parse β}
    (hf : ∀ n, (F.limit < F.tokens.size → n = F.braceDepth) → Lays F m (f n) Q) :
    Lays F m (Rule.depth >>= f) Q := look_of (fun _ hs _ => hs.level) hf

/-- The span over the tokens since `start`. -/
theorem spanFrom {start : Nat} {f : Span → Parse β}
    (hf : m ≤ F.tokens.size → ∀ span, (F.InOrder → start < m → span = F.over start (m - 1)) → Lays F m (f span) Q) :
    Lays F m (Rule.spanFrom start >>= f) Q := by
  apply of_place
  intro _ hm
  apply look_of (p := fun span => F.InOrder → start < m → span = F.over start (m - 1))
  · rintro s hs rfl hc hlt
    exact hs.spanFrom hc hlt
  · exact hf (Nat.le_trans hm F.limit_le)

theorem advance {f : Token → Parse β} (h : F.Lets m) (hf : m < F.limit → Lays F (m + 1) (f (F.tokenAt m)) Q) :
    Lays F m (Rule.advance >>= f) Q := by
  rintro s hs rfl
  have hlt := h hs.le_limit
  obtain ⟨hwithin, hposition⟩ := hs.advance hlt
  obtain ⟨hwithin', hle, hres⟩ := hf hlt _ hwithin hposition
  rw [bind_apply]
  refine ⟨?_, ?_, ?_⟩
  all_goals rw [show (Rule.advance s).1 = F.tokenAt s.position from hs.peek]
  · exact hwithin'
  · exact Nat.le_of_succ_le hle
  · exact hres

theorem record (d : Diagnostic) (hd : F.InOrder → Bounded F.toCursor d.span) {f : Unit → Parse β}
    (hf : Lays F m (f ()) Q) : Lays F m (Rule.record d >>= f) Q :=
  still (fun s hs => ⟨hs.record d hd, congrArg Cursor.position (toCursor_record d s)⟩) fun _ => hf

theorem report {fault : Fault} (h : F.InOrder → Bounded F.toCursor fault.span) {f : Unit → Parse β}
    (hf : Lays F m (f ()) Q) : Lays F m (Rule.report fault >>= f) Q := record _ h hf

theorem reported {fault : Fault} (h : F.InOrder → Bounded F.toCursor fault.span) :
    Lays F m (Rule.report fault) fun _ k => k = m := report h (pure fun _ => rfl)

theorem noted (e : Event) : Lays F m (Rule.note e) fun _ k => k = m := by
  rintro s hs rfl
  exact ⟨hs.note e, Nat.le_refl _, fun _ => rfl⟩

theorem note (e : Event) {f : Unit → Parse β} (hf : Lays F m (f ()) Q) : Lays F m (Rule.note e >>= f) Q :=
  still (fun _ hs => ⟨hs.note e, rfl⟩) fun _ => hf

theorem skipped (start : Nat) (reason : String) : Lays F m (Rule.recordSkipped start reason) fun _ k => k = m := by
  rintro s hs rfl
  have hposition : (Rule.recordSkipped start reason s).2.position = s.position :=
    congrArg Cursor.position (toCursor_recordSkipped start reason s)
  exact ⟨hs.recordSkipped start reason, Nat.le_of_eq hposition.symm, fun _ => hposition⟩

/-- Passing the next token when it has the wanted kind. -/
theorem accept {κ : Kind} {f : Bool → Parse β} (hκ : (F.tokenAt m).kind = κ → F.Lets m)
    (hyes : (F.tokenAt m).kind = κ → m < F.limit → Lays F (m + 1) (f true) Q) (hno : Lays F m (f false) Q) :
    Lays F m (Rule.accept κ >>= f) Q := by
  rintro s hs rfl
  rw [bind_apply, accept_apply, hs.peek]
  by_cases hk : (F.tokenAt s.position).kind = κ
  · rw [if_pos hk]
    have hlt := hκ hk hs.le_limit
    obtain ⟨hwithin, hposition⟩ := hs.advance hlt
    obtain ⟨hwithin', hle, hres⟩ := hyes hk hlt _ hwithin hposition
    exact ⟨hwithin', Nat.le_of_succ_le hle, hres⟩
  · rw [if_neg hk]
    exact hno s hs rfl

theorem accepted {κ : Kind} (hκ : (F.tokenAt m).kind = κ → F.Lets m) : Lays F m (Rule.accept κ) fun _ k => m ≤ k := by
  rintro s hs rfl
  rw [accept_apply, hs.peek]
  split
  · rename_i hk
    obtain ⟨hwithin, hposition⟩ := hs.advance (hκ hk hs.le_limit)
    exact ⟨hwithin, by simp [hposition], fun _ => by simp [hposition]⟩
  · exact ⟨hs, Nat.le_refl _, fun _ => Nat.le_refl _⟩

/-- Moving on where nothing but the end of the input stops a run. -/
theorem pass (ho : F.Open) : Lays F m Rule.advance fun t _ => t = F.tokenAt m := by
  rintro s hs rfl
  cases hend : s.atEnd with
  | true =>
      have hstay : (Rule.advance s).2 = s := by simp [Rule.advance, Cursor.next, hend]
      rw [hstay]
      exact ⟨hs, Nat.le_refl _, fun _ => hs.peek⟩
  | false =>
      have hlt : s.position < F.limit := by
        rw [← Bool.not_eq_true, Cursor.atEnd_iff, hs.tokens, ← ho] at hend
        exact Nat.lt_of_le_of_ne hs.le_limit hend
      obtain ⟨hwithin, hposition⟩ := hs.advance hlt
      exact ⟨hwithin, by omega, fun _ => hs.peek⟩

/-- What holds at first and is kept by every round holds in the end. -/
theorem loop {a : α} {step : α → Parse (ForInStep α)} {I : α → Nat → Prop} (ha : F.InOrder → I a m)
    (h : ∀ a k, m ≤ k → (F.InOrder → I a k) → Lays F k (step a) fun r j => I (payload r) j) :
    Lays F m (Rule.loop a step) I := by
  have hrounds : ∀ n a k, m ≤ k → (F.InOrder → I a k) → Lays F k (rounds step n a) I := by
    intro n
    induction n with
    | zero => exact fun a k _ ha => pure ha
    | succ n ih =>
        intro a k hk ha s hs hsk
        obtain ⟨hwithin, hle, hres⟩ := h a k hk ha s hs hsk
        rcases hr : step a s with ⟨b | b, t⟩
        · rw [rounds_done hr]
          rw [hr] at hwithin hle hres
          exact ⟨hwithin, hle, hres⟩
        · rw [rounds_yield hr]
          rw [hr] at hwithin hle hres
          obtain ⟨hwithin', hle', hres'⟩ := ih b t.position (Nat.le_trans hk hle) hres t hwithin rfl
          exact ⟨hwithin', Nat.le_trans hle hle', hres'⟩
  exact fun s hs hsm => hrounds _ a m (Nat.le_refl m) ha s hs hsm

theorem attempt {x : Rule α} {f : Except Fault α → Parse β} (hx : RuleLays F m x R)
    (hok : ∀ a k, m ≤ k → (F.InOrder → R a k) → Lays F k (f (.ok a)) Q)
    (herror : ∀ fault k, m ≤ k → (F.InOrder → Bounded F.toCursor fault.span) → Lays F k (f (.error fault)) Q) :
    Lays F m (attempt x >>= f) Q := by
  apply bind hx
  intro result k hk hres
  cases result with
  | ok a => exact hok a k hk hres
  | error fault => exact herror fault k hk hres

/-- Tokens that are passed over. -/
theorem skipWhile {continues : Parser → Bool}
    (h : ∀ s, Within F s → s.atEnd = false → continues s = true → F.Lets s.position) :
    Lays F m (Rule.skipWhile continues) fun _ k => m ≤ k := by
  apply loop (I := fun _ k => m ≤ k) fun _ => Nat.le_refl m
  rintro _ k hk - s hs rfl
  by_cases hgo : (!s.atEnd && continues s) = true
  · have hround : skipRound continues () s = (.yield (), (Rule.advance s).2) := if_pos hgo
    rw [Bool.and_eq_true, Bool.not_eq_true'] at hgo
    obtain ⟨hwithin, hposition⟩ := hs.advance (h s hs hgo.1 hgo.2 hs.le_limit)
    rw [hround]
    exact ⟨hwithin, by simp [hposition], fun _ => by simp only [hposition]; omega⟩
  · have hround : skipRound continues () s = (.done (), s) := if_neg hgo
    rw [hround]
    exact ⟨hs, Nat.le_refl _, fun _ => hk⟩

end Lays

namespace RuleLays

variable {x : Rule α} {f : α → Rule β}

theorem mono {R' : α → Nat → Prop} (h : RuleLays F m x R) (hR : ∀ a k, m ≤ k → F.InOrder → R a k → R' a k) :
    RuleLays F m x R' := by
  apply Lays.mono h
  intro result k hk hc hres
  cases result with
  | ok a => exact hR a k hk hc hres
  | error fault => exact hres

theorem pure {a : α} (h : F.InOrder → R a m) : RuleLays F m (pure a) R := Lays.pure (R := Outcome F R) h

theorem throw {fault : Fault} (h : F.InOrder → Bounded F.toCursor fault.span) : RuleLays F m (throw fault) R :=
  Lays.pure (R := Outcome F R) (a := .error fault) h

theorem expected (what : String) : RuleLays F m (MonadExcept.throw (Fault.expected what (F.tokenAt m))) R :=
  throw fun _ => Bounded.expected F.toCursor what m

theorem bind (hx : RuleLays F m x R) (hf : ∀ a k, m ≤ k → (F.InOrder → R a k) → RuleLays F k (f a) Q) :
    RuleLays F m (x >>= f) Q := by
  unfold RuleLays
  rw [attempt_bind]
  exact Lays.attempt hx hf fun fault k _ h => Lays.pure h

theorem map {g : α → β} (hx : RuleLays F m x R) (hg : ∀ a k, m ≤ k → F.InOrder → R a k → Q (g a) k) :
    RuleLays F m (g <$> x) Q := bind hx fun a k hk hres => pure fun hc => hg a k hk hc (hres hc)

theorem lift {x : Parse α} (h : Lays F m x R) : RuleLays F m (liftM x) R := h

/-- A step that cannot fail, and what follows it. -/
theorem step {x : Parse α} (hx : Lays F m x R) (hf : ∀ a k, m ≤ k → (F.InOrder → R a k) → RuleLays F k (f a) Q) :
    RuleLays F m (liftM x >>= f) Q := bind (lift hx) hf

theorem look {g : Parser → α} (hf : ∀ a, RuleLays F m (f a) Q) : RuleLays F m (liftM (Rule.look g) >>= f) Q :=
  Lays.look (f := fun a => Rule.attempt (f a)) hf

theorem peek {f : Token → Rule β} (hf : RuleLays F m (f (F.tokenAt m)) Q) : RuleLays F m (liftM Rule.peek >>= f) Q :=
  Lays.peek (f := fun t => Rule.attempt (f t)) hf

theorem peekKind {f : Kind → Rule β} (hf : RuleLays F m (f (F.tokenAt m).kind) Q) :
    RuleLays F m (liftM Rule.peekKind >>= f) Q := Lays.peekKind (f := fun κ => Rule.attempt (f κ)) hf

theorem check {κ : Kind} {f : Bool → Rule β} (hf : ∀ found, RuleLays F m (f found) Q) :
    RuleLays F m (liftM (Rule.check κ) >>= f) Q := look hf

theorem here {f : Nat → Rule β} (hf : RuleLays F m (f m) Q) : RuleLays F m (liftM Rule.here >>= f) Q :=
  Lays.here (f := fun n => Rule.attempt (f n)) hf

theorem spanFrom {start : Nat} {f : Span → Rule β}
    (hf : m ≤ F.tokens.size → ∀ span, (F.InOrder → start < m → span = F.over start (m - 1)) → RuleLays F m (f span) Q) :
    RuleLays F m (liftM (Rule.spanFrom start) >>= f) Q := Lays.spanFrom (f := fun span => Rule.attempt (f span)) hf

theorem advance {f : Token → Rule β} (h : F.Lets m) (hf : m < F.limit → RuleLays F (m + 1) (f (F.tokenAt m)) Q) :
    RuleLays F m (liftM Rule.advance >>= f) Q := Lays.advance (f := fun t => Rule.attempt (f t)) h hf

theorem report {fault : Fault} (h : F.InOrder → Bounded F.toCursor fault.span) {f : Unit → Rule β}
    (hf : RuleLays F m (f ()) Q) : RuleLays F m (liftM (Rule.report fault) >>= f) Q :=
  Lays.report (f := fun u => Rule.attempt (f u)) h hf

theorem accept {κ : Kind} {f : Bool → Rule β} (hκ : (F.tokenAt m).kind = κ → F.Lets m)
    (hyes : (F.tokenAt m).kind = κ → m < F.limit → RuleLays F (m + 1) (f true) Q) (hno : RuleLays F m (f false) Q) :
    RuleLays F m (liftM (Rule.accept κ) >>= f) Q := Lays.accept (f := fun b => Rule.attempt (f b)) hκ hyes hno

/-- A token of the wanted kind, and what stands behind it. -/
theorem expect {κ : Kind} {f : Token → Rule β} (hκ : (F.tokenAt m).kind = κ → F.Lets m)
    (hf : (F.tokenAt m).kind = κ → m < F.limit → RuleLays F (m + 1) (f (F.tokenAt m)) Q) :
    RuleLays F m (Rule.expect κ >>= f) Q := by
  rintro s hs rfl
  by_cases hk : (F.tokenAt s.position).kind = κ
  · have hlt := hκ hk hs.le_limit
    obtain ⟨hwithin, hposition⟩ := hs.advance hlt
    have hexpect : Rule.expect κ s = (.ok s.peek, (Rule.advance s).2) := by
      rw [expect_apply, if_pos (hs.peek.symm ▸ hk)]
    rw [attempt_bind_of_ok hexpect, hs.peek]
    obtain ⟨hwithin', hle, hres⟩ := hf hk hlt _ hwithin hposition
    exact ⟨hwithin', Nat.le_of_succ_le hle, hres⟩
  · have hexpect : Rule.expect κ s = (.error (.expected κ.describe s.peek), s) := by
      rw [expect_apply, if_neg (hs.peek.symm ▸ hk)]
    rw [attempt_bind_of_error hexpect, hs.peek]
    exact ⟨hs, Nat.le_refl _, fun _ => .expected F.toCursor _ _⟩

theorem tooDeep : RuleLays F m (Rule.tooDeep : Rule α) R := by
  rintro s hs rfl
  refine ⟨hs, Nat.le_refl _, fun _ => ?_⟩
  show Bounded F.toCursor s.peek.span
  rw [hs.peek]
  exact Bounded.token F.toCursor s.position

theorem nested (h : RuleLays F m x R) : RuleLays F m (Rule.nested x) R := by
  rintro s hs hm
  by_cases hn : s.nesting < maxNesting
  · obtain ⟨hwithin, hle, hres⟩ := h (s.withNesting (s.nesting + 1)) (hs.of_cursor rfl hs.reported) hm
    show Within F (Rule.nested x s).2 ∧ m ≤ (Rule.nested x s).2.position ∧
      (F.InOrder → Outcome F R (Rule.nested x s).1 (Rule.nested x s).2.position)
    rw [nested_apply x s hn]
    exact ⟨hwithin.of_cursor rfl hwithin.reported, hle, hres⟩
  · show Within F (Rule.nested x s).2 ∧ m ≤ (Rule.nested x s).2.position ∧
      (F.InOrder → Outcome F R (Rule.nested x s).1 (Rule.nested x s).2.position)
    rw [nested_tooDeep x s hn]
    exact tooDeep (R := R) s hs hm

theorem of_levels {x : Nat → Rule α} (h : ∀ n, RuleLays F m (x n) R) :
    RuleLays F m (fun s => x s.freeLevels s) R := fun s hs hm => h s.freeLevels s hs hm

theorem tryLoop {a : α} {step : α → Rule (ForInStep α)} {I : α → Nat → Prop} (ha : F.InOrder → I a m)
    (h : ∀ a k, m ≤ k → (F.InOrder → I a k) → RuleLays F k (step a) fun r j => I (payload r) j) :
    RuleLays F m (Rule.tryLoop a step) I := by
  have hrounds : ∀ n a k, m ≤ k → (F.InOrder → I a k) → RuleLays F k (tryRounds step n a) I := by
    intro n
    induction n with
    | zero => exact fun a k _ ha => pure ha
    | succ n ih =>
        intro a k hk ha s hs hsk
        obtain ⟨hwithin, hle, hres⟩ := h a k hk ha s hs hsk
        change Within F (step a s).2 at hwithin
        change k ≤ (step a s).2.position at hle
        change F.InOrder → Outcome F _ (step a s).1 (step a s).2.position at hres
        show Within F (tryRounds step (n + 1) a s).2 ∧ k ≤ (tryRounds step (n + 1) a s).2.position ∧
          (F.InOrder → Outcome F I (tryRounds step (n + 1) a s).1 (tryRounds step (n + 1) a s).2.position)
        rcases hr : step a s with ⟨fault | b | b, t⟩
        · rw [tryRounds_error hr]
          rw [hr] at hwithin hle hres
          exact ⟨hwithin, hle, hres⟩
        · rw [tryRounds_done hr]
          rw [hr] at hwithin hle hres
          exact ⟨hwithin, hle, hres⟩
        · rw [tryRounds_yield hr]
          rw [hr] at hwithin hle hres
          obtain ⟨hwithin', hle', hres'⟩ := ih b t.position (Nat.le_trans hk hle) hres t hwithin rfl
          exact ⟨hwithin', Nat.le_trans hle hle', hres'⟩
  exact fun s hs hsm => hrounds _ a m (Nat.le_refl m) ha s hs hsm

end RuleLays

end

end Rule

end CalExport
