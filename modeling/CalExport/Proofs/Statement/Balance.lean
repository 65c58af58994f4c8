import CalExport.Proofs.Expression.Soundness

namespace CalExport

namespace Kind

def opensBlock : Kind → Bool
  | .keyword .begin_ | .keyword .case_ => true
  | _ => false

def isBlockWord (κ : Kind) : Bool := κ.opensBlock || κ == .keyword .end_

def marksMember : Kind → Bool
  | .dot | .doubleColon => true
  | _ => false

theorem opensBlock_iff {κ : Kind} : κ.opensBlock = true ↔ κ = .keyword .begin_ ∨ κ = .keyword .case_ := by
  fun_cases opensBlock κ <;> simp_all

theorem isBlockWord_of_marksMember {κ : Kind} (h : κ.marksMember = true) : κ.isBlockWord = false := by
  cases κ with
  | dot | doubleColon => rfl
  | _ => cases h

end Kind

/-- No word that opens or closes a block stands as the name of a member. -/
def clearMembers : List Token → Bool
  | t :: u :: rest => !(t.kind.marksMember && u.kind.isBlockWord) && clearMembers (u :: rest)
  | _ => true

/-- The tokens close `n` blocks that were open before them and all that they open. -/
def Closes : Nat → List Token → Prop
  | n, [] => n = 0
  | n, t :: rest =>
    if t.kind.opensBlock then Closes (n + 1) rest
    else if t.kind = .keyword .end_ then ∃ m, n = m + 1 ∧ Closes m rest
    else Closes n rest

section

variable {n m : Nat} {t : Token} {u v rest : List Token}

theorem clearMembers_right (h : clearMembers (u ++ v) = true) : clearMembers v = true := by
  induction u with
  | nil => exact h
  | cons t u ih =>
      apply ih
      cases huv : u ++ v with
      | nil => rfl
      | cons w rest =>
          rw [List.cons_append, huv, clearMembers, Bool.and_eq_true] at h
          exact h.2

theorem clearMembers_left (h : clearMembers (u ++ v) = true) : clearMembers u = true := by
  fun_induction clearMembers u with
  | case1 t w rest ih =>
      rw [List.cons_append, List.cons_append, clearMembers, Bool.and_eq_true] at h
      rw [Bool.and_eq_true]
      exact ⟨h.1, ih h.2⟩
  | case2 => rfl

theorem closes_opening (ht : t.kind.opensBlock = true) (h : Closes (n + 1) rest) : Closes n (t :: rest) := by
  rwa [Closes, if_pos ht]

theorem closes_end (ht : t.kind = .keyword .end_) (h : Closes n rest) : Closes (n + 1) (t :: rest) := by
  rw [Closes, if_neg (by rw [ht]; decide), if_pos ht]
  exact ⟨n, rfl, h⟩

theorem closes_plain (ht : t.kind.isBlockWord = false) (h : Closes n rest) : Closes n (t :: rest) := by
  rw [Kind.isBlockWord, Bool.or_eq_false_iff, beq_eq_false_iff_ne] at ht
  rwa [Closes, if_neg (by simp [ht.1]), if_neg ht.2]

theorem Closes.append (hu : Closes n u) (hv : Closes m v) : Closes (n + m) (u ++ v) := by
  induction u generalizing n with
  | nil =>
      obtain rfl : n = 0 := hu
      rwa [Nat.zero_add]
  | cons t u ih =>
      rw [List.cons_append, Closes]
      rw [Closes] at hu
      split
      · rename_i hopen
        rw [if_pos hopen] at hu
        have hrest := ih hu
        rwa [Nat.add_right_comm] at hrest
      · rename_i hopen
        rw [if_neg hopen] at hu
        split
        · rename_i hend
          rw [if_pos hend] at hu
          obtain ⟨k, rfl, hrest⟩ := hu
          exact ⟨k + m, Nat.add_right_comm k 1 m, ih hrest⟩
        · rename_i hend
          rw [if_neg hend] at hu
          exact ih hu

/-- In front of anything may stand what is closed in itself. -/
theorem Closes.behind (hv : Closes n v) (hu : Closes 0 u) : Closes n (u ++ v) := by
  have hboth := hu.append hv
  rwa [Nat.zero_add] at hboth

/-- What is left behind a front closes what that front leaves open. -/
theorem Closes.behind_front (h : Closes n (u ++ v)) : ∃ m, Closes m v := by
  induction u generalizing n with
  | nil => exact ⟨n, h⟩
  | cons t u ih =>
      rw [List.cons_append, Closes] at h
      split at h
      · exact ih h
      · split at h
        · obtain ⟨m, -, hrest⟩ := h
          exact ih hrest
        · exact ih h

/-- The END of the innermost of some open blocks: what stands in front of it is closed in itself. -/
theorem Closes.exists_end (h : Closes (n + 1) v) : ∃ inner closing more, v = inner ++ closing :: more ∧
    closing.kind = .keyword .end_ ∧ Closes 0 inner ∧ Closes n more := by
  -- Behind a block that is opened on the way fewer tokens are left.
  induction hlength : v.length using Nat.strongRecOn generalizing n v with
  | ind k ih =>
      subst hlength
      cases v with
      | nil => cases h
      | cons t rest =>
          rw [Closes] at h
          split at h
          · rename_i hopens
            obtain ⟨inner, closing, more, rfl, hclosing, hinner, hmore⟩ := ih _ (Nat.lt_succ_self _) h rfl
            have hshorter : more.length < (t :: (inner ++ closing :: more)).length := by
              rw [List.length_cons, List.length_append, List.length_cons]
              omega
            obtain ⟨outer, last, more, rfl, hlast, houter, hmore⟩ := ih _ hshorter hmore rfl
            refine ⟨t :: (inner ++ closing :: outer), last, more, by simp, hlast, ?_, hmore⟩
            exact closes_opening hopens (((closes_end hclosing houter).behind hinner))
          · rename_i hopens
            split at h
            · rename_i hend
              obtain ⟨m, hm, hrest⟩ := h
              obtain rfl := Nat.succ.inj hm
              exact ⟨[], t, rest, rfl, hend, rfl, hrest⟩
            · rename_i hend
              have hplain : t.kind.isBlockWord = false := by simp [Kind.isBlockWord, hopens, hend]
              obtain ⟨inner, closing, more, rfl, hclosing, hinner, hmore⟩ := ih _ (Nat.lt_succ_self _) h rfl
              exact ⟨t :: inner, closing, more, rfl, hclosing, closes_plain hplain hinner, hmore⟩

theorem closes_of_plain (h : ∀ t ∈ u, t.kind.isBlockWord = false) : Closes 0 u := by
  induction u with
  | nil => rfl
  | cons t u ih => exact closes_plain (h t List.mem_cons_self) (ih fun w hw => h w (List.mem_cons_of_mem t hw))

end

/-- A word that opens a block at the `i`-th token, what is closed in itself, and END, up to the `j`-th token. -/
def ClosedBlock (tokens : List Token) (i j : Nat) : Prop :=
  ∃ opening inner closing more, tokens.drop i = (opening :: (inner ++ [closing])) ++ more ∧ j = i + (inner.length + 2) ∧
    opening.kind.opensBlock = true ∧ closing.kind = .keyword .end_ ∧ Closes 0 inner

/-- Among tokens that close all they open every opening word has its END. -/
theorem closedBlock_of_closes {tokens run more : List Token} {lo i n : Nat} (hrun : tokens.drop lo = run ++ more)
    (hcloses : Closes n run) (hlo : lo ≤ i) (hi : i < lo + run.length) {t : Token} (ht : tokens[i]? = some t)
    (hopens : t.kind.opensBlock = true) : ∃ j, ClosedBlock tokens i j := by
  obtain ⟨k, rfl⟩ := Nat.exists_eq_add_of_le hlo
  have hk : k < run.length := by omega
  have hsplit : run = run.take k ++ t :: run.drop (k + 1) := by
    have hget : run[k]? = some t := by
      rw [← ht, ← List.getElem?_drop, hrun, List.getElem?_append_left hk]
    rw [List.getElem?_eq_getElem hk, Option.some.injEq] at hget
    rw [← hget, List.getElem_cons_drop, List.take_append_drop]
  rw [hsplit] at hcloses
  obtain ⟨m, hrest⟩ := hcloses.behind_front
  rw [Closes, if_pos hopens] at hrest
  obtain ⟨inner, closing, behind, hinside, hclosing, hinner, -⟩ := hrest.exists_end
  refine ⟨_, t, inner, closing, behind ++ more, ?_, rfl, hopens, hclosing, hinner⟩
  rw [← List.drop_drop, hrun, List.drop_append_of_le_length (Nat.le_of_lt hk), hsplit,
    List.drop_left' (by rw [List.length_take]; omega), hinside]
  simp

theorem closedBlock_of_plain {tokens : List Token} {i n : Nat} {opening closing : Token}
    (hopening : tokens[i]? = some opening) (hclosing : tokens[i + 1 + n]? = some closing)
    (hopens : opening.kind.opensBlock = true) (hend : closing.kind = .keyword .end_)
    (hplain : ∀ t ∈ (tokens.drop (i + 1)).take n, t.kind.isBlockWord = false) : ClosedBlock tokens i (i + (n + 2)) := by
  obtain ⟨hi, rfl⟩ := List.getElem?_eq_some_iff.1 hopening
  obtain ⟨hj, rfl⟩ := List.getElem?_eq_some_iff.1 hclosing
  have hlength : ((tokens.drop (i + 1)).take n).length = n := by
    rw [List.length_take, List.length_drop]
    omega
  refine ⟨tokens[i], (tokens.drop (i + 1)).take n, tokens[i + 1 + n], tokens.drop (i + 1 + n + 1), ?_, ?_, hopens, hend,
    closes_of_plain hplain⟩
  · have hbehind : (tokens.drop (i + 1)).drop n = tokens[i + 1 + n] :: tokens.drop (i + 1 + n + 1) := by
      rw [List.drop_drop, List.drop_eq_getElem_cons hj]
    rw [List.drop_eq_getElem_cons hi, List.cons_append, List.append_assoc, List.singleton_append, ← hbehind,
      List.take_append_drop]
  · rw [hlength]

/-- The blocks inside a closed one are closed. -/
theorem ClosedBlock.inside {tokens : List Token} {i j k : Nat} (h : ClosedBlock tokens i j) (hik : i < k) (hkj : k < j)
    {t : Token} (ht : tokens[k]? = some t) (hopens : t.kind.opensBlock = true) : ∃ j, ClosedBlock tokens k j := by
  obtain ⟨opening, inner, closing, more, hdrop, rfl, -, hclosing, hinner⟩ := h
  have hbehind : tokens.drop (i + 1) = (inner ++ [closing]) ++ more := by
    rw [← List.drop_drop, hdrop]
    rfl
  have hnone : Closes 0 [] := rfl
  have hcloses : Closes 1 (inner ++ [closing]) := (closes_end hclosing hnone).behind hinner
  refine closedBlock_of_closes hbehind hcloses hik ?_ ht hopens
  rw [List.length_append, List.length_singleton]
  omega

def Blockless (u : List Token) : Prop := clearMembers u = true → ∀ t ∈ u, t.kind.isBlockWord = false

namespace Blockless

variable {t : Token} {u v : List Token}

theorem nil : Blockless [] := fun _ _ h => absurd h List.not_mem_nil

theorem append (hu : Blockless u) (hv : Blockless v) : Blockless (u ++ v) := by
  intro h t ht
  rcases List.mem_append.1 ht with ht | ht
  · exact hu (clearMembers_left h) t ht
  · exact hv (clearMembers_right h) t ht

theorem single (ht : t.kind.isBlockWord = false) : Blockless [t] := by
  intro _ w hw
  rwa [List.mem_singleton.1 hw]

theorem cons (ht : t.kind.isBlockWord = false) (hu : Blockless u) : Blockless (t :: u) := (single ht).append hu

theorem concat (hu : Blockless u) (ht : t.kind.isBlockWord = false) : Blockless (u ++ [t]) := hu.append (single ht)

/-- A mark of a member and the name behind it. -/
theorem member {dot name : Token} (hdot : dot.kind.marksMember = true) : Blockless [dot, name] := by
  intro h
  have hname : name.kind.isBlockWord = false := by simpa [clearMembers, hdot] using h
  simp [hname, Kind.isBlockWord_of_marksMember hdot]

end Blockless

namespace Rule

variable {F : Forms} {u : List Token} {e : Expr} {k : Nat}

theorem Separated.blockless {α : Type} {item : List Token → α → Prop} (hitem : ∀ u a, item u a → Blockless u)
    {as : List α} (h : Separated item u as) : Blockless u := by
  induction h with
  | last h => exact hitem _ _ h
  | cons h hcomma _ ih => exact (hitem _ _ h).append (ih.cons (by rw [hcomma]; rfl))

theorem Listed.blockless {α : Type} {item : List Token → α → Prop} (hitem : ∀ u a, item u a → Blockless u)
    {as : List α} (h : Listed item u as) : Blockless u := by
  cases h with
  | nil => exact .nil
  | separated h => exact h.blockless hitem

theorem isBlockWord_of_stands {t : Token} (h : Stands t e) : t.kind.isBlockWord = false := by
  cases hword : t.kind.isBlockWord with
  | false => rfl
  | true =>
      have hkind : t.kind = .keyword .begin_ ∨ t.kind = .keyword .case_ ∨ t.kind = .keyword .end_ := by
        rwa [Kind.isBlockWord, Bool.or_eq_true, beq_iff_eq, Kind.opensBlock_iff, or_assoc] at hword
      rcases hkind with hkind | hkind | hkind <;>
        simp [Stands, leaf?, hkind, endsExpression, Keyword.isStatementWord] at h

section

variable (hexpression : ∀ u e, F.expression u e → Blockless u) (hunary : ∀ u e, F.unary u e → Blockless u)

include hexpression

theorem Element.blockless (h : Element F u e) : Blockless u := by
  cases h with
  | single h => exact hexpression _ _ h
  | upTo hdots h => exact (hexpression _ _ h).cons (by rw [hdots]; rfl)
  | onwards h hdots => exact (hexpression _ _ h).concat (by rw [hdots]; rfl)
  | between h₁ hdots h₂ => exact (hexpression _ _ h₁).append ((hexpression _ _ h₂).cons (by rw [hdots]; rfl))

theorem SetForm.blockless (h : SetForm F u e) : Blockless u := by
  cases h with
  | mk hopen h hclose =>
      have helements := h.blockless fun _ _ => Element.blockless hexpression
      exact (helements.concat (by rw [hclose]; rfl)).cons (by rw [hopen]; rfl)

include hunary

theorem Phrase.blockless (h : Phrase F k u e) : Blockless u := by
  induction h with
  | leaf h => exact .single (isBlockWord_of_stands h)
  | group hopen h hclose => exact ((hexpression _ _ h).concat (by rw [hclose]; rfl)).cons (by rw [hopen]; rfl)
  | set h => exact h.blockless hexpression
  | member _ hdot _ ih =>
      refine ih.append (.member ?_)
      rw [hdot]
      split <;> rfl
  | call _ hopen hargs hclose ih | index _ hopen hargs hclose ih =>
      have hlist := hargs.blockless hexpression
      exact ih.append ((hlist.concat (by rw [hclose]; rfl)).cons (by rw [hopen]; rfl))
  | @unary op t toks e span hop h =>
      refine (hunary _ _ h).cons ?_
      rw [hop]
      cases op <;> rfl
  | @binary op t toks₁ toks₂ left right span _ hop _ _ ihleft ihright =>
      refine ihleft.append (ihright.cons ?_)
      rw [hop]
      cases op <;> rfl
  | tighter _ _ ih => exact ih

end

theorem forms_blockless (n : Nat) :
    (∀ u e, (forms n).expression u e → Blockless u) ∧ ∀ u e, (forms n).unary u e → Blockless u := by
  induction n with
  | zero => exact ⟨fun _ _ h => h.elim, fun _ _ h => h.elim⟩
  | succ n ih =>
      exact ⟨fun _ _ => Phrase.blockless ih.1 ih.2, fun _ _ => Phrase.blockless ih.1 ih.2⟩

variable {α β : Type}

/-- Clean runs of the rule close `n` blocks that were open before them and all that they open. -/
def Settles (n : Nat) (x : Rule α) : Prop :=
  Covers (clearMembers · = true) x fun run _ _ => Closes n run

namespace Settles

variable {n : Nat} {κ : Kind} {x : Rule α} {f : α → Rule β}

theorem pure (a : α) : Settles 0 (pure a) := Covers.pure fun _ _ => rfl

theorem throw (fault : Fault) : Settles n (throw fault : Rule α) := Covers.throw fault

theorem weaken {P : List Token → Prop} (h : Settles n x) (hP : ∀ l, P l → clearMembers l = true) :
    Covers P x fun run _ _ => Closes n run := Covers.weaken h hP

theorem bind (hx : Settles 0 x) (hf : ∀ a, Settles n (f a)) : Settles n (x >>= f) := by
  apply Covers.bind hx
  intro a u
  apply ((hf a).weaken fun l hl => clearMembers_right hl.1).mono
  rintro run rest b ⟨-, hu⟩ hrun
  exact hrun.behind hu

theorem map {g : α → β} (hx : Settles n x) : Settles n (g <$> x) := Covers.map hx fun _ _ _ h => h

theorem look {h : Parser → α} (hf : ∀ a, Settles n (f a)) : Settles n (liftM (Rule.look h) >>= f) :=
  Covers.look (r := fun _ _ => True) (fun _ => trivial) fun a => (hf a).weaken fun _ hl => hl.1

/-- What is read behind one token, when that token changes what there is to close from `n` blocks to `m`. -/
theorem behind {P : List Token → Prop} {m : Nat} {t : Token} (hx : Settles m x)
    (hP : ∀ l, P l → clearMembers (t :: l) = true ∧ ∀ run, Closes m run → Closes n (t :: run)) :
    Covers P x fun run _ _ => Closes n (t :: run) := by
  apply (hx.weaken fun l hl => clearMembers_right (u := [t]) (hP l hl).1).mono
  intro run rest a hstart hrun
  exact (hP _ hstart).2 run hrun

/-- Passing a token that is known and opens and closes nothing. -/
theorem advance {P : List Token → Prop} {f : Token → Rule β} (hκ : κ ≠ .eof) (hplain : κ.isBlockWord = false)
    (hP : ∀ l, P l → clearMembers l = true ∧ nextKind l = κ) (hf : ∀ t, Settles n (f t)) :
    Covers P (liftM Rule.advance >>= f) fun run _ _ => Closes n run := by
  apply Covers.advance fun l hl => (hP l hl).2 ▸ hκ
  intro t
  apply (hf t).behind
  intro l hl
  have hkind : t.kind = κ := (hP _ hl).2
  exact ⟨(hP _ hl).1, fun run => closes_plain (hkind ▸ hplain)⟩

theorem expect {f : Token → Rule β} (hκ : κ ≠ .eof) (hplain : κ.isBlockWord = false) (hf : ∀ t, Settles n (f t)) :
    Settles n (Rule.expect κ >>= f) := by
  apply Covers.expect hκ
  exact fun t => (hf t).behind fun l hl => ⟨hl.1, fun run => closes_plain (hl.2 ▸ hplain)⟩

theorem expect_opening {f : Token → Rule β} (hκ : κ.opensBlock = true) (hf : ∀ t, Settles (n + 1) (f t)) :
    Settles n (Rule.expect κ >>= f) := by
  apply Covers.expect (by rintro rfl; cases hκ)
  exact fun t => (hf t).behind fun l hl => ⟨hl.1, fun run => closes_opening (hl.2 ▸ hκ)⟩

theorem expect_end {f : Token → Rule β} (hf : ∀ t, Settles n (f t)) :
    Settles (n + 1) (Rule.expect (.keyword .end_) >>= f) := by
  apply Covers.expect (by rintro ⟨⟩)
  exact fun t => (hf t).behind fun l hl => ⟨hl.1, fun run => closes_end hl.2⟩

theorem accept {f : Bool → Rule β} (hκ : κ ≠ .eof) (hplain : κ.isBlockWord = false)
    (hf : ∀ found, Settles n (f found)) : Settles n (liftM (Rule.accept κ) >>= f) := by
  apply Covers.accept hκ
  · exact fun t => (hf true).behind fun l hl => ⟨hl.1, fun run => closes_plain (hl.2 ▸ hplain)⟩
  · exact (hf false).weaken fun l hl => hl.1

/-- What runs of a form that holds no block words close. -/
theorem of_blockless (form : List Token → α → Prop)
    (hx : ∀ {P : List Token → Prop}, Covers P x fun run _ a => form run a)
    (hform : ∀ u a, form u a → Blockless u) : Settles 0 x := by
  apply Covers.mono hx
  intro run rest a hclear hrun
  exact closes_of_plain (hform run a hrun (clearMembers_left hclear))

theorem report {fault : Fault} {f : Unit → Rule β} (hf : Steady (attempt (f ()))) :
    Settles n (liftM (Rule.report fault) >>= f) := Covers.report hf

theorem reported (fault : Fault) : Settles n (liftM (Rule.report fault)) := by
  rw [← bind_pure (liftM (Rule.report fault) : Rule Unit)]
  exact report Forward.refl

/-- A failure is reported, so it is not clean. -/
theorem recover {f : Except Fault α → Parse β} (hx : Settles 0 x) (hok : ∀ a, Settles n (liftM (f (.ok a))))
    (herror : ∀ fault, Covers (fun _ => True) (liftM (f (.error fault))) fun _ _ _ => False) :
    Settles n (liftM (attempt x >>= f)) := by
  apply Covers.recover hx _ herror
  intro a u
  apply ((hok a).weaken fun l hl => clearMembers_right hl.1).mono
  rintro run rest b ⟨-, hu⟩ hrun
  exact hrun.behind hu

/-- A loop whose rounds close what they open. -/
theorem loop {round : α → Parse (ForInStep α)} (hprogress : Progresses round)
    (hround : ∀ a, Settles 0 (liftM (round a))) (a : α) : Settles 0 (liftM (Rule.loop a round)) := by
  refine Covers.loop (g := fun _ run _ _ => Closes 0 run) hprogress (fun a => ?_) a
  apply (hround a).mono
  intro run rest next hclear hrun
  cases next with
  | yield b => exact ⟨clearMembers_right hclear, fun _ _ _ hv => hrun.append hv⟩
  | done b => exact hrun

end Settles

theorem settles_expression : Settles 0 expression := by
  apply Settles.of_blockless Derives
  · intro P
    apply Covers.of_levels (x := fun n => (deeper n).expression)
    intro n
    apply (covered n).expression.mono
    rintro run rest e - ⟨he, -⟩
    exact ⟨n, he⟩
  · rintro u e ⟨n, he⟩
    exact (forms_blockless n).1 u e he

theorem settles_operand : Settles 0 operand := by
  apply Settles.of_blockless fun run e => ∃ n, Phrase (forms n) 7 run e
  · intro P
    apply Covers.of_levels (x := fun n => operandWith (deeper n))
    intro n
    apply (operand_covers (covered n)).mono
    intro run rest e _ he
    exact ⟨n, he⟩
  · rintro u e ⟨n, he⟩
    exact he.blockless (forms_blockless n).1 (forms_blockless n).2

theorem settles_values : Settles 0 (commaSeparated element) := by
  have helement : ∀ {P : List Token → Prop}, Covers P element fun run _ e => ∃ n, Element (forms n) run e := by
    intro P
    apply Covers.of_levels (x := fun n => elementWith (deeper n))
    intro n
    apply (element_covers (covered n)).mono
    intro run rest e _ he
    exact ⟨n, he⟩
  apply Settles.of_blockless _ fun {P} => commaSeparated_covers (grammarTryLoop_progresses .caseValues) helement
  intro u es hes
  apply hes.blockless
  rintro v e ⟨n, he⟩
  exact he.blockless (forms_blockless n).1

theorem settles_separator (ends : Kind → Bool) : Settles 0 (liftM (separator ends)) := by
  refine Covers.step (Settles.accept (by rintro ⟨⟩) rfl fun found => ?_)
  cases found with
  | true => exact Settles.pure ()
  | false =>
      refine Covers.step (Settles.look fun next => ?_)
      split
      · exact Settles.reported _
      · exact Settles.pure ()

/-- Nothing is clean behind the recovery of a statement. -/
theorem recoverStatement_covers (fault : Fault) (start : Nat) (reason : String) (a : β) :
    Covers (fun _ => True) (liftM (recoverStatement fault start reason >>= fun _ => pure a)) fun _ _ _ => False := by
  have hforced : ∀ u : Parser, Forward u ((if u.position - start = 0 ∧ !endsList u.peek.kind then
      advance >>= fun _ => recordSkipped start reason else pure () : Parse Unit) u).2 := by
    intro u
    split
    · exact (forward_advance u).trans (forward_recordSkipped start reason _)
    · exact Forward.refl u
  exact Covers.report (f := fun _ => liftM (skipStatement >>= fun _ => peekKind >>= fun kind =>
    passedSince start >>= fun passed =>
      (if passed = 0 ∧ !endsList kind then advance >>= fun _ => recordSkipped start reason else pure ()) >>= fun _ =>
        (pure a : Parse β))) fun s => (steady_skipStatement s).trans (hforced _)

theorem plain_of_assignOp {κ : Kind} {op : AssignOp} (h : assignOp? κ = some op) :
    κ ≠ .eof ∧ κ.isBlockWord = false := by
  revert h
  fun_cases assignOp? κ with
  | case6 => rintro ⟨⟩
  | _ => exact fun _ => ⟨by rintro ⟨⟩, rfl⟩

theorem settles_assignmentOrCall : Settles 0 assignmentOrCall := by
  refine Settles.look fun start => ?_
  refine settles_operand.bind fun target => ?_
  apply Covers.peekKind
  intro κ
  cases hop : assignOp? κ with
  | none => exact (Settles.pure _).weaken fun l hl => hl.1
  | some op =>
      obtain ⟨heof, hplain⟩ := plain_of_assignOp hop
      refine Settles.advance heof hplain (fun l hl => hl) fun t => ?_
      refine settles_expression.bind fun right => ?_
      exact Settles.look fun span => Settles.pure _

theorem settles_exitStatement : Settles 0 exitStatement := by
  have hvalue : Settles 0 exitValue := by
    refine Settles.accept (by rintro ⟨⟩) rfl fun found => ?_
    split
    · refine Settles.accept (by rintro ⟨⟩) rfl fun found => ?_
      split
      · exact Settles.pure _
      · refine settles_expression.bind fun value => ?_
        exact Settles.expect (by rintro ⟨⟩) rfl fun _ => Settles.pure _
    · exact Settles.pure _
  refine Settles.look fun start => ?_
  refine Settles.expect (by rintro ⟨⟩) rfl fun _ => ?_
  refine hvalue.bind fun value => ?_
  exact Settles.look fun span => Settles.pure _

theorem settles_counter : Settles 0 counter := by
  refine settles_operand.bind fun target => ?_
  split
  · exact Settles.pure _
  · exact Settles.pure _
  · exact Settles.report Forward.refl

theorem settles_direction : Settles 0 direction := by
  refine Settles.accept (by rintro ⟨⟩) rfl fun up => ?_
  split
  · exact Settles.pure _
  · refine Settles.accept (by rintro ⟨⟩) rfl fun down => ?_
    split
    · exact Settles.pure _
    · exact Settles.look fun t => Settles.throw _

section

variable {n : Nat} (h : Settles 0 (statementAt n))

include h

theorem settles_listWith : Settles 0 (liftM (listWith (statementAt n))) := by
  refine Covers.step (Settles.bind (Settles.loop (grammarLoop_progresses (.statements n)) (fun found => ?_) #[])
    fun _ => Settles.pure _)
  refine Covers.step ?_
  apply Covers.peek
  intro token
  split
  · exact (Settles.pure _).weaken fun l hl => hl.1
  · split
    · rename_i hkind
      exact Covers.step (Settles.advance (by rintro ⟨⟩) rfl (fun l hl => ⟨hl.1, hl.2.1.trans hkind⟩) fun _ =>
        Settles.pure _)
    · refine Settles.weaken (Covers.step (Settles.look fun start => ?_)) fun l hl => hl.1
      apply Settles.recover h
      · intro found
        exact Covers.step (Settles.bind (settles_separator _) fun _ => Settles.pure _)
      · exact fun fault => recoverStatement_covers fault start _ _

theorem settles_branchWith : Settles 0 (branchWith (statementAt n)) := by
  refine Settles.look fun next => ?_
  split
  · exact Settles.pure _
  · exact h

theorem settles_bodyWith : Settles 0 (bodyWith (statementAt n)) := by
  refine Settles.expect_opening rfl fun _ => ?_
  refine (settles_listWith h).bind fun statements => ?_
  exact Settles.expect_end fun _ => Settles.pure _

theorem settles_ifWith : Settles 0 (ifWith (statementAt n)) := by
  have helse : Settles 0 (elseWith (statementAt n)) := by
    refine Settles.accept (by rintro ⟨⟩) rfl fun found => ?_
    split
    · exact (settles_branchWith h).map
    · exact Settles.pure _
  refine Settles.look fun start => ?_
  refine Settles.expect (by rintro ⟨⟩) rfl fun _ => ?_
  refine settles_expression.bind fun condition => ?_
  refine Settles.expect (by rintro ⟨⟩) rfl fun _ => ?_
  refine (settles_branchWith h).bind fun thenBranch => ?_
  refine helse.bind fun elseBranch => ?_
  exact Settles.look fun span => Settles.pure _

theorem settles_whileWith : Settles 0 (whileWith (statementAt n)) := by
  refine Settles.look fun start => ?_
  refine Settles.expect (by rintro ⟨⟩) rfl fun _ => ?_
  refine settles_expression.bind fun condition => ?_
  refine Settles.expect (by rintro ⟨⟩) rfl fun _ => ?_
  refine (settles_branchWith h).bind fun body => ?_
  exact Settles.look fun span => Settles.pure _

theorem settles_repeatWith : Settles 0 (repeatWith (statementAt n)) := by
  refine Settles.look fun start => ?_
  refine Settles.expect (by rintro ⟨⟩) rfl fun _ => ?_
  refine (settles_listWith h).bind fun body => ?_
  refine Settles.expect (by rintro ⟨⟩) rfl fun _ => ?_
  refine settles_expression.bind fun condition => ?_
  exact Settles.look fun span => Settles.pure _

theorem settles_forWith : Settles 0 (forWith (statementAt n)) := by
  refine Settles.look fun start => ?_
  refine Settles.expect (by rintro ⟨⟩) rfl fun _ => ?_
  refine settles_counter.bind fun counter => ?_
  refine Settles.expect (by rintro ⟨⟩) rfl fun _ => ?_
  refine settles_expression.bind fun first => ?_
  refine settles_direction.bind fun direction => ?_
  refine settles_expression.bind fun last => ?_
  refine Settles.expect (by rintro ⟨⟩) rfl fun _ => ?_
  refine (settles_branchWith h).bind fun body => ?_
  exact Settles.look fun span => Settles.pure _

theorem settles_withWith : Settles 0 (withWith (statementAt n)) := by
  refine Settles.look fun start => ?_
  refine Settles.expect (by rintro ⟨⟩) rfl fun _ => ?_
  refine settles_expression.bind fun record => ?_
  refine Settles.expect (by rintro ⟨⟩) rfl fun _ => ?_
  refine (settles_branchWith h).bind fun body => ?_
  exact Settles.look fun span => Settles.pure _

theorem settles_caseBranchWith : Settles 0 (caseBranchWith (statementAt n)) := by
  refine Settles.look fun start => ?_
  refine settles_values.bind fun values => ?_
  refine Settles.expect (by rintro ⟨⟩) rfl fun _ => ?_
  refine (settles_branchWith h).bind fun branch => ?_
  exact Settles.look fun span => Settles.pure _

theorem settles_caseBranchesWith : Settles 0 (liftM (caseBranchesWith (statementAt n))) := by
  refine Covers.step (Settles.bind (Settles.loop (grammarLoop_progresses (.caseBranches n)) (fun found => ?_) #[])
    fun _ => Settles.pure _)
  refine Covers.step ?_
  apply Covers.peekKind
  intro κ
  split
  · exact (Settles.pure _).weaken fun l hl => hl.1
  · split
    · rename_i hkind
      exact Covers.step (Settles.advance (by rintro ⟨⟩) rfl (fun l hl => ⟨hl.1, hl.2.trans hkind⟩) fun _ =>
        Settles.pure _)
    · refine Settles.weaken (Covers.step (Settles.look fun start => ?_)) fun l hl => hl.1
      apply Settles.recover (settles_caseBranchWith h)
      · intro branch
        exact Covers.step (Settles.bind (settles_separator _) fun _ => Settles.pure _)
      · exact fun fault => recoverStatement_covers fault start _ _

theorem settles_caseWith : Settles 0 (caseWith (statementAt n)) := by
  have hother : Settles 0 (liftM (otherwiseWith (statementAt n))) := by
    refine Covers.step (Settles.accept (by rintro ⟨⟩) rfl fun found => ?_)
    split
    · exact (settles_listWith h).map
    · exact Settles.pure _
  refine Settles.look fun start => ?_
  refine Settles.expect_opening rfl fun _ => ?_
  refine settles_expression.bind fun subject => ?_
  refine Settles.expect (by rintro ⟨⟩) rfl fun _ => ?_
  refine (settles_caseBranchesWith h).bind fun branches => ?_
  refine hother.bind fun otherwise => ?_
  refine Settles.expect_end fun _ => ?_
  exact Settles.look fun span => Settles.pure _

theorem settles_statementWith : Settles 0 (statementWith (statementAt n)) := by
  apply Covers.peek
  intro token
  have hclear : ∀ l, clearMembers l = true ∧ IsNext token l → clearMembers l = true := fun l hl => hl.1
  split
  · refine Settles.weaken (Settles.look fun start => ?_) hclear
    refine (settles_bodyWith h).bind fun statements => ?_
    exact Settles.look fun span => Settles.pure _
  · exact (settles_ifWith h).weaken hclear
  · exact (settles_whileWith h).weaken hclear
  · exact (settles_repeatWith h).weaken hclear
  · exact (settles_forWith h).weaken hclear
  · exact (settles_caseWith h).weaken hclear
  · exact settles_exitStatement.weaken hclear
  · exact (settles_withWith h).weaken hclear
  · rename_i hkind
    exact Settles.advance (by rintro ⟨⟩) rfl (fun l hl => ⟨hl.1, hl.2.1.trans hkind⟩) fun _ => Settles.pure _
  · rename_i hkind
    exact Settles.advance (by rintro ⟨⟩) rfl (fun l hl => ⟨hl.1, hl.2.1.trans hkind⟩) fun _ =>
      Settles.report Forward.refl
  · split
    · exact Covers.throw _
    · exact settles_assignmentOrCall.weaken hclear
  · exact settles_assignmentOrCall.weaken hclear

end

theorem settles_statementAt (n : Nat) : Settles 0 (statementAt n) := by
  induction n with
  | zero => exact Covers.tooDeep
  | succ n ih => exact Covers.nested (settles_statementWith ih)

end Rule

end CalExport
