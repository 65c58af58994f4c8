import CalExport.Proofs.Termination

namespace CalExport.Rule

variable {α : Type}

/-- A loop that begins a round with `a` in `s` comes to begin one with `b` in `t`. -/
inductive Visits (round : α → Parse (ForInStep α)) : α → Parser → α → Parser → Prop
  | refl (a s) : Visits round a s a s
  | next {a b c s t u} : round a s = (.yield b, t) → Visits round b t c u → Visits round a s c u

namespace Visits

variable {round : α → Parse (ForInStep α)} {a b c : α} {s t u : Parser}

theorem trans (h : Visits round a s b t) (g : Visits round b t c u) : Visits round a s c u := by
  induction h with
  | refl => exact g
  | next hround _ ih => exact .next hround (ih g)

theorem loop_eq (h : Visits round a s b t) (hround : Unrolls round) : loop a round s = loop b round t := by
  induction h with
  | refl => rfl
  | next hyield _ ih =>
      rw [hround, hyield]
      exact ih

theorem forward (h : Visits round a s b t) (hround : ∀ a, Steady (round a)) : Forward s t := by
  induction h with
  | refl => exact Forward.refl _
  | @next a b c s t u hyield _ ih =>
      have hfirst := hround a s
      rw [hyield] at hfirst
      exact hfirst.trans ih

end Visits

/-- A loop ends with a round that is done, and with what that round leaves. -/
theorem Progresses.loop_ends {round : α → Parse (ForInStep α)} (h : Progresses round) (a : α) (s : Parser) :
    ∃ b t, Visits round a s b t ∧ round b t = (.done (loop a round s).1, (loop a round s).2) := by
  -- The rounds go on with fewer tokens left each time.
  induction hleft : s.left using Nat.strongRecOn generalizing a s with
  | ind n ih =>
      have hunroll := h.unrolls a s
      rcases hr : round a s with ⟨b | b, t⟩
      · rw [hr] at hunroll
        exact ⟨a, s, .refl a s, by rw [hr, hunroll]⟩
      · rw [hr] at hunroll
        have hless := left_lt_of_position (h a s b t hr)
        obtain ⟨c, u, hvisits, hdone⟩ := ih t.left (hleft ▸ hless) b t rfl
        exact ⟨c, u, .next hr hvisits, by rw [hdone, hunroll]⟩

def Appends (round : Array α → Parse (ForInStep (Array α))) : Prop :=
  ∀ found s, round found s = (match (round #[] s).1 with
    | .yield more => .yield (found ++ more)
    | .done more => .done (found ++ more), (round #[] s).2)

namespace Appends

variable {round : Array α → Parse (ForInStep (Array α))}

theorem yield (h : Appends round) {more : Array α} {s t : Parser} (hr : round #[] s = (.yield more, t))
    (found : Array α) : round found s = (.yield (found ++ more), t) := by
  rw [h, hr]

theorem done (h : Appends round) {more : Array α} {s t : Parser} (hr : round #[] s = (.done more, t))
    (found : Array α) : round found s = (.done (found ++ more), t) := by
  rw [h, hr]

theorem loop_eq (h : Appends round) (hround : Progresses round) (found : Array α) (s : Parser) :
    loop found round s = (found ++ (loop #[] round s).1, (loop #[] round s).2) := by
  -- The rounds go on with fewer tokens left each time.
  induction hleft : s.left using Nat.strongRecOn generalizing found s with
  | ind n ih =>
      rw [hround.unrolls found s, hround.unrolls #[] s]
      rcases hr : round #[] s with ⟨more | more, t⟩
      · rw [h.done hr]
      · have hless := left_lt_of_position (hround _ s _ t hr)
        rw [h.yield hr]
        show loop (found ++ more) round t = (found ++ (loop more round t).1, (loop more round t).2)
        rw [ih t.left (hleft ▸ hless) (found ++ more) t rfl, ih t.left (hleft ▸ hless) more t rfl, Array.append_assoc]

end Appends

end CalExport.Rule
