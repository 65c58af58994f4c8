import CalExport.Token.Lexeme
import CalExport.Text.Basic
import CalExport.Text.Position

namespace CalExport.Text

def capitals : List Char := "ABCDEFGHIJKLMNOPQRSTUVWXYZ".toList

/-- What can be tested is tested on every capital. -/
theorem forall_capitals {p : Char → Prop} [DecidablePred p] (h : capitals.all (fun c => decide (p c)) = true) :
    ∀ c ∈ capitals, p c := fun c hc => of_decide_eq_true (List.all_eq_true.1 h c hc)

theorem isAlpha_of_mem_capitals : ∀ c ∈ capitals, c.isAlpha = true ∧ c.toLower.isAlpha = true :=
  forall_capitals (by decide)

theorem toLower_eq_or_mem (c : Char) : c.toLower = c ∨ c ∈ capitals := by
  by_cases h : 'A'.val ≤ c.val ∧ c.val ≤ 'Z'.val
  · right
    have hcodes : ∀ n < 128, 65 ≤ n → n ≤ 90 → Char.ofNat n ∈ capitals := by decide +kernel
    have hlow : 65 ≤ c.toNat := h.1
    have hhigh : c.toNat ≤ 90 := h.2
    have hmem := hcodes c.toNat (by omega) hlow hhigh
    rwa [Char.ofNat_toNat] at hmem
  · left
    exact dif_neg h

/-- Something holds of a character and its small letter when it holds of a character and itself, and of capitals. -/
theorem toLower_induction {p : Char → Char → Prop} (same : ∀ c, p c c) (capital : ∀ c ∈ capitals, p c c.toLower)
    (c : Char) : p c c.toLower := by
  rcases toLower_eq_or_mem c with h | h
  · rw [h]
    exact same c
  · exact capital c h

theorem isBlank_toLower (c : Char) : isBlank c.toLower = isBlank c :=
  toLower_induction (p := fun c d => isBlank d = isBlank c) (fun _ => rfl) (forall_capitals (by decide)) c

theorem isControl_toLower (c : Char) : isControl c.toLower = isControl c :=
  toLower_induction (p := fun c d => isControl d = isControl c) (fun _ => rfl) (forall_capitals (by decide)) c

theorem isDigit_toLower (c : Char) : c.toLower.isDigit = c.isDigit :=
  toLower_induction (p := fun c d => d.isDigit = c.isDigit) (fun _ => rfl) (forall_capitals (by decide)) c

theorem isWordChar_toLower (c : Char) : isWordChar c.toLower = isWordChar c :=
  toLower_induction (p := fun c d => isWordChar d = isWordChar c) (fun _ => rfl) (forall_capitals (by decide)) c

theorem isWordStart_toLower (c : Char) : isWordStart c.toLower = isWordStart c :=
  toLower_induction (p := fun c d => isWordStart d = isWordStart c) (fun _ => rfl) (forall_capitals (by decide)) c

theorem toUpper_toLower (c : Char) : c.toLower.toUpper = c.toUpper :=
  toLower_induction (p := fun c d => d.toUpper = c.toUpper) (fun _ => rfl) (forall_capitals (by decide)) c

theorem utf8Size_toLower (c : Char) : c.toLower.utf8Size = c.utf8Size :=
  toLower_induction (p := fun c d => d.utf8Size = c.utf8Size) (fun _ => rfl) (forall_capitals (by decide)) c

/-- A character that is no letter comes from itself only. -/
theorem toLower_eq_iff {x : Char} (hx : x.isAlpha = false) (c : Char) : c.toLower = x ↔ c = x := by
  refine toLower_induction (p := fun c d => d = x ↔ c = x) (fun _ => Iff.rfl) ?_ c
  intro c hc
  obtain ⟨hc, hlower⟩ := isAlpha_of_mem_capitals c hc
  refine ⟨?_, ?_⟩
  · rintro rfl
    rw [hlower] at hx
    cases hx
  · rintro rfl
    rw [hc] at hx
    cases hx

theorem toLower_of_not_isWordStart {c : Char} (h : isWordStart c = false) : c.toLower = c := by
  rcases toLower_eq_or_mem c with hself | hmem
  · exact hself
  · have hletters : ∀ c ∈ capitals, isWordStart c = true := forall_capitals (by decide)
    rw [hletters c hmem] at h
    cases h

def lowered (cs : List Char) : List Char := cs.map Char.toLower

@[simp] theorem lowered_nil : lowered [] = [] := rfl

@[simp] theorem lowered_cons (c : Char) (cs : List Char) : lowered (c :: cs) = c.toLower :: lowered cs := rfl

@[simp] theorem length_lowered (cs : List Char) : (lowered cs).length = cs.length := List.length_map _

theorem lowered_append (cs ds : List Char) : lowered (cs ++ ds) = lowered cs ++ lowered ds := List.map_append

theorem take_lowered (n : Nat) (cs : List Char) : (lowered cs).take n = lowered (cs.take n) := List.map_take.symm

theorem drop_lowered (n : Nat) (cs : List Char) : (lowered cs).drop n = lowered (cs.drop n) := List.map_drop.symm

theorem tail_lowered (cs : List Char) : (lowered cs).tail = lowered cs.tail := List.map_tail.symm

theorem dropLast_lowered (cs : List Char) : (lowered cs).dropLast = lowered cs.dropLast := List.map_dropLast.symm

theorem reverse_lowered (cs : List Char) : (lowered cs).reverse = lowered cs.reverse := List.map_reverse.symm

theorem isEmpty_lowered (cs : List Char) : (lowered cs).isEmpty = cs.isEmpty := List.isEmpty_map

theorem toList_lowerAscii (text : String) : (lowerAscii text).toList = lowered text.toList := by
  simp [lowerAscii, lowered]

theorem lowerAscii_ofList (cs : List Char) : lowerAscii (String.ofList cs) = String.ofList (lowered cs) := by
  rw [← String.toList_inj, toList_lowerAscii, String.toList_ofList, String.toList_ofList]

theorem lowerAscii_empty : lowerAscii "" = "" := lowerAscii_ofList []

theorem head?_lowered {x : Char} (hx : x.isAlpha = false) (cs : List Char) :
    (lowered cs).head? = some x ↔ cs.head? = some x := by
  cases cs with
  | nil => exact Iff.rfl
  | cons c cs => simp [toLower_eq_iff hx]

theorem eq_cons_of_lowered {x : Char} (hx : x.isAlpha = false) {cs tail : List Char} (h : lowered cs = x :: tail) :
    ∃ more, cs = x :: more := by
  cases cs with
  | nil => cases h
  | cons c cs =>
      obtain ⟨hc, -⟩ := List.cons.inj h
      exact ⟨cs, by rw [(toLower_eq_iff hx c).1 hc]⟩

theorem getLast?_lowered {x : Char} (hx : x.isAlpha = false) (cs : List Char) :
    (lowered cs).getLast? = some x ↔ cs.getLast? = some x := by
  rw [← List.head?_reverse, ← List.head?_reverse, reverse_lowered, head?_lowered hx]

section

variable {p : Char → Bool} (hp : ∀ c, p c.toLower = p c)

include hp

theorem takeWhile_lowered (cs : List Char) : (lowered cs).takeWhile p = lowered (cs.takeWhile p) := by
  have hcomp : p ∘ Char.toLower = p := funext hp
  rw [lowered, List.takeWhile_map, hcomp, lowered]

theorem dropWhile_lowered (cs : List Char) : (lowered cs).dropWhile p = lowered (cs.dropWhile p) := by
  have hcomp : p ∘ Char.toLower = p := funext hp
  rw [lowered, List.dropWhile_map, hcomp, lowered]

end

theorem trim_lowered (cs : List Char) : trim (lowered cs) = lowered (trim cs) := by
  simp only [trim, trimLeft, trimRight, dropWhile_lowered isBlank_toLower, reverse_lowered]

theorem bne_lowered {x : Char} (hx : x.isAlpha = false) (c : Char) : (c.toLower != x) = (c != x) := by
  rw [Bool.eq_iff_iff, bne_iff_ne, bne_iff_ne, Ne, toLower_eq_iff hx]

theorem beq_lowered {x : Char} (hx : x.isAlpha = false) (c : Char) : (c.toLower == x) = (c == x) := by
  rw [Bool.eq_iff_iff, beq_iff_eq, beq_iff_eq, toLower_eq_iff hx]

theorem lowered_of_isDigit {cs : List Char} (h : ∀ c ∈ cs, c.isDigit = true) : lowered cs = cs := by
  have hself : ∀ c ∈ cs, c.toLower = id c := by
    intro c hc
    rcases toLower_eq_or_mem c with hself | hmem
    · exact hself
    · have hletters : ∀ c ∈ capitals, c.isDigit = false := forall_capitals (by decide)
      exact absurd ((hletters c hmem).symm.trans (h c hc)) Bool.false_ne_true
  rw [lowered, List.map_congr_left hself, List.map_id]

theorem utf8ByteSize_lowerAscii (text : String) : (lowerAscii text).utf8ByteSize = text.utf8ByteSize := by
  have hsize : ∀ cs : List Char, (String.ofList (lowered cs)).utf8ByteSize = (String.ofList cs).utf8ByteSize := by
    intro cs
    induction cs with
    | nil => rfl
    | cons c cs ih =>
        rw [lowered_cons, String.ofList_cons, String.ofList_cons, String.utf8ByteSize_append, String.utf8ByteSize_append,
          String.utf8ByteSize_singleton, String.utf8ByteSize_singleton, utf8Size_toLower, ih]
  have htext := hsize text.toList
  rwa [← lowerAscii_ofList, String.ofList_toList] at htext

theorem Position.after_lowered (q : Position) (cs : List Char) : q.after (lowered cs) = q.after cs := by
  induction cs generalizing q with
  | nil => rfl
  | cons c cs ih =>
      have hadvance : q.advance c.toLower = q.advance c := by
        simp only [advance, toLower_eq_iff (x := '\n') (by decide), utf8Size_toLower]
      rw [lowered_cons, after_cons, after_cons, hadvance, ih]

end CalExport.Text
