import CalExport.Proofs.DataType.Form
import CalExport.Proofs.Window.Alone
import Mathlib.Data.List.Basic
import Mathlib.Data.Nat.Digits.Defs

namespace CalExport

/-- An integer by its tokens: decimal digits, with a minus in front of them or without. -/
structure SignedNumeral where
  minus : Option Token
  numeral : Token
  digits : List Nat
  kind_minus : ∀ t ∈ minus, t.kind = .minus
  kind_numeral : numeral.kind = .integer
  digits_ne_nil : digits ≠ []
  lt_ten : ∀ d ∈ digits, d < 10
  text_eq : numeral.text = String.ofList (digits.map Nat.digitChar)

namespace SignedNumeral

variable (n : SignedNumeral)

def tokens : List Token := n.minus.toList ++ [n.numeral]

def magnitude : Nat := Nat.ofDigits 10 n.digits.reverse

def value : Int := if n.minus.isSome then -n.magnitude else n.magnitude

/-- What is told of digits that stand for too large a number. -/
def tooLarge : Fault := .invalidInteger n.numeral.description n.numeral.span

def sign (negative : Bool) : Option Token := if negative then some ⟨.minus, "-", .origin⟩ else none

theorem kind_sign (negative : Bool) : ∀ t ∈ sign negative, t.kind = .minus := by
  intro t ht
  cases negative with
  | true =>
      cases ht
      rfl
  | false => cases ht

def ofDigits (negative : Bool) (digits : List Nat) (hne : digits ≠ []) (hten : ∀ d ∈ digits, d < 10) :
    SignedNumeral where
  minus := sign negative
  numeral := ⟨.integer, String.ofList (digits.map Nat.digitChar), .origin⟩
  digits := digits
  kind_minus := kind_sign negative
  kind_numeral := rfl
  digits_ne_nil := hne
  lt_ten := hten
  text_eq := rfl

end SignedNumeral

namespace Rule

variable {s : Parser} {more : List Token}

/-- Digits are read to the number they stand for, leading zeros or not. -/
theorem digitsValue_eq (n : SignedNumeral) : digitsValue n.numeral.text = n.magnitude := by
  rw [digitsValue, n.text_eq, String.toList_ofList, List.foldl_map, SignedNumeral.magnitude, Nat.ofDigits_eq_foldr,
    List.foldr_reverse]
  apply List.foldl_ext
  intro value d hd
  rw [Nat.toNat_digitChar_of_lt_ten (n.lt_ten d hd), Nat.add_sub_cancel_left, Nat.add_comm]
  rfl

theorem natAbs_value (n : SignedNumeral) : n.value.natAbs = n.magnitude := by
  unfold SignedNumeral.value
  split
  · exact Int.natAbs_neg _
  · rfl

/-- What an integer comes to by its tokens. -/
theorem integer_of_tokens (n : SignedNumeral) (hahead : ahead s = n.tokens ++ more) :
    integer s = (.ok (if n.magnitude ≤ maxInteger then n.value else 0),
      tell (if n.magnitude ≤ maxInteger then [] else [n.tooLarge]) (skip n.tokens.length s)) := by
  refine (integer_means s rfl rfl _ _).2 ⟨n.tokens, more, _, hahead, rfl, n.numeral, n.kind_numeral, ?_, ?_⟩
  · rw [excess, digitsValue_eq]
    rfl
  · rw [boundedNumber, digitsValue_eq, SignedNumeral.tokens, SignedNumeral.value]
    rcases hminus : n.minus with _ | sign
    · exact .inl ⟨rfl, by split <;> rfl⟩
    · exact .inr ⟨sign, n.kind_minus sign hminus, rfl, by split <;> rfl⟩

theorem integerValue_fst (t : Token) (s : Parser) : (integerValue t s).1 = boundedNumber maxInteger t := by
  show ((boundedValue maxInteger t s).1 : Int) = _
  unfold boundedValue boundedNumber
  split <;> rfl

/-- The number that is read of a token, whatever its text, has 64 bits and can be negated in them. -/
theorem integerValue_negatable (t : Token) (s : Parser) :
    (BitVec.ofInt 64 (integerValue t s).1).toInt = (integerValue t s).1 ∧
      (BitVec.ofInt 64 (integerValue t s).1).negOverflow = false := by
  have hle := boundedNumber_le maxInteger t
  rw [integerValue_fst]
  generalize boundedNumber maxInteger t = value at *
  simp only [maxInteger] at hle
  have hself : (BitVec.ofInt 64 value).toInt = value :=
    BitVec.toInt_ofInt_eq_self (by decide) (by omega) (by omega)
  refine ⟨hself, ?_⟩
  rw [BitVec.negOverflow, hself, beq_eq_false_iff_ne]
  omega

/-- An integer between the least number of 64 bits and the largest is read as it stands, without a diagnostic, and moves
the parser behind it. Any other one is read as 0, and one diagnostic tells of its digits: the least number of 64 bits
too. What is negated can be negated in 64 bits. -/
theorem integer_exact (n : SignedNumeral) (hahead : ahead s = n.tokens ++ more) :
    (-0x8000000000000000 < n.value ∧ n.value < 0x8000000000000000 →
        integer s = (.ok n.value, skip n.tokens.length s)) ∧
      (¬ (-0x8000000000000000 < n.value ∧ n.value < 0x8000000000000000) →
        integer s = (.ok 0, (report n.tooLarge (skip n.tokens.length s)).2) ∧
          (s.diagnostics.size < maxDiagnostics →
            (integer s).2.diagnostics = s.diagnostics.push (.ofFault n.tooLarge))) ∧
      n.tooLarge.code.text = "E054" ∧ n.tooLarge.span = n.numeral.span ∧
      ∀ u, (BitVec.ofInt 64 (integerValue n.numeral u).1).toInt = (integerValue n.numeral u).1 ∧
        (BitVec.ofInt 64 (integerValue n.numeral u).1).negOverflow = false := by
  have hrange : -0x8000000000000000 < n.value ∧ n.value < 0x8000000000000000 ↔ n.magnitude ≤ maxInteger := by
    have habs := natAbs_value n
    simp only [maxInteger]
    omega
  have hrun := integer_of_tokens n hahead
  refine ⟨?fits, ?beyond, rfl, rfl, integerValue_negatable n.numeral⟩
  case fits =>
    intro h
    rw [hrun, if_pos (hrange.1 h), if_pos (hrange.1 h)]
    rfl
  case beyond =>
    intro h
    rw [hrange] at h
    rw [if_neg h, if_neg h] at hrun
    refine ⟨hrun, fun hroom => ?_⟩
    rw [hrun, diagnostics_tell (by rwa [diagnostics_skip]), diagnostics_skip]
    rfl

/-- `-9223372036854775808`. -/
def leastInteger : SignedNumeral :=
  .ofDigits true [9, 2, 2, 3, 3, 7, 2, 0, 3, 6, 8, 5, 4, 7, 7, 5, 8, 0, 8] (by decide) (by decide)

/-- `-0009223372036854775807`. -/
def leastRead : SignedNumeral :=
  .ofDigits true [0, 0, 0, 9, 2, 2, 3, 3, 7, 2, 0, 3, 6, 8, 5, 4, 7, 7, 5, 8, 0, 7] (by decide) (by decide)

/-- The two integers at the end of the range. -/
theorem integer_exact_least :
    leastRead.value = -9223372036854775807 ∧
      integer (aloneOn {} leastRead.tokens) = (.ok leastRead.value, skip 2 (aloneOn {} leastRead.tokens)) ∧
      integer (aloneOn {} leastInteger.tokens) =
        (.ok 0, (report leastInteger.tooLarge (skip 2 (aloneOn {} leastInteger.tokens))).2) ∧
      (integer (aloneOn {} leastInteger.tokens)).2.diagnostics = #[.ofFault leastInteger.tooLarge] := by
  have hfirst : ahead (aloneOn {} leastRead.tokens) = leastRead.tokens ++ [] := rfl
  have hsecond : ahead (aloneOn {} leastInteger.tokens) = leastInteger.tokens ++ [] := rfl
  obtain ⟨hread, -⟩ := integer_exact leastRead hfirst
  obtain ⟨-, hlost, -⟩ := integer_exact leastInteger hsecond
  obtain ⟨hlost, htold⟩ := hlost (by decide)
  exact ⟨by decide, hread (by decide), hlost, htold (by decide)⟩

/-- The least number of 64 bits is in the range, but 0 is read for it, with a diagnostic. -/
theorem least_integer_lost :
    leastInteger.tokens.map Token.text = ["-", "9223372036854775808"] ∧ leastInteger.value = -0x8000000000000000 ∧
      (integer (aloneOn {} leastInteger.tokens)).1.toOption = some 0 ∧
      (integer (aloneOn {} leastInteger.tokens)).2.diagnostics =
        #[.make .invalidIntegerLiteral "Invalid integer literal '9223372036854775808'" .origin] := by
  decide +kernel

end Rule

end CalExport
