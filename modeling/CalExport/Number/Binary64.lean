namespace CalExport

structure Binary64 where
  bits : UInt64
deriving DecidableEq, Repr, Inhabited

/-- `num / den` to the nearest natural number; a half goes to the even neighbour. -/
def roundDiv (num den : Nat) : Nat :=
  let q := num / den
  let r := num % den
  if den < 2 * r ∨ (2 * r = den ∧ q % 2 = 1) then q + 1 else q

namespace Binary64

def infinity : Binary64 := ⟨0x7ff0000000000000⟩

def leadingBit : Nat := 0x10000000000000

def isFinite (x : Binary64) : Bool := (x.bits >>> 52) &&& 0x7ff != 0x7ff

def scaled (num den : Nat) (exponent : Int) : Nat × Nat :=
  if exponent < 0 then (num <<< (-exponent).toNat, den) else (num, den <<< exponent.toNat)

/-- The number nearest to `num / den`. The unit in the last place is chosen so that the rounded significand has 53
bits, or is the smallest unit there is. -/
def ofRatio (num den : Nat) : Binary64 :=
  if num = 0 ∨ den = 0 then ⟨0⟩
  else
    let guess : Int := (num.log2 : Int) - den.log2 - 52
    let (n, d) := scaled num den guess
    let unit := max (-1074) (if n / d < leadingBit then guess - 1 else guess)
    let (n, d) := scaled num den unit
    let pattern := (unit + 1074).toNat * leadingBit + roundDiv n d
    if pattern < 0x7ff0000000000000 then ⟨pattern.toUInt64⟩ else infinity

def ofDecimal (digits places : Nat) : Binary64 := ofRatio digits (Nat.pow 10 places)

def decompose (x : Binary64) : Nat × Int :=
  let fraction : Nat := x.bits.toNat % leadingBit
  let field : Nat := x.bits.toNat / leadingBit % 2048
  if field = 0 then (fraction, -1074) else (fraction + leadingBit, (field : Int) - 1075)

def toRatio (x : Binary64) : Nat × Nat :=
  let (m, e) := x.decompose
  if e < 0 then (m, 1 <<< (-e).toNat) else (m <<< e.toNat, 1)

def mul (x y : Binary64) : Binary64 :=
  let (a, b) := x.toRatio
  let (c, d) := y.toRatio
  ofRatio (a * c) (b * d)

end Binary64

end CalExport
