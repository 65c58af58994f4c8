import CalExport.Number.Binary64

namespace CalExport.Binary64

structure Decimal where
  digits : Nat
  exponent : Int
deriving DecidableEq, Repr

def stepsToReach (num den : Nat) : Nat → Nat
  | 0 => 0
  | steps + 1 => if den ≤ num then 0 else stepsToReach (num * 10) den steps + 1

def leadingPower (num den : Nat) : Int :=
  if den ≤ num then ((Nat.toDigits 10 (num / den)).length : Int) - 1 else -(stepsToReach num den 400 : Int)

def gridPoint (digits : Nat) (power : Int) : Nat × Nat :=
  if power < 0 then (digits, Nat.pow 10 (-power).toNat) else (digits * Nat.pow 10 power.toNat, 1)

/-- Whether the numbers between the halves to both neighbours of `m * 2 ^ e` include a fraction. The ends count when
`m` is even; below a power of two the gap is half as wide. -/
def readsBack (m : Nat) (e : Int) (point : Nat × Nat) : Bool :=
  let low := if m = leadingBit ∧ -1074 < e then 4 * m - 1 else 4 * m - 2
  let high := 4 * m + 2
  let quarter := e - 2
  let (num, den) := point
  let left := if quarter < 0 then num <<< (-quarter).toNat else num
  let unit := if quarter < 0 then den else den <<< quarter.toNat
  if m % 2 = 0 then low * unit ≤ left && left ≤ high * unit
  else low * unit < left && left < high * unit

def searchGrid (m : Nat) (e : Int) (num den : Nat) (power : Int) : Nat → Decimal
  | 0 => ⟨0, 0⟩
  | finer + 1 =>
    let (gridNum, gridDen) := gridPoint 1 power
    let below := num * gridDen / (den * gridNum)
    let hitBelow := readsBack m e (gridPoint below power)
    let hitAbove := readsBack m e (gridPoint (below + 1) power)
    if hitBelow && hitAbove then ⟨roundDiv (num * gridDen) (den * gridNum), power⟩
    else if hitBelow then ⟨below, power⟩
    else if hitAbove then ⟨below + 1, power⟩
    else searchGrid m e num den (power - 1) finer

/-- The decimal with the fewest digits that reads back, nearest to the value among those. -/
def shortest (x : Binary64) : Decimal :=
  let (m, e) := x.decompose
  let (num, den) := x.toRatio
  if m = 0 then ⟨0, 0⟩ else searchGrid m e num den (leadingPower num den) 17

def dropZeros (digits : List Char) : List Char := (digits.reverse.dropWhile (· == '0')).reverse

def signedPower (power : Int) : List Char := (if power < 0 then '-' else '+') :: Nat.toDigits 10 power.natAbs

/-- Positional from a hundred-thousandth up to sixteen digits before the point, with an exponent otherwise; whole
numbers keep one zero behind the point. -/
def display (x : Binary64) : String :=
  let d := x.shortest
  if d.digits = 0 then "0.0"
  else
    let all := Nat.toDigits 10 d.digits
    let digits := dropZeros all
    let point : Int := (all.length : Int) + d.exponent
    let count : Int := digits.length
    let text :=
      if count ≤ point ∧ point ≤ 16 then digits ++ List.replicate (point - count).toNat '0' ++ ['.', '0']
      else if 0 < point ∧ point ≤ 16 then digits.take point.toNat ++ ['.'] ++ digits.drop point.toNat
      else if -5 < point ∧ point ≤ 0 then ['0', '.'] ++ List.replicate (-point).toNat '0' ++ digits
      else
        let power := signedPower (point - 1)
        match digits with
        | [only] => only :: 'e' :: power
        | first :: rest => first :: '.' :: rest ++ 'e' :: power
        | [] => []
    String.ofList text

def fixedRatio (num den places : Nat) : String :=
  let units := Nat.toDigits 10 (roundDiv (num * Nat.pow 10 places) den)
  let padded := List.replicate (places + 1 - units.length) '0' ++ units
  let whole := padded.length - places
  if places = 0 then String.ofList padded
  else String.ofList (padded.take whole ++ ['.'] ++ padded.drop whole)

def fixed (x : Binary64) (places : Nat) : String :=
  let (num, den) := x.toRatio
  fixedRatio num den places

end CalExport.Binary64
