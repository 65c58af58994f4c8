import CalExport.Number.Decimal

namespace CalExport

def maxFileSize : Nat := 52428800

def largeFileThreshold : Nat := 5242880

def isLargeFile (size : Nat) : Bool := largeFileThreshold < size

def isTooLarge (size : Nat) : Bool := maxFileSize < size

namespace Binary64

/-- How often a number can be divided by 1024 before it falls below that, `limit` times at most; its exact value is
`num / den`. -/
def thousands (num den : Nat) : Nat → Nat
  | 0 => 0
  | limit + 1 => if 1024 * den ≤ num then thousands num (1024 * den) limit + 1 else 0

end Binary64

/-- Bytes in full, larger units with two places. Division by 1024 is exact in the binary format, so only the size
itself is rounded to it. -/
def humanSize (bytes : Nat) : String :=
  let (num, den) := (Binary64.ofRatio bytes 1).toRatio
  let steps := Binary64.thousands num den 3
  let unit := (["B", "KB", "MB", "GB"].drop steps).headD "GB"
  if steps = 0 then s!"{bytes} {unit}" else Binary64.fixedRatio num (den * Nat.pow 1024 steps) 2 ++ " " ++ unit

end CalExport
