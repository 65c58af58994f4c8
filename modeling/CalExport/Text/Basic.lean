namespace CalExport.Text

/-- White space: the `White_Space` property. -/
def isBlank (c : Char) : Bool :=
  let n := c.toNat
  n == 0x20 || (9 ≤ n && n ≤ 13) || n == 0x85 || n == 0xa0 || n == 0x1680 || (0x2000 ≤ n && n ≤ 0x200a)
    || n == 0x2028 || n == 0x2029 || n == 0x202f || n == 0x205f || n == 0x3000

/-- Control characters: the C0 and C1 sets and DEL. -/
def isControl (c : Char) : Bool :=
  c.toNat < 32 || (127 ≤ c.toNat && c.toNat < 160)

def trimLeft (cs : List Char) : List Char := cs.dropWhile isBlank

def trimRight (cs : List Char) : List Char := (cs.reverse.dropWhile isBlank).reverse

def trim (cs : List Char) : List Char := trimRight (trimLeft cs)

def trimmed (s : String) : String := String.ofList (trim s.toList)

def upperAscii (s : String) : String := s.map Char.toUpper

def lowerAscii (s : String) : String := s.map Char.toLower

def sameIgnoringCase (a b : String) : Bool := lowerAscii a == lowerAscii b

theorem sameIgnoringCase_iff {a b : String} : sameIgnoringCase a b = true ↔ lowerAscii a = lowerAscii b := by
  simp [sameIgnoringCase]

/-- The parts between separators; there is one more of them than of separators. -/
def parts (separator : Char) : List Char → List (List Char)
  | [] => [[]]
  | c :: cs =>
    if c = separator then [] :: parts separator cs
    else
      match parts separator cs with
      | part :: rest => (c :: part) :: rest
      | [] => [[c]]

theorem parts_ne_nil (separator : Char) (cs : List Char) : parts separator cs ≠ [] := by
  cases cs with
  | nil => simp [parts]
  | cons c cs =>
    unfold parts
    split
    · simp
    · split <;> simp

def lineCount (s : String) : Nat :=
  let (feeds, behind) := s.foldl (fun (feeds, _) c => if c = '\n' then (feeds + 1, false) else (feeds, true))
    ((0 : Nat), false)
  if behind then feeds + 1 else feeds

def inRanges (table : Array (Nat × Nat)) (code : Nat) : Bool :=
  table.any fun range => range.1 ≤ code && code ≤ range.2

def codePoint (c : Char) : String :=
  let digits := (Nat.toDigits 16 c.toNat).map Char.toUpper
  "U+" ++ String.ofList (List.replicate (4 - digits.length) '0' ++ digits)

end CalExport.Text
