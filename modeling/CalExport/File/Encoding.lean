namespace CalExport

inductive Encoding where
  | utf8
  | utf8Marked
  | latin1
deriving DecidableEq, Repr

namespace Encoding

def name : Encoding → String
  | .utf8 => "utf-8"
  | .utf8Marked => "utf-8-bom"
  | .latin1 => "latin-1"

def mark : List UInt8 := [0xef, 0xbb, 0xbf]

def charOfByte (b : UInt8) : Char := Char.ofNat b.toNat

def textOfLatin1 (bytes : ByteArray) : String := bytes.foldl (fun text b => text.push (charOfByte b)) ""

def validFrom (bytes : ByteArray) (start : Nat) : Nat :=
  if _h : start < bytes.size then
    match bytes.utf8DecodeChar? start with
    | some c => validFrom bytes (start + c.utf8Size)
    | none => start
  else start
termination_by bytes.size - start
decreasing_by
  have := c.utf8Size_pos
  omega

def firstInvalid (bytes : ByteArray) : Nat := validFrom bytes 0

def afterMark? (bytes : ByteArray) : Option ByteArray :=
  if (bytes.extract 0 3).toList = mark then some (bytes.extract 3 bytes.size) else none

def decodeUtf8? (bytes : ByteArray) : Option (String × Encoding) :=
  match (afterMark? bytes).bind String.fromUTF8? with
  | some text => some (text, .utf8Marked)
  | none => (String.fromUTF8? bytes).map fun text => (text, .utf8)

/-- The text of any bytes when single bytes are allowed for, of UTF-8 otherwise. -/
def decode? (lossy : Bool) (bytes : ByteArray) : Option (String × Encoding) :=
  match decodeUtf8? bytes with
  | some result => some result
  | none => if lossy then some (textOfLatin1 bytes, .latin1) else none

end Encoding

end CalExport
