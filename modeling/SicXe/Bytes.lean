import SicXe.Text.Numeral

/-!
# SicXe.Bytes

Object code is a list of bytes, most significant byte first.  This module holds the bytes of
texts and words and their hexadecimal form.
-/

namespace SicXe.Bytes

/-- The bytes of a text in UTF-8. -/
def ofText (text : String) : List UInt8 :=
  text.toList.flatMap String.utf8EncodeChar

/-- The low 24 bits of a number as one three-byte word. -/
def ofWord (n : Nat) : List UInt8 :=
  [UInt8.ofNat (n / 65536), UInt8.ofNat (n / 256), UInt8.ofNat n]

/-- The two upper-case hexadecimal digits of a byte. -/
def hexPair (byte : UInt8) : List Char :=
  (Text.hexPadded 2 byte.toNat).toList

/-- The upper-case hexadecimal digits of a byte string, two for each byte. -/
def toHex (bytes : List UInt8) : String :=
  String.ofList (bytes.flatMap hexPair)

/-- Read bytes from pairs of hexadecimal digits of either case; a half pair or any other
character is refused. -/
def ofHexDigits? : List Char → Option (List UInt8)
  | [] => some []
  | [_] => none
  | high :: low :: rest => do
    let h ← Text.digitValue? 16 high
    let l ← Text.digitValue? 16 low
    let bytes ← ofHexDigits? rest
    return UInt8.ofNat (16 * h + l) :: bytes

/-- The bytes of a text are as many as its size in UTF-8 says. -/
@[simp] theorem length_ofText (text : String) : (ofText text).length = text.utf8ByteSize := by
  rw [String.utf8ByteSize, ← String.utf8Encode_toList, List.utf8Encode, List.size_toByteArray,
    ofText]

/-- A word has three bytes. -/
@[simp] theorem length_ofWord (n : Nat) : (ofWord n).length = 3 := rfl

end SicXe.Bytes
