import SicXe.Bytes

/-!
# SicXe.Constant

Byte constants, written `C'…'` for characters and `X'…'` for pairs of hexadecimal digits.
-/

namespace SicXe

/-- A byte constant. -/
inductive Constant where
  /-- Characters, each standing for its UTF-8 bytes. -/
  | chars (body : String)
  /-- Bytes given by their hexadecimal digits. -/
  | hex (bytes : List UInt8)
  deriving Repr, DecidableEq

namespace Constant

/-- The bytes a constant assembles to. -/
def bytes : Constant → List UInt8
  | chars body => Bytes.ofText body
  | hex bytes => bytes

/-- How many bytes a constant takes, without producing them: the bytes of the text, or one for
each pair of digits.  The count has no bound.  A constant of `2 ^ 32` bytes would not fit into a
count of 32 bits, and no source text of fewer bytes holds one. -/
def size : Constant → Nat
  | chars body => body.utf8ByteSize
  | hex bytes => bytes.length

/-- What stands between the quotes; hexadecimal digits are printed as capitals. -/
def body : Constant → String
  | chars body => body
  | hex bytes => Bytes.toHex bytes

/-- A constant as it is written in a source line. -/
def text : Constant → String
  | chars body => "C'" ++ body ++ "'"
  | hex bytes => "X'" ++ Bytes.toHex bytes ++ "'"

/-- A constant assembles to as many bytes as it takes. -/
@[simp] theorem length_bytes (constant : Constant) : constant.bytes.length = constant.size := by
  cases constant with
  | chars body => exact Bytes.length_ofText body
  | hex bytes => rfl

end Constant

end SicXe
