import SicXe.Constant

/-!
# SicXe.Literal

Literals: operands written with `=` whose value is placed in the literal pool, and which an
instruction refers to by address.
-/

namespace SicXe

/-- A literal operand. -/
inductive Literal where
  /-- The bytes of a constant (`=C'EOF'`, `=X'05'`). -/
  | bytes (constant : Constant)
  /-- One word, written in hexadecimal (`=3`, `=1F`). -/
  | word (value : Nat)
  deriving Repr, DecidableEq

namespace Literal

/-- The bytes of a literal in the literal pool. -/
def contents : Literal → List UInt8
  | bytes constant => constant.bytes
  | word value => Bytes.ofWord value

/-- How many bytes of the literal pool a literal takes: those of its constant, or three for a
word.  As for constants, the count has no bound. -/
def size : Literal → Nat
  | bytes constant => constant.size
  | word _ => 3

/-- A literal without its `=`, its type letter and its quotes. -/
def body : Literal → String
  | bytes constant => constant.body
  | word value => Text.hex value

/-- A literal as it is printed; this text is also its name in the literal table. -/
def text : Literal → String
  | bytes constant => "=" ++ constant.text
  | word value => "=" ++ Text.hex value

/-- A literal fills the room that it takes. -/
@[simp] theorem length_contents (literal : Literal) : literal.contents.length = literal.size := by
  cases literal with
  | bytes constant => exact constant.length_bytes
  | word value => rfl

end Literal

end SicXe
