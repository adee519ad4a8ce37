/-!
# SicXe.AddressingFlags

The six flags of an instruction of format 3 or 4.
-/

namespace SicXe

/-- How an instruction finds its operand.  Simple addressing sets both `n` and `i`. -/
structure AddressingFlags where
  /-- Indirect. -/
  n : Bool := false
  /-- Immediate. -/
  i : Bool := false
  /-- Indexed. -/
  x : Bool := false
  /-- Relative to the base register. -/
  b : Bool := false
  /-- Relative to the program counter. -/
  p : Bool := false
  /-- Extended format. -/
  e : Bool := false
  deriving Repr, DecidableEq, Inhabited

namespace AddressingFlags

/-- The two flags that share the first byte with the opcode, as a number. -/
def mode (flags : AddressingFlags) : Nat :=
  2 * flags.n.toNat + flags.i.toNat

/-- The four flags in the high half of the second byte, as a number. -/
def relation (flags : AddressingFlags) : Nat :=
  8 * flags.x.toNat + 4 * flags.b.toNat + 2 * flags.p.toNat + flags.e.toNat

/-- All six flags as a number, `n` in the highest bit. -/
def bits (flags : AddressingFlags) : Nat :=
  16 * flags.mode + flags.relation

/-- All six flags as binary digits, `n` first. -/
def text (flags : AddressingFlags) : String :=
  String.ofList
    ([flags.n, flags.i, flags.x, flags.b, flags.p, flags.e].map fun flag =>
      if flag then '1' else '0')

end AddressingFlags

end SicXe
