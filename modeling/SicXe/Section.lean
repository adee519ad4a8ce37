import SicXe.AddressTable
import SicXe.Statement

/-!
# SicXe.Section

A control section: a part of a program with its own addresses from 0, its own symbols and its
own literal pool.  What it needs from other sections is left to the linker by relocations.
-/

namespace SicXe

/-- Whether a relocation adds or subtracts. -/
inductive Sign where
  | plus | minus
  deriving Repr, DecidableEq

/-- The sign as it is written. -/
def Sign.text : Sign → String
  | plus => "+"
  | minus => "-"

/-- A field that the linker has to adjust by the address of a symbol. -/
structure Relocation where
  /-- The address of the first byte that holds some of the field. -/
  address : Nat
  /-- The length of the field in half bytes. -/
  halfBytes : Nat
  sign : Sign
  symbol : String
  deriving Repr, DecidableEq

/-- A control section. -/
structure Section where
  /-- The label of the statement that opened it. -/
  name : String := ""
  symbols : AddressTable := ∅
  /-- The literal pool; a literal goes by its text. -/
  literals : AddressTable := ∅
  /-- The imported symbols. -/
  externals : List String := []
  statements : List Statement := []
  relocations : List Relocation := []
  /-- How many bytes the statements take, known once there is object code. -/
  length : Nat := 0
  deriving Repr, DecidableEq, Inhabited

namespace Section

/-- The address of a name, which is a symbol or else a literal. -/
def lookup (sect : Section) (name : String) : Option Nat :=
  (sect.symbols.lookup name).or (sect.literals.lookup name)

/-- Whether a name is imported and not also defined here. -/
def isExternal (sect : Section) (name : String) : Bool :=
  sect.externals.contains name && !sect.symbols.contains name

end Section

end SicXe
