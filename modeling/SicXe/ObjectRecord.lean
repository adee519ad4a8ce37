import SicXe.Section
import SicXe.Text.Numeral

/-!
# SicXe.ObjectRecord

The records of an object file, one a line: a letter, then fields of fixed width.  Names are
filled up to six characters and numbers to their width; neither is ever cut.
-/

namespace SicXe

/-- A record of an object file. -/
inductive ObjectRecord where
  /-- The name and the length of a section. -/
  | header (name : String) (length : Nat)
  /-- Exported symbols with their addresses. -/
  | define (symbols : List (String × Nat))
  /-- Imported symbols. -/
  | refer (symbols : List String)
  /-- Object code from an address on. -/
  | text (start : Nat) (code : List UInt8)
  /-- A field that the linker has to adjust. -/
  | modification (relocation : Relocation)
  /-- The end of a section, with the address where the program starts in the first one. -/
  | endSection (entry : Option Nat)
  deriving Repr, DecidableEq

namespace ObjectRecord

/-- A name in its field. -/
def nameField (name : String) : String :=
  Text.padRight 6 name

/-- An address or a length in its field. -/
def addressField (address : Nat) : String :=
  Text.hexPadded 6 address

/-- A count in its field. -/
def countField (count : Nat) : String :=
  Text.hexPadded 2 count

/-- A record as a line of the object file. -/
def line : ObjectRecord → String
  | header name length => "H" ++ nameField name ++ addressField length
  | define symbols =>
    "D" ++ String.join (symbols.map fun symbol => nameField symbol.1 ++ addressField symbol.2)
  | refer symbols => "R" ++ String.join (symbols.map nameField)
  | text start code =>
    "T" ++ addressField start ++ countField code.length ++ Bytes.toHex code
  | modification relocation =>
    "M" ++ addressField relocation.address ++ countField relocation.halfBytes ++
      relocation.sign.text ++ relocation.symbol
  | endSection (some entry) => "E" ++ addressField entry
  | endSection none => "E"

end ObjectRecord

end SicXe
