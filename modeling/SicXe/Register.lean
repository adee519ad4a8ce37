/-!
# SicXe.Register

The registers an instruction can name, with the numbers that stand for them in object code.
-/

namespace SicXe

/-- A register of the machine. -/
inductive Register where
  | a | x | l | b | s | t | f | pc | sw
  deriving Repr, DecidableEq

namespace Register

/-- The number of a register in a format 2 instruction.  There is no register 7. -/
def number : Register → Nat
  | a => 0
  | x => 1
  | l => 2
  | b => 3
  | s => 4
  | t => 5
  | f => 6
  | pc => 8
  | sw => 9

/-- The name of a register. -/
def name : Register → String
  | a => "A"
  | x => "X"
  | l => "L"
  | b => "B"
  | s => "S"
  | t => "T"
  | f => "F"
  | pc => "PC"
  | sw => "SW"

/-- Every register, by number. -/
def all : List Register := [a, x, l, b, s, t, f, pc, sw]

/-- The register of a name, which is written in capitals. -/
def ofName? (text : String) : Option Register :=
  all.find? fun register => register.name == text

/-- A register is found under its name. -/
theorem ofName?_name (register : Register) : ofName? register.name = some register := by
  cases register <;> decide

end Register

end SicXe
