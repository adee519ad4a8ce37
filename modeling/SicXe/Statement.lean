import SicXe.AddressingFlags
import SicXe.Operand
import SicXe.Operator

/-!
# SicXe.Statement

A statement of a section: what its line says, where it lies, and the object code made of it.
-/

namespace SicXe

/-- What a statement adds to the object records of its section. -/
inductive Contribution where
  /-- A header with the name and the first address of the section. -/
  | header (name : String) (start : Nat)
  /-- Exported symbols with their addresses. -/
  | define (symbols : List (String × Nat))
  /-- Imported symbols. -/
  | refer (symbols : List String)
  /-- Its object code. -/
  | text
  deriving Repr, DecidableEq

/-- A statement of a section. -/
structure Statement where
  /-- The number of its source line, from 1. -/
  line : Nat
  label : Option String := none
  operator : Operator
  operands : List Operand := []
  comment : Option String := none
  /-- The address of its first byte. -/
  address : Nat := 0
  /-- How many bytes it takes. -/
  length : Nat := 0
  /-- Its flags, if it is an instruction of format 3 or 4. -/
  flags : AddressingFlags := {}
  /-- Its object code. -/
  code : List UInt8 := []
  /-- What it adds to the object records, if anything. -/
  contribution : Option Contribution := none
  deriving Repr, DecidableEq

namespace Statement

/-- The address behind a statement. -/
def stop (statement : Statement) : Nat :=
  statement.address + statement.length

/-- The directive a statement is, if it is one. -/
def directive? (statement : Statement) : Option Directive :=
  statement.operator.directive?

/-- The symbols among the operands of a statement. -/
def operandSymbols (statement : Statement) : List String :=
  statement.operands.filterMap Operand.symbol?

/-- How many bytes statements take together. -/
def totalLength : List Statement → Nat
  | [] => 0
  | statement :: rest => statement.length + totalLength rest

end Statement

end SicXe
