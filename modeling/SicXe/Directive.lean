/-!
# SicXe.Directive

The operators that instruct the assembler rather than the machine.
-/

namespace SicXe

/-- An assembler directive. -/
inductive Directive where
  /-- Opens the first control section. -/
  | start
  /-- Opens a further control section. -/
  | csect
  /-- Ends the program and places the pending literals. -/
  | endProgram
  /-- Exports symbols. -/
  | extdef
  /-- Imports symbols. -/
  | extref
  /-- A byte constant. -/
  | byte
  /-- A word. -/
  | word
  /-- Reserves bytes. -/
  | resb
  /-- Reserves words. -/
  | resw
  /-- Gives a symbol a value. -/
  | equ
  /-- Places the pending literals. -/
  | ltorg
  /-- Announces the value of the base register. -/
  | base
  /-- Withdraws what was announced of the base register. -/
  | nobase
  deriving Repr, DecidableEq

namespace Directive

/-- The name of a directive, which is written in capitals. -/
def name : Directive → String
  | start => "START"
  | csect => "CSECT"
  | endProgram => "END"
  | extdef => "EXTDEF"
  | extref => "EXTREF"
  | byte => "BYTE"
  | word => "WORD"
  | resb => "RESB"
  | resw => "RESW"
  | equ => "EQU"
  | ltorg => "LTORG"
  | base => "BASE"
  | nobase => "NOBASE"

/-- Every directive. -/
def all : List Directive :=
  [start, csect, endProgram, extdef, extref, byte, word, resb, resw, equ, ltorg, base, nobase]

/-- The directive of a name. -/
def ofName? (text : String) : Option Directive :=
  all.find? fun directive => directive.name == text

/-- A directive is found under its name. -/
theorem ofName?_name (directive : Directive) : ofName? directive.name = some directive := by
  cases directive <;> decide

/-- Whether a directive opens a control section. -/
def opensSection : Directive → Bool
  | start | csect => true
  | _ => false

/-- Whether a directive places the pending literals. -/
def placesLiterals : Directive → Bool
  | ltorg | endProgram => true
  | _ => false

/-- Whether the operand of a directive has to be a number or a constant. -/
def takesValue : Directive → Bool
  | byte | word | resb | resw => true
  | _ => false

end Directive

end SicXe
