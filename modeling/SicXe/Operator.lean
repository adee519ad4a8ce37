import SicXe.Directive
import SicXe.Registry

/-!
# SicXe.Operator

The operator of a statement.  Directives take precedence over instructions of the same name,
and a plus sign asks for the extended form, which only format 3 instructions have.
-/

namespace SicXe

/-- The operator of a statement. -/
inductive Operator where
  /-- A machine instruction, in its plain or in its extended form. -/
  | instruction (mnemonic : String) (extended : Bool)
  /-- A directive. -/
  | directive (kind : Directive)
  /-- Neither a directive nor a known instruction. -/
  | unknown (text : String)
  deriving Repr, DecidableEq

namespace Operator

/-- An operator as it is written. -/
def text : Operator → String
  | instruction mnemonic true => "+" ++ mnemonic
  | instruction mnemonic false => mnemonic
  | directive kind => kind.name
  | unknown text => text

/-- The directive an operator is, if it is one. -/
def directive? : Operator → Option Directive
  | directive kind => some kind
  | _ => none

/-- Whether an operator opens a control section. -/
def opensSection (operator : Operator) : Bool :=
  operator.directive?.any Directive.opensSection

/-- Whether the operand of an operator has to be a number or a constant. -/
def takesValue (operator : Operator) : Bool :=
  operator.directive?.any Directive.takesValue

/-- The instruction that a mnemonic stands for in its plain or extended form; `text` is the
operator as it was written. -/
def ofMnemonic (registry : Registry) (text mnemonic : String) (extended : Bool) : Operator :=
  match registry.get? mnemonic with
  | some found =>
    if !extended || found.format = .three then instruction mnemonic extended else unknown text
  | none => unknown text

/-- Classify an operator field. -/
def read (registry : Registry) (text : String) : Operator :=
  match Directive.ofName? text with
  | some kind => directive kind
  | none =>
    match text.toList with
    | '+' :: mnemonic => ofMnemonic registry text (String.ofList mnemonic) true
    | _ => ofMnemonic registry text text false

end Operator

end SicXe
