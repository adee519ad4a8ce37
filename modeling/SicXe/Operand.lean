import SicXe.Literal

/-!
# SicXe.Operand

The operands of a statement, classified by how they are written.
-/

namespace SicXe

/-- What an immediate or indirect operand is about. -/
inductive Target where
  /-- A number (`#3`). -/
  | number (value : Nat)
  /-- A symbol (`#MAXLEN`, `@RETADR`). -/
  | symbol (name : String)
  deriving Repr, DecidableEq

/-- A target as it is written. -/
def Target.text : Target → String
  | number value => Text.decimal value
  | symbol name => name

/-- An operand of a statement. -/
inductive Operand where
  /-- A symbol or a register (`RETADR`, `X`). -/
  | symbol (name : String)
  /-- A number, which may be negative (`4096`, `-1`). -/
  | number (value : Int)
  /-- An immediate operand (`#3`). -/
  | immediate (target : Target)
  /-- An indirect operand (`@RETADR`). -/
  | indirect (target : Target)
  /-- A literal (`=C'EOF'`). -/
  | literal (value : Literal)
  /-- A byte constant (`X'F1'`). -/
  | constant (value : Constant)
  /-- The difference of two symbols (`BUFEND-BUFFER`). -/
  | difference (minuend subtrahend : String)
  /-- The address of the statement itself (`*`). -/
  | here
  deriving Repr, DecidableEq

namespace Operand

/-- An operand as it is printed. -/
def text : Operand → String
  | symbol name => name
  | number value => Text.signedDecimal value
  | immediate target => "#" ++ target.text
  | indirect target => "@" ++ target.text
  | literal value => value.text
  | constant value => value.text
  | difference minuend subtrahend => minuend ++ "-" ++ subtrahend
  | here => "*"

/-- The symbol an operand is about, whichever way it is addressed. -/
def symbol? : Operand → Option String
  | symbol name => some name
  | immediate (.symbol name) => some name
  | indirect (.symbol name) => some name
  | _ => none

/-- The name an operand is looked up by in the symbol and literal tables. -/
def lookupName? : Operand → Option String
  | literal value => some value.text
  | operand => operand.symbol?

/-- The value of an operand that is a number, whichever way it is addressed. -/
def number? : Operand → Option Int
  | number value => some value
  | immediate (.number value) => some value
  | indirect (.number value) => some value
  | _ => none

/-- Whether an operand is the index register. -/
def isIndexRegister : Operand → Bool
  | symbol name => name == "X"
  | _ => false

/-- Operands printed one after another with commas between them. -/
def joinTexts (operands : List Operand) : String :=
  ",".intercalate (operands.map text)

end Operand

end SicXe
