import SicXe.Token

/-!
# SicXe.ReadError

Why a source line, or an operand of it, cannot be read.
-/

namespace SicXe

/-- Why a line or an operand cannot be read. -/
inductive ReadError where
  /-- A piece of the operand field is no token. -/
  | lexical (error : LexicalError)
  /-- The line has no operator. -/
  | missingOperator
  /-- Nothing stands between two commas, or beside one. -/
  | emptyOperand
  /-- The tokens of an operand form none of the known kinds of operand. -/
  | unexpectedOperand (text : String)
  deriving Repr, DecidableEq

namespace ReadError

/-- Whether the error is about a malformed number or constant. -/
def isNumeric : ReadError → Bool
  | lexical error => error.isNumeric
  | _ => false

/-- The text of an error. -/
def message : ReadError → String
  | lexical error => error.message
  | missingOperator => "line has no operator"
  | emptyOperand => "empty operand"
  | unexpectedOperand text => "cannot parse operand `" ++ text ++ "`"

/-- How an error can be mended. -/
def help : ReadError → String
  | lexical error => error.help
  | missingOperator => "fields must be separated by tabs: label, operator, operands, comment"
  | emptyOperand => "remove the extra comma"
  | unexpectedOperand _ =>
    "operands are symbols, numbers, #imm, @ind, =literals, C'..'/X'..' constants, A-B, or *"

/-- The text of the lexical error behind an error, if there is one. -/
def cause? : ReadError → Option String
  | lexical error => some error.message
  | _ => none

end ReadError

end SicXe
