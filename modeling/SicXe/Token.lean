import SicXe.Constant

/-!
# SicXe.Token

The tokens of an operand field and the ways a piece of it can fail to be one.
-/

namespace SicXe

/-- The number of values of a machine word, which has 24 bits. -/
def wordSize : Nat := 0x1000000

/-- A token of an operand field. -/
inductive Token where
  /-- A decimal number that fits in a word. -/
  | number (value : Nat)
  /-- A symbol or register name. -/
  | name (text : String)
  /-- A byte constant. -/
  | constant (value : Constant)
  /-- A word literal, sign and all (`=1F`). -/
  | literalWord (value : Nat)
  /-- The mark of an immediate operand. -/
  | hash
  /-- The mark of an indirect operand. -/
  | atSign
  /-- The mark of a literal made from a constant. -/
  | equals
  /-- The address of the statement itself. -/
  | star
  /-- The sign of a negative number or of a difference. -/
  | minus
  /-- The divider of two operands. -/
  | comma
  deriving Repr, DecidableEq

/-- Why a piece of an operand field is no token. -/
inductive LexicalError where
  /-- A number has characters other than decimal digits. -/
  | invalidNumber
  /-- A number does not fit in a word. -/
  | exceedsWord
  /-- A constant has no closing quote. -/
  | unclosedConstant
  /-- A constant has nothing between its quotes. -/
  | emptyConstant
  /-- A hexadecimal constant or literal has other characters than hexadecimal digits. -/
  | invalidHex
  /-- A hexadecimal constant has half a byte too many. -/
  | oddHexDigits
  /-- A character starts no token. -/
  | invalidSymbol
  deriving Repr, DecidableEq

namespace LexicalError

/-- Whether the error is about a number or a constant rather than a stray character. -/
def isNumeric : LexicalError → Bool
  | invalidSymbol => false
  | _ => true

/-- The text of an error. -/
def message : LexicalError → String
  | invalidNumber => "invalid decimal literal"
  | exceedsWord => "numeric token does not fit in a 24-bit word"
  | unclosedConstant => "unclosed byte constant"
  | emptyConstant => "empty byte constant"
  | invalidHex => "invalid hex constant"
  | oddHexDigits => "hex constant has an odd number of digits"
  | invalidSymbol => "unrecognized symbol"

/-- How an error can be mended. -/
def help : LexicalError → String
  | invalidNumber => "a decimal literal only consists of digits 0-9"
  | exceedsWord => "the range for a word is [0, " ++ Text.decimal (wordSize - 1) ++ "]"
  | unclosedConstant => "add a ' to the end of the constant"
  | emptyConstant => "a byte constant must hold at least one byte"
  | invalidHex => "a hex constant consists of 0-9, A-F"
  | oddHexDigits => "each byte takes two hex digits, try adding a leading 0"
  | invalidSymbol => "this char does not occur in any token in SIC/XE operands"

end LexicalError

end SicXe
