import SicXe.Operand
import SicXe.ReadError
import SicXe.Text.Blank
import SicXe.Token.Scan

/-!
# SicXe.Operand.Read

Reading operands: the lexemes of a field are grouped at commas, and each group has to form one
of the known kinds of operand.  The first thing found wrong from left to right is the one
reported.
-/

namespace SicXe

namespace Operand

/-- The operand that a group of tokens forms; `text` is the group as it was written. -/
def ofTokens (tokens : List Token) (text : List Char) : Except ReadError Operand :=
  match tokens with
  | [] => .error .emptyOperand
  | [.name name] => .ok (.symbol name)
  | [.number value] => .ok (.number value)
  | [.minus, .number value] => .ok (.number (-(value : Int)))
  | [.hash, .number value] => .ok (.immediate (.number value))
  | [.hash, .name name] => .ok (.immediate (.symbol name))
  | [.atSign, .number value] => .ok (.indirect (.number value))
  | [.atSign, .name name] => .ok (.indirect (.symbol name))
  | [.equals, .constant value] => .ok (.literal (.bytes value))
  | [.literalWord value] => .ok (.literal (.word value))
  | [.constant value] => .ok (.constant value)
  | [.name minuend, .minus, .name subtrahend] => .ok (.difference minuend subtrahend)
  | [.star] => .ok .here
  | _ => .error (.unexpectedOperand (String.ofList (Text.trim text)))

/-- Read the operands of the remaining lexemes, when `tokens` and `text` of the operand in hand
have been read. -/
def readFrom : (tokens : List Token) → (text : List Char) → List Lexeme →
    Except ReadError (List Operand)
  | tokens, text, [] => (ofTokens tokens text).map fun operand => [operand]
  | tokens, text, lexeme :: rest =>
    match lexeme.reading with
    | .error error => .error (.lexical error)
    | .ok .comma =>
      match ofTokens tokens text with
      | .error error => .error error
      | .ok operand => (readFrom [] [] rest).map (operand :: ·)
    | .ok token => readFrom (tokens ++ [token]) (text ++ lexeme.gap ++ lexeme.text) rest

/-- Read an operand field.  A blank field has no operands. -/
def readAll (field : String) : Except ReadError (List Operand) :=
  if Text.allBlank field.toList then .ok []
  else readFrom [] [] (Lexeme.scan field.toList)

/-- Read a text that is exactly one operand. -/
def read (text : String) : Except ReadError Operand :=
  match readAll text with
  | .error error => .error error
  | .ok [operand] => .ok operand
  | .ok _ => .error (.unexpectedOperand text)

end Operand

namespace Literal

/-- Read a text that is exactly one literal. -/
def read (text : String) : Except ReadError Literal :=
  match Operand.read text with
  | .error error => .error error
  | .ok (.literal value) => .ok value
  | .ok _ => .error (.unexpectedOperand text)

end Literal

end SicXe
