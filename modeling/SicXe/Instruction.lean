import SicXe.Text.Blank
import SicXe.Text.Numeral
import SicXe.Text.Split

/-!
# SicXe.Instruction

Machine instructions and the line of text that describes one: mnemonic, opcode in hexadecimal,
format and number of operands, divided by tabs.
-/

namespace SicXe

/-- The format of an instruction, which is also its length.  Format 4 is not listed: it is
format 3 written with a plus sign. -/
inductive Format where
  | one | two | three
  deriving Repr, DecidableEq

/-- How many bytes an instruction of a format takes. -/
def Format.size : Format → Nat
  | one => 1
  | two => 2
  | three => 3

/-- The format of a number. -/
def Format.ofNumber? : Nat → Option Format
  | 1 => some one
  | 2 => some two
  | 3 => some three
  | _ => none

/-- A machine instruction. -/
structure Instruction where
  /-- Its name. -/
  mnemonic : String
  /-- Its opcode; in format 3 the two lowest bits are shared with the flags `n` and `i`. -/
  opcode : UInt8
  /-- Its format. -/
  format : Format
  /-- How many operands it takes. -/
  operandCount : Nat
  deriving Repr, DecidableEq

/-- Why a line does not describe an instruction. -/
inductive DescriptionError where
  /-- The line ends before the named field. -/
  | missing (field : String)
  /-- The opcode is not a byte in hexadecimal. -/
  | badOpcode (text : String)
  /-- The format is not 1, 2 or 3. -/
  | badFormat (text : String)
  /-- The number of operands is not a number of 64 bits. -/
  | badOperandCount (text : String)
  deriving Repr, DecidableEq

/-- The text of an error. -/
def DescriptionError.message : DescriptionError → String
  | missing field => "missing " ++ field
  | badOpcode text => "invalid opcode `" ++ text ++ "`"
  | badFormat text => "invalid format `" ++ text ++ "`"
  | badOperandCount text => "invalid operand count `" ++ text ++ "`"

namespace Instruction

/-- The fields of a line: what stands between tabs, trimmed, without the empty ones. -/
def fields (line : List Char) : List (List Char) :=
  ((Text.pieces '\t' line).map Text.trim).filter (· ≠ [])

/-- Read the numbers of an instruction whose mnemonic is known. -/
def ofFields (mnemonic opcode format operandCount : List Char) :
    Except DescriptionError Instruction :=
  match Text.readUnsigned 16 0x100 opcode with
  | .error _ => .error (.badOpcode (String.ofList opcode))
  | .ok code =>
    match (Text.readUnsigned 10 0x100 format).toOption.bind Format.ofNumber? with
    | none => .error (.badFormat (String.ofList format))
    | some form =>
      match Text.readUnsigned 10 0x10000000000000000 operandCount with
      | .error _ => .error (.badOperandCount (String.ofList operandCount))
      | .ok count => .ok ⟨String.ofList mnemonic, UInt8.ofNat code, form, count⟩

/-- Read the description of an instruction.  Fields after the fourth are passed over, and a
missing field is reported before a bad one. -/
def read (line : String) : Except DescriptionError Instruction :=
  match fields line.toList with
  | [] => .error (.missing "mnemonic")
  | [_] => .error (.missing "opcode")
  | [_, _] => .error (.missing "format")
  | [_, _, _] => .error (.missing "operand count")
  | mnemonic :: opcode :: format :: operandCount :: _ =>
    ofFields mnemonic opcode format operandCount

end Instruction

end SicXe
