import SicXe.Instruction
import SicXe.StableSort

/-!
# SicXe.Registry

The instructions an assembler knows, by mnemonic.  A registry is read from a text with one
instruction a line; of two lines with one mnemonic the later one counts.
-/

namespace SicXe

/-- Instructions by mnemonic, each mnemonic once. -/
structure Registry where
  /-- The instructions, the one added last in front. -/
  instructions : List Instruction
  deriving Repr, DecidableEq

/-- A line of a registry that describes no instruction. -/
structure RegistryError where
  /-- The number of the line, from 1 and with blank lines counted. -/
  line : Nat
  /-- What is wrong with the line. -/
  reason : DescriptionError
  deriving Repr, DecidableEq

/-- The text of an error. -/
def RegistryError.message (error : RegistryError) : String :=
  "malformed instruction specification on line " ++ Text.decimal error.line ++ ": " ++
    error.reason.message

/-- How a malformed registry can be mended. -/
def RegistryError.help (_ : RegistryError) : String :=
  "each line should be `mnemonic<TAB>opcodeHex<TAB>format<TAB>operandCount`"

namespace Registry

/-- The registry of no instruction. -/
def empty : Registry := ⟨[]⟩

instance : EmptyCollection Registry := ⟨empty⟩

/-- The instruction of a mnemonic. -/
def get? (registry : Registry) (mnemonic : String) : Option Instruction :=
  registry.instructions.find? fun instruction => instruction.mnemonic == mnemonic

/-- Add an instruction in place of the one that has its mnemonic, if there is one. -/
def insert (registry : Registry) (instruction : Instruction) : Registry :=
  ⟨instruction ::
    registry.instructions.filter fun other => other.mnemonic != instruction.mnemonic⟩

/-- How many mnemonics a registry has. -/
def size (registry : Registry) : Nat :=
  registry.instructions.length

/-- The instructions of a registry in the order of their mnemonics. -/
def sorted (registry : Registry) : List Instruction :=
  stableSort (fun first second => decide (first.mnemonic ≤ second.mnemonic))
    registry.instructions

/-- How many bytes an operator takes, when a plus sign in front asks for one byte more. -/
def sizeOf? (registry : Registry) (operator : String) : Option Nat :=
  match operator.toList with
  | '+' :: mnemonic => (registry.get? (String.ofList mnemonic)).map (·.format.size + 1)
  | _ => (registry.get? operator).map (·.format.size)

/-- Read the remaining lines of a registry, the first of which has the given number. -/
def readFrom : (registry : Registry) → (number : Nat) → List String →
    Except RegistryError Registry
  | registry, _, [] => .ok registry
  | registry, number, line :: rest =>
    if Text.allBlank line.toList then readFrom registry (number + 1) rest
    else match Instruction.read line with
      | .error reason => .error ⟨number, reason⟩
      | .ok instruction => readFrom (registry.insert instruction) (number + 1) rest

/-- Read a registry.  Blank lines are passed over, and the first bad line is reported. -/
def read (text : String) : Except RegistryError Registry :=
  readFrom empty 1 (Text.lines text)

end Registry

end SicXe
