import SicXe.ReadError

/-!
# SicXe.Diagnostic

What an assembler has to say about a source line.  An error means that a statement was left
out or has no object code; a warning means that it was encoded as well as could be.
-/

namespace SicXe

/-- How serious a diagnostic is. -/
inductive Severity where
  | warning | error
  deriving Repr, DecidableEq

/-- A severity as it is written. -/
def Severity.text : Severity → String
  | warning => "warning"
  | error => "error"

/-- How many bytes of memory the machine has. -/
def memorySize : Nat := 0x100000

/-- What can be wrong with a line. -/
inductive Fault where
  /-- It stands before the first control section. -/
  | outsideSection
  /-- It cannot be read. -/
  | malformedLine (error : ReadError)
  /-- Its operator is neither a directive nor a known instruction. -/
  | unknownOperator (text : String)
  /-- Its label is defined before. -/
  | duplicateSymbol (name : String)
  /-- It uses a name that is neither a symbol nor a literal of the section. -/
  | unresolvedReference (name : String)
  /-- Its operand is not a value that the directive takes. -/
  | invalidValue (text : String)
  /-- It uses an imported symbol in a three-byte instruction. -/
  | externalInShortForm (name : String)
  /-- Its target is too far away for a displacement of 12 bits. -/
  | displacementOutOfRange (text : String)
  /-- It has more or fewer operands than the instruction takes. -/
  | operandCount (expected found : Nat)
  /-- It uses a literal that no later directive places. -/
  | unplacedLiteral (text : String)
  /-- It does not fit into memory. -/
  | addressOverflow
  /-- It holds a value that does not fit in its field. -/
  | valueOutOfRange (text : String)
  deriving Repr, DecidableEq

namespace Fault

/-- How serious a fault is. -/
def severity : Fault → Severity
  | outsideSection | malformedLine _ | duplicateSymbol _ | invalidValue _ | unplacedLiteral _
  | addressOverflow => .error
  | unknownOperator _ | unresolvedReference _ | externalInShortForm _
  | displacementOutOfRange _ | operandCount _ _ | valueOutOfRange _ => .warning

/-- The text of a fault. -/
def message : Fault → String
  | outsideSection => "statement is outside of any control section"
  | malformedLine error => "malformed line: " ++ error.message
  | unknownOperator text => "unknown operator `" ++ text ++ "`"
  | duplicateSymbol name => "symbol `" ++ name ++ "` was defined multiple times"
  | unresolvedReference name => "cannot resolve `" ++ name ++ "`"
  | invalidValue text => "invalid value `" ++ text ++ "`"
  | externalInShortForm name => "external symbol `" ++ name ++ "` used in a 3-byte instruction"
  | displacementOutOfRange text => "`" ++ text ++ "` is out of range of a 12-bit displacement"
  | operandCount expected found =>
    "expected " ++ Text.decimal expected ++ " operand(s), found " ++ Text.decimal found
  | unplacedLiteral text => "literal `" ++ text ++ "` was never placed"
  | addressOverflow => "statement extends past address 0x" ++ Text.hex (memorySize - 1)
  | valueOutOfRange text => "`" ++ text ++ "` does not fit in its field"

/-- How a fault can be mended, if there is a hint. -/
def help? : Fault → Option String
  | outsideSection => some "try adding a START directive before this statement"
  | malformedLine error => some error.help
  | unknownOperator _ =>
    some ("check the instruction specification for this mnemonic; " ++
      "the statement was treated as a no-op")
  | duplicateSymbol _ =>
    some "labels must be unique within a section, the first definition was kept"
  | unresolvedReference _ =>
    some "try defining this symbol before it is used, or declaring it with EXTREF"
  | invalidValue _ => some "this directive requires a number or a C'..'/X'..' constant"
  | externalInShortForm _ =>
    some "external symbols need the extended format, try adding a + prefix"
  | displacementOutOfRange _ => some "try declaring a BASE, or using the extended format"
  | operandCount _ _ => none
  | unplacedLiteral _ => some "try adding an LTORG or END directive after this statement"
  | addressOverflow => some "a program must fit in 1 MiB of memory, the statement was skipped"
  | valueOutOfRange _ => some "the value was truncated to fit"

/-- The text of the error behind a fault, if there is one. -/
def cause? : Fault → Option String
  | malformedLine error => some error.message
  | _ => none

end Fault

/-- A fault with the line it was found on. -/
structure Diagnostic where
  line : Nat
  fault : Fault
  deriving Repr, DecidableEq

/-- How serious a diagnostic is. -/
def Diagnostic.severity (diagnostic : Diagnostic) : Severity :=
  diagnostic.fault.severity

/-- Whether a diagnostic is an error. -/
def Diagnostic.isError (diagnostic : Diagnostic) : Bool :=
  diagnostic.severity = .error

end SicXe
