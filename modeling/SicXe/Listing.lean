import SicXe.ObjectRecord.Packing
import SicXe.Operand.Read
import SicXe.Program

/-!
# SicXe.Listing

The three texts an assembled program is written to: its object records, its symbols and its
literals.
-/

namespace SicXe

namespace Program

/-- Lines of text, each ended by a line feed. -/
def unlines (lines : List String) : String :=
  String.join (lines.map (· ++ "\n"))

/-- The records of each section; the entry address goes with the first one. -/
def objectRecords (program : Program) : List (List ObjectRecord) :=
  program.sections.zipIdx.map fun (sect, index) =>
    ObjectRecord.ofSection sect (if index = 0 then some program.entry else none)

/-- The object file: a record a line, and an empty line after each section. -/
def objectText (program : Program) : String :=
  String.join (program.objectRecords.map fun records =>
    unlines (records.map ObjectRecord.line) ++ "\n")

/-- A name and an address as a line of a listing. -/
def listingLine (name : String) (address : Nat) : String :=
  name ++ "\t" ++ Text.hex address

/-- The symbols of each section with their addresses, and an empty line after each section. -/
def symbolListing (program : Program) : String :=
  String.join (program.sections.map fun sect =>
    unlines (sect.symbols.located.map fun entry => listingLine entry.1 entry.2) ++ "\n")

/-- A literal without its marks; a name that cannot be read as a literal is listed whole. -/
def literalBody (name : String) : String :=
  match Literal.read name with
  | .ok value => value.body
  | .error _ => name

/-- The placed literals of all sections with their addresses. -/
def literalListing (program : Program) : String :=
  unlines ((program.sections.flatMap fun sect => sect.literals.located).map fun entry =>
    listingLine (literalBody entry.1) entry.2)

end Program

end SicXe
