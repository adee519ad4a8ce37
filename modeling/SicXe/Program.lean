import SicXe.Layout
import SicXe.ObjectCode
import SicXe.StableSort

/-!
# SicXe.Program

Assembling a whole source text.

The text is cut into control sections at the lines that open one; each section is laid out and
encoded by itself, so the sections can be worked on in any order.  The program starts where the
operand of `END` says, which is looked up in the first section.
-/

namespace SicXe

/-- An assembled program. -/
structure Program where
  sections : List Section
  /-- What there is to say about the source, in the order of its lines. -/
  diagnostics : List Diagnostic
  /-- The address where the program starts. -/
  entry : Nat
  deriving Repr, DecidableEq

namespace Program

/-- Whether a program has an error. -/
def hasErrors (program : Program) : Bool :=
  program.diagnostics.any Diagnostic.isError

/-! ## sections -/

/-- The lines of a source text, numbered from 1. -/
def numberedLines (source : String) : List (Nat × String) :=
  ((Text.lines source).zipIdx 1).map fun (line, number) => (number, line)

/-- Whether a line opens a control section. -/
def opensSection (line : String) : Bool :=
  match LineFields.read line with
  | .ok (some fields) => (Directive.ofName? fields.operator).any Directive.opensSection
  | _ => false

/-- Cut numbered lines into those before the first section and those of each section. -/
def cutSections (lines : List (Nat × String)) :
    List (Nat × String) × List (List (Nat × String)) :=
  lines.foldr
    (fun line rest =>
      if opensSection line.2 then ([], (line :: rest.1) :: rest.2)
      else (line :: rest.1, rest.2))
    ([], [])

/-- A diagnostic for each line that stands before the first section and is not empty. -/
def outsideSections (lines : List (Nat × String)) : List Diagnostic :=
  lines.filterMap fun line =>
    match LineFields.read line.2 with
    | .ok none => none
    | _ => some ⟨line.1, .outsideSection⟩

/-- Lay out and encode one section. -/
def assembleSection (registry : Registry) (lines : List (Nat × String)) : Section × Journal :=
  let laidOut := Section.layOut registry lines
  let generated := laidOut.1.generate registry
  (generated.1, laidOut.2 ++ generated.2)

/-! ## the entry address -/

/-- The first `END` statement of some sections. -/
def endStatement? (sections : List Section) : Option Statement :=
  (sections.flatMap Section.statements).find? fun statement =>
    statement.directive? = some .endProgram

/-- The address where a program starts.  Without a usable operand of `END` it is 0. -/
def findEntry (sections : List Section) : Except Diagnostic Nat :=
  match sections.head?, endStatement? sections with
  | some first, some statement =>
    match statement.operands.head? with
    | some (.symbol name) =>
      match first.symbols.lookup name with
      | some address => .ok address
      | none => .error ⟨statement.line, .unresolvedReference name⟩
    | some (.number value) =>
      if 0 ≤ value ∧ value < memorySize then .ok value.toNat
      else .error ⟨statement.line, .valueOutOfRange (Text.signedDecimal value)⟩
    | _ => .ok 0
  | _, _ => .ok 0

/-! ## the program -/

/-- Diagnostics in the order of their lines; those of one line stay as they came. -/
def sortDiagnostics (diagnostics : List Diagnostic) : List Diagnostic :=
  stableSort (fun first second => first.line ≤ second.line) diagnostics

/-- Put a program together from the diagnostics of the lines outside sections and the results
for each section. -/
def ofResults (outside : List Diagnostic) (results : List (Section × Journal)) : Program :=
  let sections := results.map Prod.fst
  let diagnostics := outside ++ results.flatMap fun result => result.2.diagnostics
  match findEntry sections with
  | .ok entry => ⟨sections, sortDiagnostics diagnostics, entry⟩
  | .error diagnostic => ⟨sections, sortDiagnostics (diagnostics ++ [diagnostic]), 0⟩

/-- The results for each section of a source text, and the diagnostics of the lines outside. -/
def sectionResults (registry : Registry) (source : String) :
    List Diagnostic × List (Section × Journal) :=
  let cut := cutSections (numberedLines source)
  (outsideSections cut.1, cut.2.map (assembleSection registry))

/-- Assemble a source text. -/
def assemble (registry : Registry) (source : String) : Program :=
  let results := sectionResults registry source
  ofResults results.1 results.2

/-- What happens while a source text is assembled, section after section. -/
def events (registry : Registry) (source : String) : List Event :=
  (sectionResults registry source).2.flatMap fun result => result.2.events

/-! ## sections at the same time -/

/-- Results that workers hand in with the number of their section, in the order of the
sections, whatever order they arrive in. -/
def inSectionOrder (arrivals : List (Nat × α)) : List α :=
  (stableSort (fun first second => first.1 ≤ second.1) arrivals).map Prod.snd

/-- The numbered result of every section worker, in the order of the sections. -/
def workerResults (registry : Registry) (sections : List (List (Nat × String))) :
    List (Nat × Section × Journal) :=
  let tasks := sections.zipIdx.map fun (lines, number) =>
    Task.spawn fun _ => (number, assembleSection registry lines)
  tasks.map Task.get

/-- Assemble a source text with a worker for each section. -/
def assembleParallel (registry : Registry) (source : String) : Program :=
  let cut := cutSections (numberedLines source)
  ofResults (outsideSections cut.1) (inSectionOrder (workerResults registry cut.2))

end Program

end SicXe
