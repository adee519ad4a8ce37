import SicXe.Journal
import SicXe.LineFields
import SicXe.Operand.Read
import SicXe.Section

/-!
# SicXe.Layout

Laying a section out: its lines are read one after another, each statement gets its address and
its length, labels go to the symbol table and literals to the literal pool.

A line that cannot be used is reported and takes no room.  The location counter moves on by the
length of each statement that is kept, so kept statements lie one behind another; only a
statement that opens a section moves it back to 0.
-/

namespace SicXe

/-- A section in the making. -/
structure Layout extends Section where
  /-- The location counter: the address of the next statement. -/
  counter : Nat := 0
  /-- The line on which each literal was first used. -/
  firstUses : List (String × Nat) := []
  deriving Repr, DecidableEq, Inhabited

namespace Layout

/-! ## from a line to a statement -/

/-- What is wrong with a line whose operand field cannot be read. -/
def operandFault (operator : Operator) (field : String) (error : ReadError) : Fault :=
  if error.isNumeric && operator.takesValue then .invalidValue field else .malformedLine error

/-- The statement of the fields of a line, which has no place yet. -/
def draftFields (registry : Registry) (line : Nat) (fields : LineFields) :
    Except Fault Statement :=
  let operator := Operator.read registry fields.operator
  match fields.operands with
  | none => .ok { line, label := fields.label, operator, comment := fields.comment }
  | some field =>
    match Operand.readAll field with
    | .error error => .error (operandFault operator field error)
    | .ok operands =>
      .ok { line, label := fields.label, operator, operands, comment := fields.comment }

/-- The statement of a line, which has no place yet; blank lines and comments have none. -/
def draft (registry : Registry) (line : Nat) (text : String) : Except Fault (Option Statement) :=
  match LineFields.read text with
  | .error error => .error (.malformedLine error)
  | .ok none => .ok none
  | .ok (some fields) => (draftFields registry line fields).map some

/-- How many bytes a statement takes, a literal pool apart: that is known only where it is
placed.  A directive that takes a value insists on one it can use. -/
def lengthOf (registry : Registry) (statement : Statement) : Except Fault Nat :=
  let invalid : Except Fault Nat :=
    .error (.invalidValue (Operand.joinTexts statement.operands))
  match statement.operator with
  | .instruction mnemonic extended =>
    .ok (((registry.get? mnemonic).map (·.format.size)).getD 0 + extended.toNat)
  | .directive .resw =>
    match statement.operands with
    | [.number (.ofNat count)] => .ok (3 * count)
    | _ => invalid
  | .directive .resb =>
    match statement.operands with
    | [.number (.ofNat count)] => .ok count
    | _ => invalid
  | .directive .word =>
    match statement.operands with
    | [.number _] | [.symbol _] | [.difference _ _] => .ok 3
    | _ => invalid
  | .directive .byte =>
    match statement.operands with
    | [.constant value] => .ok value.size
    | _ => invalid
  | .directive _ | .unknown _ => .ok 0

/-! ## the tables -/

/-- Whether `length` bytes from an address on lie within memory. -/
def fits (address length : Nat) : Bool :=
  address + length ≤ memorySize

/-- Start the section anew if the statement opens one. -/
def openSection (layout : Layout) (statement : Statement) : Layout :=
  if statement.operator.opensSection then
    { layout with name := statement.label.getD "", counter := 0 }
  else layout

/-- The event of a statement that opens a section. -/
def openingEvents (statement : Statement) : List Event :=
  if statement.operator.opensSection then [.openedSection (statement.label.getD "")] else []

/-- Report an operator that is not known. -/
def operatorFaults (statement : Statement) : List Fault :=
  match statement.operator with
  | .unknown text => [.unknownOperator text]
  | _ => []

/-- Whether the label of a statement is there and not defined yet. -/
def labelIsNew (layout : Layout) (statement : Statement) : Bool :=
  statement.label.any fun label => !layout.symbols.contains label

/-- Define the label of a statement at its address.  The first definition of a symbol is
kept. -/
def defineLabel (layout : Layout) (statement : Statement) : Layout :=
  match statement.label with
  | none => layout
  | some label =>
    match layout.symbols.insert label statement.address with
    | .ok symbols => { layout with symbols }
    | .error _ => layout

/-- Report a label that is defined already. -/
def labelFaults (layout : Layout) (statement : Statement) : List Fault :=
  match statement.label with
  | none => []
  | some label => if layout.symbols.contains label then [.duplicateSymbol label] else []

/-- The first literal among operands. -/
def firstLiteral? (operands : List Operand) : Option Literal :=
  operands.findSome? fun
    | .literal value => some value
    | _ => none

/-- Take the first literal of a statement into the literal pool if it is new there. -/
def noteLiteral (layout : Layout) (statement : Statement) : Layout :=
  match firstLiteral? statement.operands with
  | none => layout
  | some value =>
    match layout.literals.declare value.text with
    | .ok literals =>
      { layout with literals, firstUses := layout.firstUses ++ [(value.text, statement.line)] }
    | .error _ => layout

/-! ## directives -/

/-- The address of a symbol that a statement uses. -/
def symbolAddress (symbols : AddressTable) (name : String) : Except Fault Nat :=
  match symbols.lookup name with
  | some address => .ok address
  | none => .error (.unresolvedReference name)

/-- The value that the operands of `EQU` give a label; `none` leaves it at its address. -/
def equatedValue (symbols : AddressTable) (operands : List Operand) :
    Except Fault (Option Nat) :=
  match operands with
  | [.here] => .ok none
  | [.number value] => .ok (some (value % wordSize).toNat)
  | [.symbol name] => (symbolAddress symbols name).map some
  | [.difference minuend subtrahend] =>
    match symbolAddress symbols minuend, symbolAddress symbols subtrahend with
    | .error fault, _ => .error fault
    | _, .error fault => .error fault
    | .ok upper, .ok lower => .ok (some (((upper : Int) - (lower : Int)) % wordSize).toNat)
  | operands => .error (.malformedLine (.unexpectedOperand (Operand.joinTexts operands)))

/-- Give a label that is already defined the value that operands of `EQU` say. -/
def equate (layout : Layout) (label : String) (operands : List Operand) : Layout :=
  match equatedValue layout.symbols operands with
  | .ok (some value) =>
    match layout.symbols.assign label value with
    | .ok symbols => { layout with symbols }
    | .error _ => layout
  | _ => layout

/-- Report operands of `EQU` that give no value. -/
def equateFaults (layout : Layout) (operands : List Operand) : List Fault :=
  match equatedValue layout.symbols operands with
  | .error fault => [fault]
  | .ok _ => []

/-- How many bytes the literal of a name takes in the pool; a name that cannot be read as a
literal takes none. -/
def literalSize (name : String) : Nat :=
  match Literal.read name with
  | .ok value => value.size
  | .error _ => 0

/-- What a directive does to the tables; `labeled` tells whether the statement defined its
label. -/
def obeyDirective (layout : Layout) (statement : Statement) (labeled : Bool) : Layout :=
  match statement.directive? with
  | some .extref => { layout with externals := layout.externals ++ statement.operandSymbols }
  | some .equ =>
    match labeled, statement.label with
    | true, some label => layout.equate label statement.operands
    | _, _ => layout
  | some directive =>
    if directive.placesLiterals then
      { layout with
        literals := (layout.literals.placePending literalSize statement.address).1 }
    else layout
  | none => layout

/-- Report what a directive cannot do. -/
def directiveFaults (layout : Layout) (statement : Statement) (labeled : Bool) : List Fault :=
  if statement.directive? = some .equ ∧ labeled = true then
    layout.equateFaults statement.operands
  else []

/-- The length of a statement once the literals it places are known. -/
def finalLength (layout : Layout) (statement : Statement) : Nat :=
  if statement.directive?.any Directive.placesLiterals then
    (layout.literals.placePending literalSize statement.address).2
  else statement.length

/-- The event of a statement that places literals. -/
def placementEvents (statement : Statement) (length : Nat) : List Event :=
  if statement.directive?.any Directive.placesLiterals ∧ length > 0 then
    [.placedLiterals statement.address length]
  else []

/-! ## lines -/

/-- Enter a statement that has its place into the tables, and keep it if it still fits once
its length is final. -/
def enter (layout : Layout) (statement : Statement) : Layout × Journal :=
  let labeled := layout.labelIsNew statement
  let defined := (layout.defineLabel statement).noteLiteral statement
  let obeyed := defined.obeyDirective statement labeled
  let length := defined.finalLength statement
  let faults := operatorFaults statement ++ layout.labelFaults statement ++
    defined.directiveFaults statement labeled
  let events := placementEvents statement length
  if fits statement.address length then
    ({ obeyed with
        counter := statement.address + length
        statements := obeyed.statements ++ [{ statement with length }] },
      .ofLine statement.line faults
        (events ++
          [.located statement.operator.text statement.line statement.address length]))
  else (obeyed, .ofLine statement.line (faults ++ [.addressOverflow]) events)

/-- Give a statement its place and its length, and enter it if it fits into memory. -/
def addStatement (registry : Registry) (layout : Layout) (statement : Statement) :
    Layout × Journal :=
  let opened := layout.openSection statement
  let opening := Journal.ofLine statement.line [] (openingEvents statement)
  match lengthOf registry statement with
  | .error fault => (opened, opening ++ .ofLine statement.line [fault] [])
  | .ok length =>
    if fits opened.counter length then
      let entered := opened.enter { statement with address := opened.counter, length }
      (entered.1, opening ++ entered.2)
    else (opened, opening ++ .ofLine statement.line [.addressOverflow] [])

/-- Add a numbered line. -/
def addLine (registry : Registry) (layout : Layout) (line : Nat × String) : Layout × Journal :=
  match draft registry line.1 line.2 with
  | .error fault => (layout, .ofLine line.1 [fault] [])
  | .ok none => (layout, ∅)
  | .ok (some statement) => layout.addStatement registry statement

/-- Add numbered lines one after another. -/
def addLines (registry : Registry) : Layout → List (Nat × String) → Layout × Journal
  | layout, [] => (layout, ∅)
  | layout, line :: rest =>
    let next := layout.addLine registry line
    let last := addLines registry next.1 rest
    (last.1, next.2 ++ last.2)

/-- A diagnostic for each literal that is still pending, on the line of its first use. -/
def unplaced (layout : Layout) : List Diagnostic :=
  layout.literals.pending.map fun text =>
    ⟨(layout.firstUses.lookup text).getD 0, .unplacedLiteral text⟩

end Layout

namespace Section

/-- Lay out a section of numbered lines. -/
def layOut (registry : Registry) (lines : List (Nat × String)) : Section × Journal :=
  let layout := Layout.addLines registry {} lines
  (layout.1.toSection, layout.2 ++ { diagnostics := layout.1.unplaced })

end Section

end SicXe
