import SicXe.Journal
import SicXe.Operand.Read
import SicXe.Register
import SicXe.Section

/-!
# SicXe.ObjectCode

The object code of a section that has been laid out.

Statements are encoded one after another; all that one leaves for the next is the value of the
base register.  A field that only the linker can fill is left zero, and a relocation tells
where it is.  Nothing here stops the work: a value that does not fit is cut to its field and
reported.
-/

namespace SicXe

/-- What encoding a statement comes to. -/
structure Encoding where
  /-- The statement with its object code. -/
  statement : Statement
  /-- The base register after the statement, if its value is announced. -/
  base : Option Nat
  relocations : List Relocation := []
  faults : List Fault := []
  deriving Repr, DecidableEq

namespace Encoding

/-! ## instructions without an address -/

/-- Report a number of operands other than the instruction takes.  In format 3 an index register
behind other operands does not count. -/
def countFaults (instruction : Instruction) (operands : List Operand) : List Fault :=
  let indexed := instruction.format = .three && operands.length > 1 &&
    operands.getLast?.any Operand.isIndexRegister
  let found := if indexed then operands.length - 1 else operands.length
  if found = instruction.operandCount then []
  else [.operandCount instruction.operandCount found]

/-- Whether an instruction stores a shift count, which is written one less than it counts. -/
def shifts (mnemonic : String) : Bool :=
  "SHIFT".toList.isPrefixOf mnemonic.toList

/-- A shift count as it is stored: one less than it is written, but never below the least number
of 32 bits. -/
def shiftCount (value : Int) : Int :=
  max (value - 1) (-0x80000000)

/-- The four bits of an operand in format 2: a register or a number. -/
def registerField (shift : Bool) (operand : Operand) : Nat × List Fault :=
  match operand with
  | .symbol name =>
    match Register.ofName? name with
    | some register => (register.number, [])
    | none => (0, [.malformedLine (.unexpectedOperand name)])
  | .number value =>
    let stored := if shift then shiftCount value else value
    ((stored % 16).toNat,
      if 0 ≤ stored ∧ stored ≤ 15 then [] else [.valueOutOfRange operand.text])
  | operand => (0, [.malformedLine (.unexpectedOperand operand.text)])

/-- The object code of an instruction of format 2, whose second byte holds two operands. -/
def format2 (instruction : Instruction) (shift : Bool) (operands : List Operand) :
    List UInt8 × List Fault :=
  let fields := (operands.take 2).map (registerField shift)
  let field (index : Nat) : Nat := (fields[index]?.map Prod.fst).getD 0
  ([instruction.opcode, UInt8.ofNat (16 * field 0 + field 1)], fields.flatMap Prod.snd)

/-! ## instructions with an address -/

/-- The flags that the way the operands are written decides. -/
def operandFlags (operands : List Operand) : AddressingFlags :=
  let indexed := operands[1]?.any Operand.isIndexRegister
  match operands.head? with
  | some (.immediate _) => { i := true, x := indexed }
  | some (.indirect _) => { n := true, x := indexed }
  | _ => { n := true, i := true, x := indexed }

/-- How an instruction of format 3 reaches its operand. -/
structure Displacement where
  /-- Counted from the base register. -/
  b : Bool := false
  /-- Counted from the program counter. -/
  p : Bool := false
  value : Int := 0
  faults : List Fault := []
  deriving Repr, DecidableEq

/-- Whether a displacement can be counted from the program counter. -/
def inCounterRange (value : Int) : Bool :=
  -2048 ≤ value && value ≤ 2047

/-- Whether a displacement can be counted from the base register, or stand by itself. -/
def inBaseRange (value : Int) : Bool :=
  0 ≤ value && value ≤ 4095

/-- Reach an address from the program counter, or else from the base register.  If neither can
reach it, the displacement from the program counter is cut and reported. -/
def reach (base : Option Nat) (counter : Nat) (name : String) (target : Nat) : Displacement :=
  let fromCounter : Int := (target : Int) - (counter : Int)
  if inCounterRange fromCounter then { p := true, value := fromCounter }
  else
    let lost : Displacement :=
      { p := true, value := fromCounter, faults := [.displacementOutOfRange name] }
    match base with
    | none => lost
    | some base =>
      let fromBase : Int := (target : Int) - (base : Int)
      if inBaseRange fromBase then { b := true, value := fromBase } else lost

/-- The displacement of the operands of an instruction of format 3 that ends at `counter`. -/
def displacement (sect : Section) (base : Option Nat) (counter : Nat) :
    List Operand → Displacement
  | [] => {}
  | operand :: _ =>
    match operand.number? with
    | some value =>
      { value, faults := if inBaseRange value then [] else [.displacementOutOfRange operand.text] }
    | none =>
      let name := operand.lookupName?.getD ""
      if sect.isExternal name then { faults := [.externalInShortForm name] }
      else match sect.lookup name with
        | some target => reach base counter name target
        | none => { p := true, faults := [.unresolvedReference name] }

/-- The object code of format 3: the opcode with the flags `n` and `i` in its low bits, the other
flags, and a displacement of 12 bits. -/
def format3 (opcode : UInt8) (flags : AddressingFlags) (displacement : Int) : List UInt8 :=
  let field := (displacement % 0x1000).toNat
  [opcode ||| UInt8.ofNat flags.mode, UInt8.ofNat (16 * flags.relation + field / 256),
    UInt8.ofNat field]

/-- The object code of format 4: as format 3, with an address of 20 bits. -/
def format4 (opcode : UInt8) (flags : AddressingFlags) (address : Int) : List UInt8 :=
  let field := (address % 0x100000).toNat
  [opcode ||| UInt8.ofNat flags.mode, UInt8.ofNat (16 * flags.relation + field / 65536),
    UInt8.ofNat (field / 256), UInt8.ofNat field]

/-- The address of the operands of an instruction of format 4 at `start`: a number stands by
itself, and any name is left to the linker. -/
def extendedAddress (sect : Section) (start : Nat) :
    List Operand → Int × List Relocation × List Fault
  | [] => (0, [], [])
  | operand :: _ =>
    match operand.number? with
    | some value => (value, [], [])
    | none =>
      let name := operand.lookupName?.getD ""
      let known := sect.isExternal name || (sect.lookup name).isSome
      (0, [⟨start + 1, 5, .plus, name⟩], if known then [] else [.unresolvedReference name])

/-- Encode an instruction by the length of its statement. -/
def ofInstruction (sect : Section) (base : Option Nat) (statement : Statement)
    (instruction : Instruction) (extended : Bool) : Encoding :=
  let operands := statement.operands
  let count := countFaults instruction operands
  let plain (code : List UInt8) (faults : List Fault) : Encoding :=
    { statement := { statement with code, contribution := some .text }
      base
      faults := count ++ faults }
  match statement.length with
  | 1 => plain [instruction.opcode] []
  | 2 =>
    let (code, faults) := format2 instruction (shifts instruction.mnemonic) operands
    plain code faults
  | 3 =>
    let target := displacement sect base statement.stop operands
    let flags := { operandFlags operands with b := target.b, p := target.p }
    { statement :=
        { statement with
          flags
          code := format3 instruction.opcode flags target.value
          contribution := some .text }
      base
      faults := count ++ target.faults }
  | _ =>
    if extended then
      let (address, relocations, faults) := extendedAddress sect statement.address operands
      let flags := { operandFlags operands with e := true }
      { statement :=
          { statement with
            flags
            code := format4 instruction.opcode flags address
            contribution := some .text }
        base
        relocations
        faults := count ++ faults }
    else plain [] []

/-! ## directives -/

/-- The exported symbols with their addresses; one that is not defined is reported and counts
as 0. -/
def definitions (sect : Section) (names : List String) : List (String × Nat) × List Fault :=
  (names.map fun name => (name, (sect.symbols.lookup name).getD 0),
    (names.filter fun name => (sect.symbols.lookup name).isNone).map .unresolvedReference)

/-- The value of a word at `start`, as far as it is known here. -/
def wordValue (sect : Section) (start : Nat) :
    List Operand → Nat × List Relocation × List Fault
  | [.number value] => ((value % wordSize).toNat, [], [])
  | [.symbol name] =>
    if sect.isExternal name then (0, [⟨start, 6, .plus, name⟩], [])
    else match sect.symbols.lookup name with
      | some address => (address, [], [])
      | none => (0, [], [.unresolvedReference name])
  | [.difference minuend subtrahend] =>
    (0, [⟨start, 6, .plus, minuend⟩, ⟨start, 6, .minus, subtrahend⟩], [])
  | _ => (0, [], [])

/-- The bytes of the literal of a name; a name that cannot be read as a literal has none. -/
def literalContents (name : String) : List UInt8 :=
  match Literal.read name with
  | .ok value => value.contents
  | .error _ => []

/-- The bytes of the literals placed from `start` to before `stop`, in the order of the pool. -/
def poolContents (sect : Section) (start stop : Nat) : List UInt8 :=
  sect.literals.located.flatMap fun entry =>
    if start ≤ entry.2 ∧ entry.2 < stop then literalContents entry.1 else []

/-- What `BASE` announces of the base register, which has 32 bits here. -/
def announcedBase (sect : Section) : List Operand → Option Nat × List Fault
  | [] => (none, [])
  | .number value :: _ => (some (value % 0x100000000).toNat, [])
  | operand :: _ =>
    match sect.lookup operand.text with
    | some address => (some address, [])
    | none => (none, [.unresolvedReference operand.text])

/-- Encode a directive. -/
def ofDirective (sect : Section) (base : Option Nat) (statement : Statement)
    (directive : Directive) : Encoding :=
  match directive with
  | .start | .csect =>
    let header := Contribution.header (statement.label.getD "") statement.address
    { statement := { statement with contribution := some header }, base }
  | .extdef =>
    let (symbols, faults) := definitions sect statement.operandSymbols
    { statement := { statement with contribution := some (.define symbols) }, base, faults }
  | .extref =>
    let refer := Contribution.refer statement.operandSymbols
    { statement := { statement with contribution := some refer }, base }
  | .byte =>
    match statement.operands with
    | [.constant value] =>
      { statement := { statement with code := value.bytes, contribution := some .text }, base }
    | _ => { statement, base }
  | .word =>
    let (value, relocations, faults) := wordValue sect statement.address statement.operands
    { statement := { statement with code := Bytes.ofWord value, contribution := some .text }
      base
      relocations
      faults }
  | .ltorg | .endProgram =>
    let code := poolContents sect statement.address statement.stop
    if code = [] then { statement := { statement with code }, base }
    else { statement := { statement with code, contribution := some .text }, base }
  | .base =>
    let (announced, faults) := announcedBase sect statement.operands
    { statement, base := announced, faults }
  | .nobase => { statement, base := none }
  | .resb | .resw | .equ => { statement, base }

/-! ## statements -/

/-- Encode a statement.  An operator that the registry does not know is left alone. -/
def ofStatement (registry : Registry) (sect : Section) (base : Option Nat)
    (statement : Statement) : Encoding :=
  match statement.operator with
  | .instruction mnemonic extended =>
    match registry.get? mnemonic with
    | some instruction => ofInstruction sect base statement instruction extended
    | none => { statement, base }
  | .directive directive => ofDirective sect base statement directive
  | .unknown _ => { statement, base }

/-- Encode statements one after another. -/
def ofStatements (registry : Registry) (sect : Section) :
    (base : Option Nat) → List Statement → List Encoding
  | _, [] => []
  | base, statement :: rest =>
    let encoding := ofStatement registry sect base statement
    encoding :: ofStatements registry sect encoding.base rest

/-- The diagnostics of an encoding, which are all about its own line. -/
def diagnostics (encoding : Encoding) : List Diagnostic :=
  encoding.faults.map fun fault => ⟨encoding.statement.line, fault⟩

/-- The event of an encoding, unless it has no object code. -/
def event? (encoding : Encoding) : Option Event :=
  let statement := encoding.statement
  if statement.code = [] then none
  else some
    (.encoded statement.operator.text statement.line statement.address statement.code)

end Encoding

namespace Section

/-- Produce the object code of every statement of a section. -/
def generate (registry : Registry) (sect : Section) : Section × Journal :=
  let encodings := Encoding.ofStatements registry sect none sect.statements
  let statements := encodings.map Encoding.statement
  let length := Statement.totalLength statements
  ({ sect with
      statements
      relocations := sect.relocations ++ encodings.flatMap Encoding.relocations
      length },
    { diagnostics := encodings.flatMap Encoding.diagnostics
      events := encodings.filterMap Encoding.event? ++ [.generatedSection sect.name length] })

end Section

end SicXe
