import SicXe.Proofs.Diagnostics

/-!
# SicXe.Proofs.Displacement

Reading back what an instruction of format 3 refers to.

The second and the third byte of such an instruction hold four flags and a displacement of 12 bits
(`ShortForm`).  The machine adds the displacement to the program counter, which has moved behind
the instruction, or to the base register, or takes it as it is; `short_form_reaches_operand` says
that this gives back the operand, unless it is reported to be out of range, and when it is.

All that a statement needs to know of those before it is the base register, and that is what the
last `BASE` or `NOBASE` among them says (`exists_split_ofStatements`).
-/

namespace SicXe

/-! ## the bytes of format 3 -/

/-- What the second and the third byte of an instruction of format 3 hold. -/
structure ShortForm where
  x : Bool
  b : Bool
  p : Bool
  e : Bool
  displacement : Nat
  deriving Repr, DecidableEq

namespace ShortForm

/-- Read the flags in the high half of the second byte and the 12 bits behind them. -/
def ofBytes (second third : UInt8) : ShortForm where
  x := second.toNat.testBit 7
  b := second.toNat.testBit 6
  p := second.toNat.testBit 5
  e := second.toNat.testBit 4
  displacement := 256 * (second.toNat % 16) + third.toNat

/-- A displacement as a signed number of 12 bits. -/
def signedDisplacement (form : ShortForm) : Int :=
  if form.displacement < 2048 then form.displacement else (form.displacement : Int) - 4096

/-- A displacement from -2048 to 2047 that was cut to 12 bits is its signed reading. -/
theorem signedDisplacement_of_cut {form : ShortForm} {value : Int}
    (hcut : form.displacement = (value % 0x1000).toNat) (hlow : -2048 ≤ value)
    (hhigh : value ≤ 2047) : form.signedDisplacement = value := by
  unfold signedDisplacement
  rw [hcut]
  split <;> omega

/-- A displacement from 0 to 4095 that was cut to 12 bits is as it was. -/
theorem displacement_of_cut {form : ShortForm} {value : Int}
    (hcut : form.displacement = (value % 0x1000).toNat) (hlow : 0 ≤ value)
    (hhigh : value ≤ 4095) : (form.displacement : Int) = value := by
  omega

end ShortForm

/-- A form holds a displacement, cut to its 12 bits, and which register it is counted from. -/
structure ShortForm.Holds (form : ShortForm) (target : Encoding.Displacement) : Prop where
  b : form.b = target.b
  p : form.p = target.p
  e : form.e = false
  displacement : form.displacement = (target.value % 0x1000).toNat

/-- What a statement of three bytes of code holds behind its opcode. -/
def Statement.shortForm? (statement : Statement) : Option ShortForm :=
  match statement.code with
  | [_, second, third] => some (ShortForm.ofBytes second third)
  | _ => none

theorem AddressingFlags.relation_lt (flags : AddressingFlags) : flags.relation < 16 := by
  have hx := flags.x.toNat_le
  have hb := flags.b.toNat_le
  have hp := flags.p.toNat_le
  have he := flags.e.toNat_le
  unfold relation
  omega

theorem AddressingFlags.testBit_relation (flags : AddressingFlags) :
    flags.relation.testBit 3 = flags.x ∧ flags.relation.testBit 2 = flags.b ∧
      flags.relation.testBit 1 = flags.p ∧ flags.relation.testBit 0 = flags.e := by
  obtain ⟨n, i, x, b, p, e⟩ := flags
  revert n i x b p e
  decide

/-- The bits of the high half of a byte. -/
theorem testBit_high_half (high : Nat) {low : Nat} (h : low < 16) (k : Nat) :
    (16 * high + low).testBit (k + 4) = high.testBit k := by
  rw [Nat.testBit_add]
  congr 1
  omega

namespace Encoding

/-- **Format 3 reads back**: the flags and the low 12 bits of the displacement. -/
theorem format3_eq (opcode : UInt8) (flags : AddressingFlags) (value : Int) :
    ∃ first second third, format3 opcode flags value = [first, second, third] ∧
      ShortForm.ofBytes second third =
        ⟨flags.x, flags.b, flags.p, flags.e, (value % 0x1000).toNat⟩ := by
  refine ⟨_, _, _, rfl, ?_⟩
  have hrelation := flags.relation_lt
  have hfield : (value % 0x1000).toNat < 4096 := by omega
  generalize (value % 0x1000).toNat = field at hfield
  have hsecond : (UInt8.ofNat (16 * flags.relation + field / 256)).toNat =
      16 * flags.relation + field / 256 := by
    rw [UInt8.toNat_ofNat']
    omega
  have hthird : (UInt8.ofNat field).toNat = field % 256 := UInt8.toNat_ofNat' ..
  have hbit := testBit_high_half flags.relation (show field / 256 < 16 by omega)
  obtain ⟨hx, hb, hp, he⟩ := flags.testBit_relation
  have hlow : 256 * ((16 * flags.relation + field / 256) % 16) + field % 256 = field := by omega
  simp only [ShortForm.ofBytes]
  rw [hsecond, hthird, hbit 3, hbit 2, hbit 1, hbit 0, hx, hb, hp, he, hlow]

end Encoding

/-! ## the base register -/

/-- Whether a statement says something of the base register. -/
def Statement.setsBase (statement : Statement) : Bool :=
  statement.directive? = some .base || statement.directive? = some .nobase

namespace Encoding

/-- What a statement that says something of the base register leaves in it. -/
def leftInBase (sect : Section) (statement : Statement) : Option Nat :=
  if statement.directive? = some .base then (announcedBase sect statement.operands).1 else none

/-- The base register behind statements, when it was `base` before them: what the last `BASE` or
`NOBASE` among them leaves in it. -/
def baseAfter (sect : Section) (base : Option Nat) (statements : List Statement) : Option Nat :=
  match statements.reverse.find? Statement.setsBase with
  | some statement => leftInBase sect statement
  | none => base

theorem baseAfter_cons (sect : Section) (base : Option Nat) (first : Statement)
    (rest : List Statement) :
    baseAfter sect base (first :: rest) =
      baseAfter sect (if first.setsBase then leftInBase sect first else base) rest := by
  simp only [baseAfter, List.reverse_cons, List.find?_append]
  cases hlast : rest.reverse.find? Statement.setsBase with
  | some statement => rfl
  | none =>
      cases hfirst : first.setsBase with
      | true => simp [hfirst]
      | false => simp [hfirst]

/-- Encoding a statement leaves in the base register what the statement says of it. -/
theorem base_ofStatement (registry : Registry) (sect : Section) (base : Option Nat)
    (statement : Statement) :
    (ofStatement registry sect base statement).base =
      if statement.setsBase then leftInBase sect statement else base := by
  unfold ofStatement Statement.setsBase leftInBase Statement.directive?
  cases statement.operator with
  | instruction mnemonic extended =>
      dsimp only
      split
      · unfold ofInstruction
        dsimp only
        split
        · rfl
        · rfl
        · rfl
        · split <;> rfl
      · rfl
  | directive directive =>
      cases directive with
      | byte => simp only [ofDirective]; split <;> rfl
      | ltorg => simp only [ofDirective]; split <;> rfl
      | endProgram => simp only [ofDirective]; split <;> rfl
      | _ => rfl
  | unknown text => rfl

/-- The base register threaded through the statements of a section is what the statements before
each one leave in it. -/
theorem exists_split_ofStatements {registry : Registry} {sect : Section} {base : Option Nat}
    {statements before after : List Statement} {statement : Statement}
    (h : (ofStatements registry sect base statements).map Encoding.statement =
      before ++ statement :: after) :
    ∃ laid ∈ statements,
      ofStatement registry sect (baseAfter sect base before) laid ∈
        ofStatements registry sect base statements ∧
      (ofStatement registry sect (baseAfter sect base before) laid).statement = statement := by
  induction before generalizing base statements with
  | nil =>
      cases statements with
      | nil => simp [ofStatements] at h
      | cons laid rest =>
          simp only [ofStatements, List.map_cons, List.nil_append, List.cons.injEq] at h
          exact ⟨laid, List.mem_cons_self, List.mem_cons_self, h.1⟩
  | cons first before ih =>
      cases statements with
      | nil => simp [ofStatements] at h
      | cons laid rest =>
          simp only [ofStatements, List.map_cons, List.cons_append, List.cons.injEq] at h
          obtain ⟨hfirst, hrest⟩ := h
          obtain ⟨found, hmem, hin, hstatement⟩ := ih hrest
          obtain ⟨flags, code, contribution, hlaid⟩ :=
            statement_ofStatement registry sect base laid
          -- Encoding keeps the operator and the operands, which decide the base register.
          have hbase : (if first.setsBase then leftInBase sect first else base) =
              (ofStatement registry sect base laid).base := by
            rw [base_ofStatement, ← hfirst, hlaid]
            rfl
          rw [baseAfter_cons, hbase]
          exact ⟨found, List.mem_cons_of_mem _ hmem, List.mem_cons_of_mem _ hin, hstatement⟩

end Encoding

/-! ## which way an address is reached -/

/-- An operand that goes by a name is no number. -/
theorem Operand.number?_of_lookupName? {operand : Operand} {name : String}
    (h : operand.lookupName? = some name) : operand.number? = none := by
  cases operand with
  | number value => cases h
  | immediate target =>
      cases target with
      | number value => cases h
      | symbol name => rfl
  | indirect target =>
      cases target with
      | number value => cases h
      | symbol name => rfl
  | _ => rfl

namespace Encoding

/-- Whether a signed displacement of 12 bits leads from the program counter to an address. -/
def NearCounter (counter target : Nat) : Prop :=
  -2048 ≤ (target : Int) - counter ∧ (target : Int) - counter ≤ 2047

/-- Whether a displacement of 12 bits leads from the base register to an address. -/
def NearBase (base : Option Nat) (target : Nat) : Prop :=
  ∃ start, base = some start ∧ 0 ≤ (target : Int) - start ∧ (target : Int) - start ≤ 4095

theorem inCounterRange_iff {counter target : Nat} :
    inCounterRange ((target : Int) - counter) = true ↔ NearCounter counter target := by
  simp [inCounterRange, NearCounter]

theorem inBaseRange_iff {value : Int} : inBaseRange value = true ↔ 0 ≤ value ∧ value ≤ 4095 := by
  simp [inBaseRange]

/-- **The three ways of reaching an address**: from the program counter, else from the base
register, else not at all. -/
theorem reach_cases (base : Option Nat) (counter : Nat) (name : String) (target : Nat) :
    (NearCounter counter target ∧
      reach base counter name target = { p := true, value := (target : Int) - counter }) ∨
    (¬ NearCounter counter target ∧ ∃ start, base = some start ∧
      0 ≤ (target : Int) - start ∧ (target : Int) - start ≤ 4095 ∧
      reach base counter name target = { b := true, value := (target : Int) - start }) ∨
    (¬ NearCounter counter target ∧ ¬ NearBase base target ∧
      reach base counter name target =
        { p := true, value := (target : Int) - counter,
          faults := [.displacementOutOfRange name] }) := by
  unfold reach
  by_cases hcounter : NearCounter counter target
  · left
    exact ⟨hcounter, if_pos (inCounterRange_iff.mpr hcounter)⟩
  · right
    dsimp only
    rw [if_neg (mt inCounterRange_iff.mp hcounter)]
    cases base with
    | none =>
        right
        refine ⟨hcounter, ?_, rfl⟩
        rintro ⟨start, hstart, -⟩
        cases hstart
    | some start =>
        dsimp only
        by_cases hbase : 0 ≤ (target : Int) - start ∧ (target : Int) - start ≤ 4095
        · left
          exact ⟨hcounter, start, rfl, hbase.1, hbase.2, if_pos (inBaseRange_iff.mpr hbase)⟩
        · right
          refine ⟨hcounter, ?_, if_neg (mt inBaseRange_iff.mp hbase)⟩
          rintro ⟨other, hother, hnear⟩
          cases hother
          exact hbase hnear

/-- No displacement is counted from both registers. -/
theorem not_b_and_p_displacement (sect : Section) (base : Option Nat) (counter : Nat)
    (operands : List Operand) :
    ¬ ((displacement sect base counter operands).b = true ∧
      (displacement sect base counter operands).p = true) := by
  cases operands with
  | nil => simp [displacement]
  | cons operand rest =>
      unfold displacement
      dsimp only
      split
      · simp
      · split
        · simp
        · split
          · next target _ =>
              rcases reach_cases base counter (operand.lookupName?.getD "") target with
                ⟨-, heq⟩ | ⟨-, start, -, -, -, heq⟩ | ⟨-, -, heq⟩ <;> rw [heq] <;> simp
          · simp

theorem displacement_of_number (sect : Section) (base : Option Nat) (counter : Nat)
    {operands : List Operand} {operand : Operand} (hhead : operands.head? = some operand)
    {value : Int} (hvalue : operand.number? = some value) :
    displacement sect base counter operands =
      { value,
        faults := if inBaseRange value then [] else [.displacementOutOfRange operand.text] } := by
  obtain ⟨rest, rfl⟩ := List.head?_eq_some_iff.mp hhead
  simp only [displacement, hvalue]

theorem displacement_of_name {sect : Section} (base : Option Nat) (counter : Nat)
    {operands : List Operand} {operand : Operand} (hhead : operands.head? = some operand)
    {name : String} (hname : operand.lookupName? = some name)
    (hhere : sect.isExternal name = false) {target : Nat}
    (htarget : sect.lookup name = some target) :
    displacement sect base counter operands = reach base counter name target := by
  obtain ⟨rest, rfl⟩ := List.head?_eq_some_iff.mp hhead
  simp [displacement, Operand.number?_of_lookupName? hname, hname, hhere, htarget]

/-- How the machine finds an address: a signed displacement from the program counter, or, only if
that is too far, a displacement from the base register. -/
def Reaches (form : ShortForm) (base : Option Nat) (counter target : Nat) : Prop :=
  (form.p = true ∧ (target : Int) = counter + form.signedDisplacement) ∨
    (form.b = true ∧ ¬ NearCounter counter target ∧
      ∃ start, base = some start ∧ target = start + form.displacement)

/-- A form that holds how an address is reached leads there, unless the address is out of range of
both registers, and that is reported. -/
theorem reaches_of_reach {form : ShortForm} {base : Option Nat} {counter target : Nat}
    {name : String} (hholds : form.Holds (reach base counter name target)) :
    ((∃ text, .displacementOutOfRange text ∈ (reach base counter name target).faults) ↔
      ¬ NearCounter counter target ∧ ¬ NearBase base target) ∧
    ((¬ ∃ text, .displacementOutOfRange text ∈ (reach base counter name target).faults) →
      Reaches form base counter target) := by
  rcases reach_cases base counter name target with
    ⟨hnear, heq⟩ | ⟨hfar, start, hstart, hlow, hhigh, heq⟩ | ⟨hfar, hlost, heq⟩
  · rw [heq] at hholds ⊢
    refine ⟨by simp [hnear], fun _ => Or.inl ⟨hholds.p, ?_⟩⟩
    have hsigned : form.signedDisplacement = (target : Int) - counter :=
      ShortForm.signedDisplacement_of_cut hholds.displacement hnear.1 hnear.2
    omega
  · rw [heq] at hholds ⊢
    have hbase : NearBase base target := ⟨start, hstart, hlow, hhigh⟩
    refine ⟨by simp [hbase], fun _ => Or.inr ⟨hholds.b, hfar, start, hstart, ?_⟩⟩
    have hplain : (form.displacement : Int) = (target : Int) - start :=
      ShortForm.displacement_of_cut hholds.displacement hlow hhigh
    omega
  · rw [heq]
    simp [hfar, hlost]

/-- A form that holds a number holds it as it is, unless the number is out of range, and that is
reported. -/
theorem holds_of_number {form : ShortForm} {value : Int} {text : String}
    (hcut : form.displacement = (value % 0x1000).toNat) :
    ((∃ name, Fault.displacementOutOfRange name ∈
        if inBaseRange value then [] else [Fault.displacementOutOfRange text]) ↔
      ¬ (0 ≤ value ∧ value ≤ 4095)) ∧
    ((¬ ∃ name, Fault.displacementOutOfRange name ∈
        if inBaseRange value then [] else [Fault.displacementOutOfRange text]) →
      (form.displacement : Int) = value) := by
  by_cases hrange : 0 ≤ value ∧ value ≤ 4095
  · rw [if_pos (inBaseRange_iff.mpr hrange)]
    exact ⟨by simp [hrange], fun _ => ShortForm.displacement_of_cut hcut hrange.1 hrange.2⟩
  · rw [if_neg (mt inBaseRange_iff.mp hrange)]
    simp [hrange]

/-! ## statements of three bytes -/

theorem displacementOutOfRange_notMem_countFaults (instruction : Instruction)
    (operands : List Operand) (text : String) :
    .displacementOutOfRange text ∉ countFaults instruction operands := by
  unfold countFaults
  dsimp only
  split <;> simp

/-- Encoding an instruction of three bytes writes the flags and the displacement of its operands,
and reports what the displacement reports. -/
theorem ofStatement_short {registry : Registry} {sect : Section} {base : Option Nat}
    {statement : Statement} {mnemonic : String} {extended : Bool} {target : Displacement}
    (hlaid : statement.LaidOut registry)
    (hop : statement.operator = .instruction mnemonic extended) (hlength : statement.length = 3)
    (htarget : displacement sect base (statement.address + 3) statement.operands = target) :
    (∃ form, (ofStatement registry sect base statement).statement.shortForm? = some form ∧
      form.Holds target) ∧
    ∀ text, .displacementOutOfRange text ∈ (ofStatement registry sect base statement).faults ↔
      .displacementOutOfRange text ∈ target.faults := by
  obtain ⟨found, hget, -, -⟩ := length_of_instruction hlaid hop
  have hstop : statement.address + 3 = statement.stop := by rw [Statement.stop, hlength]
  rw [hstop] at htarget
  obtain ⟨first, second, third, hcode, hform⟩ := format3_eq found.opcode
    { operandFlags statement.operands with b := target.b, p := target.p } target.value
  have he : (operandFlags statement.operands).e = false := by
    unfold operandFlags
    dsimp only
    split <;> rfl
  have hwritten : (ofStatement registry sect base statement).statement.code =
      [first, second, third] := by
    simp only [ofStatement, hop, hget, ofInstruction, hlength, htarget]
    exact hcode
  refine ⟨⟨ShortForm.ofBytes second third, ?_, ?_⟩, ?_⟩
  · rw [Statement.shortForm?, hwritten]
  · rw [hform]
    exact ⟨rfl, rfl, he, rfl⟩
  · intro text
    simp only [ofStatement, hop, hget, ofInstruction, hlength, htarget, List.mem_append,
      displacementOutOfRange_notMem_countFaults, false_or]

end Encoding

/-! ## programs -/

namespace Program

open Encoding (NearCounter NearBase Reaches baseAfter)

/-- Whether a displacement on a line is reported to be out of range. -/
def ReportsOutOfRange (program : Program) (line : Nat) : Prop :=
  ∃ text, ⟨line, .displacementOutOfRange text⟩ ∈ program.diagnostics

/-- A statement of an assembled section is the encoding of one that was laid out, with the base
register that the statements before it leave. -/
theorem exists_encoding_of_split {registry : Registry} {source : String} {sect : Section}
    (hsect : sect ∈ (assemble registry source).sections) {before after : List Statement}
    {statement : Statement} (hsplit : sect.statements = before ++ statement :: after) :
    ∃ laid : Statement, laid.LaidOut registry ∧
      Encoding.ofStatement registry sect (Encoding.baseAfter sect none before) laid ∈
        encodings registry source ∧
      (Encoding.ofStatement registry sect (Encoding.baseAfter sect none before) laid).statement =
        statement := by
  obtain ⟨lines, hlines, rfl⟩ := exists_lines_of_mem_sections hsect
  have honce := openedOnce_of_mem_cutSections _ lines hlines
  -- Encoding looks at the tables of the section only, and those are there once it is laid out.
  obtain ⟨laid, hlaid, hmem, hstatement⟩ := Encoding.exists_split_ofStatements hsplit
  exact ⟨laid, Layout.laidOut_of_mem honce laid hlaid, List.mem_flatMap.mpr ⟨lines, hlines, hmem⟩,
    hstatement⟩

/-- An instruction of three bytes in an assembled program: what its code holds and what is
reported on its line come from the displacement of its operands. -/
theorem shortForm_of_split {registry : Registry} {source : String} {sect : Section}
    (hsect : sect ∈ (assemble registry source).sections) {before after : List Statement}
    {statement : Statement} (hsplit : sect.statements = before ++ statement :: after)
    {mnemonic : String} {extended : Bool}
    (hop : statement.operator = .instruction mnemonic extended) (hlength : statement.length = 3)
    {target : Encoding.Displacement}
    (htarget : Encoding.displacement sect (Encoding.baseAfter sect none before)
      (statement.address + 3) statement.operands = target) :
    (∃ form, statement.shortForm? = some form ∧ form.Holds target) ∧
    ((assemble registry source).ReportsOutOfRange statement.line ↔
      ∃ text, .displacementOutOfRange text ∈ target.faults) := by
  obtain ⟨laid, hlaid, hmem, hstatement⟩ := exists_encoding_of_split hsect hsplit
  subst hstatement
  rw [Encoding.operator_ofStatement] at hop
  rw [Encoding.length_ofStatement] at hlength
  rw [Encoding.address_ofStatement, Encoding.operands_ofStatement] at htarget
  obtain ⟨hform, hfaults⟩ := Encoding.ofStatement_short hlaid hop hlength htarget
  refine ⟨hform, ?_⟩
  exact exists_congr fun text => (mem_diagnostics_iff_mem_faults hmem rfl).trans (hfaults text)

/-- **A short form leads to its operand.**  Let an instruction of three bytes stand in an assembled
program.  Its code is not of the extended form, and counts from one register at most.  If its first
operand goes by a name that is defined in the section, the machine finds the address of the name,
unless it is reported to be out of range; that happens exactly if neither the program counter nor
the base register, as the last `BASE` or `NOBASE` before it left it, is near enough.  If the first
operand is a number, it stands in the displacement as it is, unless it is reported to be out of
range, which happens exactly if it is not one of 0 to 4095. -/
theorem short_form_reaches_operand (registry : Registry) (source : String) (sect : Section)
    (hsect : sect ∈ (assemble registry source).sections) (before after : List Statement)
    (statement : Statement) (hsplit : sect.statements = before ++ statement :: after)
    (mnemonic : String) (extended : Bool)
    (hop : statement.operator = .instruction mnemonic extended) (hlength : statement.length = 3) :
    ∃ form, statement.shortForm? = some form ∧ form.e = false ∧
      ¬ (form.b = true ∧ form.p = true) ∧
      ∀ operand, statement.operands.head? = some operand →
        (∀ name target, operand.lookupName? = some name → sect.isExternal name = false →
          sect.lookup name = some target →
          (¬ (assemble registry source).ReportsOutOfRange statement.line →
            Reaches form (baseAfter sect none before) (statement.address + 3) target) ∧
          ((assemble registry source).ReportsOutOfRange statement.line ↔
            ¬ NearCounter (statement.address + 3) target ∧
              ¬ NearBase (baseAfter sect none before) target)) ∧
        (∀ value, operand.number? = some value →
          (¬ (assemble registry source).ReportsOutOfRange statement.line →
            form.b = false ∧ form.p = false ∧ (form.displacement : Int) = value) ∧
          ((assemble registry source).ReportsOutOfRange statement.line ↔
            ¬ (0 ≤ value ∧ value ≤ 4095))) := by
  obtain ⟨⟨form, hform, hholds⟩, hreports⟩ := shortForm_of_split hsect hsplit hop hlength rfl
  refine ⟨form, hform, hholds.e, ?_, ?_⟩
  · rw [hholds.b, hholds.p]
    exact Encoding.not_b_and_p_displacement _ _ _ _
  · intro operand hhead
    constructor
    · intro name target hname hhere htarget
      rw [Encoding.displacement_of_name _ _ hhead hname hhere htarget] at hholds hreports
      rw [hreports]
      exact (Encoding.reaches_of_reach hholds).symm
    · intro value hvalue
      rw [Encoding.displacement_of_number _ _ _ hhead hvalue] at hholds hreports
      rw [hreports]
      obtain ⟨hiff, hplain⟩ := Encoding.holds_of_number hholds.displacement
      exact ⟨fun hquiet => ⟨hholds.b, hholds.p, hplain hquiet⟩, hiff⟩

/-- A program that loads from a place out of reach of the program counter, with the base register
at a symbol. -/
def farLoad (base : String) : String :=
  "P\tSTART\t0\n\tBASE\t" ++ base ++ "\n\tLDA\tBUF\n\tRESB\t5000\nBUF\tBYTE\tX'01'\n\tEND\n"

/-- The section of `farLoad`. -/
def farSection (base : String) : Section :=
  (assemble loadRegistry (farLoad base)).sections.headD {}

/-- The instruction of `farLoad`. -/
def farStatement (base : String) : Statement :=
  (farSection base).statements.getD 2 { line := 0, operator := .unknown "" }

/-- `farLoad` with the base register at the place itself or at the start of the program. -/
theorem farLoad_facts {base : String} (hbase : base = "BUF" ∨ base = "P") :
    farSection base ∈ (assemble loadRegistry (farLoad base)).sections ∧
      (farSection base).statements = (farSection base).statements.take 2 ++
        farStatement base :: (farSection base).statements.drop 3 ∧
      (farStatement base).operator = .instruction "LDA" false ∧
      (farStatement base).address = 0 ∧ (farStatement base).length = 3 ∧
      (farStatement base).operands.head? = some (.symbol "BUF") ∧
      (farSection base).isExternal "BUF" = false ∧
      (farSection base).lookup "BUF" = some 5003 ∧
      baseAfter (farSection base) none ((farSection base).statements.take 2) =
        (if base = "BUF" then some 5003 else some 0) ∧
      (assemble loadRegistry (farLoad base)).diagnostics =
        (if base = "BUF" then []
        else [⟨(farStatement base).line, .displacementOutOfRange "BUF"⟩]) := by
  rcases hbase with rfl | rfl
  · decide +kernel
  · decide +kernel

theorem short_form_reaches_far_load :
    ∃ form, (farStatement "BUF").shortForm? = some form ∧ form.e = false ∧
      Reaches form (some 5003) 3 5003 := by
  obtain ⟨hsect, hsplit, hop, haddress, hlength, hhead, hhere, htarget, hbase, hquiet⟩ :=
    farLoad_facts (Or.inl rfl : "BUF" = "BUF" ∨ _)
  obtain ⟨form, hform, he, -, hoperand⟩ := short_form_reaches_operand loadRegistry
    (farLoad "BUF") (farSection "BUF") hsect _ _ (farStatement "BUF") hsplit "LDA" false hop hlength
  have hreaches := ((hoperand _ hhead).1 "BUF" 5003 rfl hhere htarget).1
  rw [hbase, haddress] at hreaches
  refine ⟨form, hform, he, hreaches ?_⟩
  rintro ⟨text, hmem⟩
  rw [hquiet] at hmem
  cases hmem

/-- A base register is not always enough: what the program counter cannot reach may be out of
range although there is one. -/
theorem not_reported_only_without_base :
    ¬ ∀ (registry : Registry) (source : String) (sect : Section),
      sect ∈ (assemble registry source).sections →
      ∀ (before after : List Statement) (statement : Statement),
        sect.statements = before ++ statement :: after →
        ∀ (mnemonic : String) (extended : Bool),
          statement.operator = .instruction mnemonic extended → statement.length = 3 →
          ∀ (operand : Operand) (name : String) (target : Nat),
            statement.operands.head? = some operand → operand.lookupName? = some name →
            sect.isExternal name = false → sect.lookup name = some target →
            ((assemble registry source).ReportsOutOfRange statement.line ↔
              ¬ NearCounter (statement.address + 3) target ∧
                baseAfter sect none before = none) := by
  intro h
  obtain ⟨hsect, hsplit, hop, -, hlength, hhead, hhere, htarget, hbase, hreported⟩ :=
    farLoad_facts (Or.inr rfl : _ ∨ "P" = "P")
  have hiff := h loadRegistry (farLoad "P") (farSection "P") hsect _ _ (farStatement "P") hsplit
    "LDA" false hop hlength (.symbol "BUF") "BUF" 5003 hhead rfl hhere htarget
  have hnobase := (hiff.mp ⟨"BUF", by rw [hreported]; exact List.mem_cons_self⟩).2
  rw [hbase] at hnobase
  cases hnobase

end Program

end SicXe
