import Mathlib.Algebra.Group.Nat.Defs
import SicXe.Proofs.Coverage
import SicXe.Proofs.WholeCode

/-!
# SicXe.Proofs.Relocations

What is left to the linker.

A statement asks the linker for a field if it is an instruction of the extended form with a name as
its first operand, or a word made of an external symbol or of a difference
(`Statement.linkerFields`).  The relocations of an assembled section are those of its statements,
one statement after another, and each field stands whole in one text record, where it is zero
(`relocations_are_zero_fields`).
-/

namespace SicXe

/-! ## fields -/

/-- The number that bytes make up, the first one highest. -/
def Bytes.toNat (bytes : List UInt8) : Nat :=
  bytes.foldl (fun number byte => 256 * number + byte.toNat) 0

/-- The field of a relocation in the bytes from its address on: the low half bytes of the first
three of them. -/
def Relocation.field (relocation : Relocation) (bytes : List UInt8) : Nat :=
  Bytes.toNat (bytes.take 3) % 16 ^ relocation.halfBytes

/-- The relocations that a statement of a section asks for. -/
def Statement.linkerFields (sect : Section) (statement : Statement) : List Relocation :=
  match statement.operator with
  | .instruction _ _ =>
    match statement.operands with
    | operand :: _ =>
      if statement.length = 4 ∧ operand.number? = none then
        [⟨statement.address + 1, 5, .plus, operand.lookupName?.getD ""⟩]
      else []
    | [] => []
  | .directive .word =>
    match statement.operands with
    | [.symbol name] =>
      if sect.isExternal name then [⟨statement.address, 6, .plus, name⟩] else []
    | [.difference minuend subtrahend] =>
      [⟨statement.address, 6, .plus, minuend⟩, ⟨statement.address, 6, .minus, subtrahend⟩]
    | _ => []
  | _ => []

/-- **The kinds of relocation**: an instruction of four bytes asks for the name of its operand, a
word for an external symbol, and a difference for both of its names. -/
theorem Statement.cases_of_mem_linkerFields {sect : Section} {statement : Statement}
    {relocation : Relocation} (h : relocation ∈ statement.linkerFields sect) :
    (∃ mnemonic extended operand rest, statement.operator = .instruction mnemonic extended ∧
      statement.length = 4 ∧ statement.operands = operand :: rest ∧ operand.number? = none ∧
      relocation = ⟨statement.address + 1, 5, .plus, operand.lookupName?.getD ""⟩) ∨
    (∃ name, statement.operator = .directive .word ∧ statement.operands = [.symbol name] ∧
      sect.isExternal name = true ∧ relocation = ⟨statement.address, 6, .plus, name⟩) ∨
    (∃ minuend subtrahend, statement.operator = .directive .word ∧
      statement.operands = [.difference minuend subtrahend] ∧
      (relocation = ⟨statement.address, 6, .plus, minuend⟩ ∨
        relocation = ⟨statement.address, 6, .minus, subtrahend⟩)) := by
  unfold linkerFields at h
  split at h
  · next mnemonic extended hop =>
      split at h
      · next operand rest hoperands =>
          split at h
          · next hfour =>
              exact Or.inl ⟨mnemonic, extended, operand, rest, hop, hfour.1, hoperands, hfour.2,
                List.mem_singleton.mp h⟩
          · simp at h
      · simp at h
  · next hop =>
      split at h
      · next name hoperands =>
          split at h
          · next hexternal =>
              exact Or.inr (Or.inl ⟨name, hop, hoperands, hexternal, List.mem_singleton.mp h⟩)
          · simp at h
      · next minuend subtrahend hoperands =>
          exact Or.inr (Or.inr ⟨minuend, subtrahend, hop, hoperands, by simpa using h⟩)
      · simp at h
  · simp at h

/-- Only an instruction of four bytes and a word ask for anything: the last five half bytes, or all
six. -/
theorem Statement.mem_linkerFields {sect : Section} {statement : Statement}
    {relocation : Relocation} (h : relocation ∈ statement.linkerFields sect) :
    (∃ mnemonic extended, statement.operator = .instruction mnemonic extended ∧
      statement.length = 4 ∧ relocation.address = statement.address + 1 ∧
      relocation.halfBytes = 5) ∨
    (statement.operator = .directive .word ∧ relocation.address = statement.address ∧
      relocation.halfBytes = 6) := by
  rcases cases_of_mem_linkerFields h with
    ⟨mnemonic, extended, operand, rest, hop, hfour, -, -, rfl⟩ | ⟨name, hop, -, -, rfl⟩ |
    ⟨minuend, subtrahend, hop, -, rfl | rfl⟩
  · exact Or.inl ⟨mnemonic, extended, hop, hfour, rfl, rfl⟩
  · exact Or.inr ⟨hop, rfl, rfl⟩
  · exact Or.inr ⟨hop, rfl, rfl⟩
  · exact Or.inr ⟨hop, rfl, rfl⟩

/-- A relocation lies within a statement, whose code is short and zero in its field. -/
structure Relocation.ZeroIn (relocation : Relocation) (statement : Statement) : Prop where
  short : statement.code.length ≤ 4
  start : statement.address ≤ relocation.address
  stop : relocation.address + 3 ≤ statement.address + statement.code.length
  zero : relocation.field (statement.code.drop (relocation.address - statement.address)) = 0

namespace Encoding

/-! ## the relocations of a statement -/

/-- A field that is left to the linker is zero here. -/
theorem extendedAddress_eq_zero {sect : Section} {start : Nat} {operands : List Operand}
    (h : (extendedAddress sect start operands).2.1 ≠ []) :
    (extendedAddress sect start operands).1 = 0 := by
  unfold extendedAddress at h ⊢
  split at h
  · rfl
  · split at h
    · exact absurd rfl h
    · rfl

theorem wordValue_eq_zero {sect : Section} {start : Nat} {operands : List Operand}
    (h : (wordValue sect start operands).2.1 ≠ []) : (wordValue sect start operands).1 = 0 := by
  unfold wordValue at h ⊢
  split at h
  · exact absurd rfl h
  · split at h
    · next hexternal => simp [hexternal]
    · split at h <;> exact absurd rfl h
  · rfl
  · rfl

/-- The last three bytes of format 4 are the flags and the address. -/
theorem format4_zero (opcode : UInt8) (flags : AddressingFlags) :
    ∃ first, format4 opcode flags 0 = [first, UInt8.ofNat (16 * flags.relation), 0, 0] :=
  ⟨_, rfl⟩

section
variable {registry : Registry} {statement : Statement} (sect : Section) (base : Option Nat)

/-- Only instructions of the extended form take four bytes. -/
theorem length_eq_four_iff {mnemonic : String} {extended : Bool}
    (hlaid : statement.LaidOut registry)
    (hop : statement.operator = .instruction mnemonic extended) :
    statement.length = 4 ↔ extended = true := by
  obtain ⟨found, -, hlength, hext⟩ := length_of_instruction hlaid hop
  cases extended with
  | true =>
      rw [hext rfl] at hlength
      simp [hlength, Format.size]
  | false => cases hform : found.format <;> simp [hlength, hform, Format.size]

/-- The code and the relocations of an instruction of the extended form. -/
theorem ofStatement_extended {mnemonic : String} (hlaid : statement.LaidOut registry)
    (hop : statement.operator = .instruction mnemonic true) :
    (∃ opcode flags, (ofStatement registry sect base statement).statement.code =
      format4 opcode flags (extendedAddress sect statement.address statement.operands).1) ∧
    (ofStatement registry sect base statement).relocations =
      (extendedAddress sect statement.address statement.operands).2.1 := by
  obtain ⟨found, hget, -, -⟩ := length_of_instruction hlaid hop
  have hlength := (length_eq_four_iff hlaid hop).mpr rfl
  simp only [ofStatement, hop, hget, ofInstruction, hlength, if_true, and_true]
  exact ⟨_, _, rfl⟩

/-- An instruction of another form leaves nothing to the linker. -/
theorem relocations_of_not_extended {mnemonic : String} (hlaid : statement.LaidOut registry)
    (hop : statement.operator = .instruction mnemonic false) :
    (ofStatement registry sect base statement).relocations = [] := by
  obtain ⟨found, hget, hlength, -⟩ := length_of_instruction hlaid hop
  simp only [ofStatement, hop, hget]
  cases hform : found.format <;> simp [ofInstruction, hlength, hform, Format.size]

/-- What encoding leaves to the linker is what the statement asks for. -/
theorem relocations_ofStatement (hlaid : statement.LaidOut registry) :
    (ofStatement registry sect base statement).relocations = statement.linkerFields sect := by
  cases hop : statement.operator with
  | instruction mnemonic extended =>
      have hfour := length_eq_four_iff hlaid hop
      cases extended with
      | true =>
          rw [(ofStatement_extended sect base hlaid hop).2]
          cases hoperands : statement.operands with
          | nil => simp [extendedAddress, Statement.linkerFields, hop, hoperands]
          | cons operand rest =>
              cases hnumber : operand.number? with
              | some value =>
                  simp [extendedAddress, Statement.linkerFields, hop, hoperands, hnumber]
              | none =>
                  simp [extendedAddress, Statement.linkerFields, hop, hoperands, hnumber, hfour]
      | false =>
          rw [relocations_of_not_extended sect base hlaid hop]
          cases hoperands : statement.operands with
          | nil => simp [Statement.linkerFields, hop, hoperands]
          | cons operand rest => simp [Statement.linkerFields, hop, hoperands, hfour]
  | directive directive =>
      simp only [ofStatement, hop, Statement.linkerFields]
      cases directive with
      | word =>
          simp only [ofDirective, wordValue]
          split
          · next hoperands => simp [hoperands]
          · next hoperands =>
              split
              · next hexternal => simp [hoperands, hexternal]
              · next hhere => split <;> simp [hoperands, hhere]
          · next hoperands => simp [hoperands]
          · simp
      | byte => dsimp only [ofDirective]; split <;> rfl
      | ltorg => dsimp only [ofDirective]; split <;> rfl
      | endProgram => dsimp only [ofDirective]; split <;> rfl
      | _ => rfl
  | unknown text => simp [ofStatement, hop, Statement.linkerFields]

/-- **Left to the linker, zero here**: what a statement asks for lies within its code and is zero
there. -/
theorem zeroIn_ofStatement (hlaid : statement.LaidOut registry) {relocation : Relocation}
    (h : relocation ∈ statement.linkerFields sect) :
    relocation.ZeroIn (ofStatement registry sect base statement).statement := by
  have hrelocations := relocations_ofStatement sect base hlaid
  rcases Statement.mem_linkerFields h with
    ⟨mnemonic, extended, hop, hfour, haddress, hhalf⟩ | ⟨hop, haddress, hhalf⟩
  · rw [(length_eq_four_iff hlaid hop).mp hfour] at hop
    obtain ⟨⟨opcode, flags, hcode⟩, hasked⟩ := ofStatement_extended sect base hlaid hop
    have hzero : (extendedAddress sect statement.address statement.operands).1 = 0 := by
      apply extendedAddress_eq_zero
      rw [← hasked, hrelocations]
      exact List.ne_nil_of_mem h
    rw [hzero] at hcode
    obtain ⟨first, hbytes⟩ := format4_zero opcode flags
    rw [hbytes] at hcode
    refine ⟨by rw [hcode]; exact Nat.le_refl 4, ?_, ?_, ?_⟩
    · rw [address_ofStatement]
      omega
    · rw [address_ofStatement, hcode]
      simp only [List.length_cons, List.length_nil]
      omega
    · rw [address_ofStatement, hcode, haddress, Nat.add_sub_cancel_left, Relocation.field, hhalf]
      simp only [List.drop_succ_cons, List.drop_zero, List.take_succ_cons, List.take_zero,
        Bytes.toNat, List.foldl_cons, List.foldl_nil, UInt8.toNat_ofNat', UInt8.toNat_zero]
      omega
  · have hcode : (ofStatement registry sect base statement).statement.code =
        Bytes.ofWord (wordValue sect statement.address statement.operands).1 := by
      simp only [ofStatement, hop, ofDirective]
    have hasked : (ofStatement registry sect base statement).relocations =
        (wordValue sect statement.address statement.operands).2.1 := by
      simp only [ofStatement, hop, ofDirective]
    have hzero : (wordValue sect statement.address statement.operands).1 = 0 := by
      apply wordValue_eq_zero
      rw [← hasked, hrelocations]
      exact List.ne_nil_of_mem h
    rw [hzero] at hcode
    refine ⟨by rw [hcode]; exact Nat.le_succ 3, ?_, ?_, ?_⟩
    · rw [address_ofStatement]
      omega
    · rw [address_ofStatement, hcode, Bytes.length_ofWord]
      omega
    · rw [address_ofStatement, hcode, haddress, Nat.sub_self, Relocation.field, hhalf]
      rfl

/-- Encoding a statement does not change what it asks for. -/
theorem linkerFields_ofStatement :
    (ofStatement registry sect base statement).statement.linkerFields sect =
      statement.linkerFields sect := by
  obtain ⟨flags, code, contribution, h⟩ := statement_ofStatement registry sect base statement
  rw [h]
  rfl

theorem relocations_ofStatements {statements : List Statement}
    (hlaid : ∀ statement ∈ statements, statement.LaidOut registry) :
    (ofStatements registry sect base statements).flatMap Encoding.relocations =
      ((ofStatements registry sect base statements).map Encoding.statement).flatMap
        (Statement.linkerFields sect) := by
  induction statements generalizing base with
  | nil => rfl
  | cons first rest ih =>
      simp only [ofStatements, List.flatMap_cons, List.map_cons]
      rw [relocations_ofStatement sect base (hlaid first List.mem_cons_self),
        linkerFields_ofStatement,
        ih _ fun statement hmem => hlaid statement (List.mem_cons_of_mem _ hmem)]

end

end Encoding

/-! ## the relocations of a section -/

/-- Laying out leaves nothing to the linker. -/
theorem Layout.relocations_addLine (registry : Registry) (layout : Layout)
    (line : Nat × String) :
    (layout.addLine registry line).1.relocations = layout.relocations := by
  have hopen : ∀ statement, (layout.openSection statement).relocations = layout.relocations := by
    intro statement
    unfold openSection
    split <;> rfl
  have hobeyed : ∀ draft statement, ((layout.openSection draft).obeyed statement).relocations =
      layout.relocations := by
    intro draft statement
    obtain ⟨_, _, _, _, h⟩ := obeyed_eq (layout.openSection draft) statement
    rw [h]
    exact hopen draft
  have hadded := added_addLine registry layout line
  generalize layout.addLine registry line = result at hadded
  cases hadded with
  | blank => rfl
  | unreadable => rfl
  | unsized statement => exact hopen statement
  | unfit statement => exact hopen statement
  | overflowed statement => exact hobeyed statement _
  | kept statement => exact hobeyed statement _

namespace Program

theorem relocations_layoutOf (registry : Registry) (lines : List (Nat × String)) :
    (layoutOf registry lines).relocations = [] := by
  refine Layout.addLines_invariant (P := fun layout => layout.relocations = []) ?_ {}
    (fun h : False => h.elim) rfl
  intro layout line _ _ h
  rw [Layout.relocations_addLine, h]

section
variable {registry : Registry} {lines : List (Nat × String)}

theorem relocations_assembleSection (honce : OpenedOnce lines) :
    (assembleSection registry lines).1.relocations =
      (assembleSection registry lines).1.statements.flatMap
        (Statement.linkerFields (assembleSection registry lines).1) := by
  have hlaid : ∀ statement ∈ (layoutOf registry lines).statements, statement.LaidOut registry :=
    Layout.laidOut_of_mem honce
  rw [assembleSection_fst, relocations_layoutOf]
  exact Encoding.relocations_ofStatements (layoutOf registry lines).toSection none hlaid

/-- What a statement of an assembled section asks for is zero in its code. -/
theorem zeroIn_of_mem (honce : OpenedOnce lines) {statement : Statement}
    (h : statement ∈ (assembleSection registry lines).1.statements) {relocation : Relocation}
    (hasks : relocation ∈ statement.linkerFields (assembleSection registry lines).1) :
    relocation.ZeroIn statement := by
  obtain ⟨laid, hlaid, base, rfl⟩ := exists_laidOut_of_mem h
  apply Encoding.zeroIn_ofStatement _ _ (Layout.laidOut_of_mem honce laid hlaid)
  rw [← Encoding.linkerFields_ofStatement]
  exact hasks

/-- Code that fits a text record stands whole in one. -/
theorem held_of_mem (honce : OpenedOnce lines) {statement : Statement}
    (h : statement ∈ (assembleSection registry lines).1.statements) (entry : Option Nat)
    (hne : statement.code ≠ []) (hle : statement.code.length ≤ ObjectRecord.textCapacity) :
    ObjectRecord.Held statement.address statement.code
      (ObjectRecord.ofSection (assembleSection registry lines).1 entry) := by
  apply ObjectRecord.held_ofSection entry h _ hne hle
  obtain ⟨laid, hlaid, base, rfl⟩ := exists_laidOut_of_mem h
  exact Encoding.contribution_of_code_ne_nil _ _ (Layout.laidOut_of_mem honce laid hlaid) hne

/-- Inside the code of a statement, the text records hold no more than one byte at an address. -/
theorem length_bytesAt_le (honce : OpenedOnce lines)
    (hstays : StayInMemory (Layout.addLines registry {} lines).2.diagnostics)
    {statement : Statement} (h : statement ∈ (assembleSection registry lines).1.statements)
    (entry : Option Nat) {address : Nat} (hstart : statement.address ≤ address)
    (hstop : address < statement.address + statement.code.length) :
    (ObjectRecord.bytesAt (ObjectRecord.ofSection (assembleSection registry lines).1 entry)
      address).length ≤ 1 := by
  obtain ⟨k, rfl⟩ := Nat.exists_eq_add_of_le hstart
  have hfree : statement.reserves = false := by
    cases hreserves : statement.reserves with
    | true =>
        rw [code_eq_nil_of_mem honce h hreserves, List.length_nil] at hstop
        omega
    | false => rfl
  have hlength := length_code_of_mem honce hstays h hfree
  rw [bytesAt_of_mem honce hstays h entry (by omega)]
  cases statement.code[k]? <;> simp

end

/-- Where a record holds the code of a statement, it spans the fields the statement asks for. -/
theorem exists_spans_of_held {records : List ObjectRecord} {statement : Statement}
    {relocation : Relocation} (hzero : relocation.ZeroIn statement)
    (hheld : ObjectRecord.Held statement.address statement.code records) :
    ∃ start code, .text start code ∈ records ∧
      ObjectRecord.spans relocation.address 3 (.text start code) = true ∧
      relocation.field (code.drop (relocation.address - start)) = 0 := by
  obtain ⟨start, before, after, hmem, hstart⟩ := hheld
  obtain ⟨offset, hoffset⟩ := Nat.exists_eq_add_of_le hzero.start
  have hstop := hzero.stop
  have hlong : 3 ≤ (statement.code.drop offset).length := by
    rw [List.length_drop]
    omega
  refine ⟨start, _, hmem, ?_, ?_⟩
  · simp only [ObjectRecord.spans, List.length_append, Bool.and_eq_true, decide_eq_true_eq]
    omega
  · have hinside : relocation.address - start = before.length + offset := by omega
    have hfield := hzero.zero
    rw [hoffset, Nat.add_sub_cancel_left] at hfield
    rw [hinside, List.append_assoc, List.drop_length_add_append,
      List.drop_append_of_le_length (by omega), Relocation.field,
      List.take_append_of_le_length hlong]
    exact hfield

/-- **Relocations are the fields that are left zero.**  In a program that stays in memory, the
relocations of a section are what its statements ask for, one statement after another.  The three
bytes from the address of a relocation on lie whole in one text record of the section, and are zero
in the field that the linker fills. -/
theorem relocations_are_zero_fields (registry : Registry) (source : String)
    (hstays : StayInMemory (assemble registry source).diagnostics) (sect : Section)
    (hsect : sect ∈ (assemble registry source).sections) (entry : Option Nat) :
    sect.relocations = sect.statements.flatMap (Statement.linkerFields sect) ∧
    ∀ relocation ∈ sect.relocations, ∃ start code,
      (ObjectRecord.ofSection sect entry).filter (ObjectRecord.spans relocation.address 3) =
        [.text start code] ∧
      relocation.field (code.drop (relocation.address - start)) = 0 := by
  obtain ⟨lines, hlines, rfl⟩ := exists_lines_of_mem_sections hsect
  have honce := openedOnce_of_mem_cutSections _ lines hlines
  have hsection := stayInMemory_of_mem_cutSections hstays hlines
  have hasked : (assembleSection registry lines).1.relocations = _ :=
    relocations_assembleSection honce
  refine ⟨hasked, ?_⟩
  intro relocation hmem
  rw [hasked] at hmem
  obtain ⟨statement, hstatement, hasks⟩ := List.mem_flatMap.mp hmem
  have hzero := zeroIn_of_mem honce hstatement hasks
  have hstart := hzero.start
  have hstop := hzero.stop
  have hne : statement.code ≠ [] := by
    intro hempty
    rw [hempty, List.length_nil] at hstop
    omega
  have hheld := held_of_mem honce hstatement entry hne (Nat.le_trans hzero.short (by decide))
  obtain ⟨start, code, hrecord, hspans, hfield⟩ := exists_spans_of_held hzero hheld
  have hone := length_bytesAt_le honce hsection hstatement entry hstart (by omega)
  exact ⟨start, code,
    ObjectRecord.filter_spans_eq_singleton hrecord hspans (by decide) hone, hfield⟩

/-- A program that leaves fields of every kind to the linker, in two text records. -/
def linkedParts : String :=
  "P\tSTART\t0\n\tEXTREF\tEXT\n\t+LDA\tEXT\n\tWORD\tEXT\n\tRESB\t2\nQ\tWORD\tQ-P\n\t+LDA\t#P\n"

/-- The section of `linkedParts`. -/
def linkedSection : Section :=
  (assemble loadRegistry linkedParts).sections.headD {}

theorem linkedParts_facts :
    (assemble loadRegistry linkedParts).diagnostics = [] ∧
      linkedSection ∈ (assemble loadRegistry linkedParts).sections ∧
      linkedSection.relocations =
        [⟨1, 5, .plus, "EXT"⟩, ⟨4, 6, .plus, "EXT"⟩, ⟨9, 6, .plus, "Q"⟩, ⟨9, 6, .minus, "P"⟩,
          ⟨13, 5, .plus, "P"⟩] := by
  decide +kernel

/-- What the statements of `linkedParts` ask for, and the record that holds the last of it. -/
theorem relocations_are_zero_fields_linkedParts :
    linkedSection.statements.flatMap (Statement.linkerFields linkedSection) =
        [⟨1, 5, .plus, "EXT"⟩, ⟨4, 6, .plus, "EXT"⟩, ⟨9, 6, .plus, "Q"⟩, ⟨9, 6, .minus, "P"⟩,
          ⟨13, 5, .plus, "P"⟩] ∧
    ∃ start code, (ObjectRecord.ofSection linkedSection none).filter (ObjectRecord.spans 13 3) =
        [.text start code] ∧
      (⟨13, 5, .plus, "P"⟩ : Relocation).field (code.drop (13 - start)) = 0 := by
  obtain ⟨hquiet, hsect, hrelocations⟩ := linkedParts_facts
  have hstays : StayInMemory (assemble loadRegistry linkedParts).diagnostics := by
    rw [hquiet]
    exact List.forall_mem_nil _
  obtain ⟨hasked, hfields⟩ :=
    relocations_are_zero_fields loadRegistry linkedParts hstays linkedSection hsect none
  refine ⟨hasked.symm.trans hrelocations, hfields ⟨13, 5, .plus, "P"⟩ ?_⟩
  rw [hrelocations]
  decide

end Program

end SicXe
