import Mathlib.Algebra.Group.Int.Defs
import SicXe.Proofs.OperandReports
import SicXe.Proofs.OperandText

/-!
# SicXe.Proofs.NumberFields

Numbers in instructions of the extended form and in words.

A number is read with up to 24 bits and a sign, and cut to the field it goes to: 20 bits in an
instruction of the extended form, 24 bits in a word.  Neither asks whether the number fits, so the
field holds the number exactly if it is in range, and nothing is reported either way
(`number_fields_hold_value_iff`).  So there are programs that lose a number and report nothing
(`numbers_are_cut_silently`).
-/

namespace SicXe

/-! ## fields -/

/-- The address in four bytes of code: the last five half bytes. -/
def Statement.addressField? (statement : Statement) : Option Nat :=
  match statement.code with
  | [_, second, third, fourth] => some (Bytes.toNat [second, third, fourth] % 2 ^ 20)
  | _ => none

/-- The word in three bytes of code. -/
def Statement.word? (statement : Statement) : Option Nat :=
  match statement.code with
  | [first, second, third] => some (Bytes.toNat [first, second, third])
  | _ => none

/-- A word stands for a number: for itself, or, by its two's complement, for a negative number of 24
bits. -/
def StandsFor (word : Nat) (value : Int) : Prop :=
  if 0 ≤ value then (word : Int) = value
  else -2 ^ 23 ≤ value ∧ (word : Int) = value + 2 ^ 24

theorem Bytes.toNat_triple (first second third : UInt8) :
    Bytes.toNat [first, second, third] =
      65536 * first.toNat + 256 * second.toNat + third.toNat := by
  simp only [Bytes.toNat, List.foldl_cons, List.foldl_nil]
  omega

/-- A number that was cut to 24 bits is stood for by what is left, unless it is too far below 0. -/
theorem standsFor_of_cut {value : Int} (h : value.natAbs < wordSize) :
    StandsFor (value % wordSize).toNat value ↔ -2 ^ 23 ≤ value := by
  rw [wordSize] at *
  unfold StandsFor
  split <;> omega

namespace Encoding

/-- **Format 4 reads back**: the low 20 bits of the address. -/
theorem format4_eq (opcode : UInt8) (flags : AddressingFlags) (value : Int) :
    ∃ first second third fourth, format4 opcode flags value = [first, second, third, fourth] ∧
      Bytes.toNat [second, third, fourth] % 2 ^ 20 = (value % 2 ^ 20).toNat := by
  refine ⟨_, _, _, _, rfl, ?_⟩
  have hrelation := flags.relation_lt
  have hfield : (value % 2 ^ 20).toNat < 1048576 := by omega
  rw [show (0x100000 : Int) = 2 ^ 20 from rfl]
  generalize (value % 2 ^ 20).toNat = field at hfield
  rw [Bytes.toNat_triple]
  simp only [UInt8.toNat_ofNat']
  omega

/-- **Words read back**: their low 24 bits. -/
theorem ofWord_eq (n : Nat) :
    ∃ first second third, Bytes.ofWord n = [first, second, third] ∧
      Bytes.toNat [first, second, third] = n % wordSize := by
  refine ⟨_, _, _, rfl, ?_⟩
  rw [Bytes.toNat_triple, wordSize]
  simp only [UInt8.toNat_ofNat']
  omega

/-! ## statements with a number -/

section
variable {registry : Registry} {statement : Statement} {operand : Operand} {value : Int}

theorem extendedAddress_of_number (sect : Section) (start : Nat) {operands : List Operand}
    (hfirst : operands.head? = some operand) (hvalue : operand.number? = some value) :
    extendedAddress sect start operands = (value, [], []) := by
  obtain ⟨rest, rfl⟩ := List.head?_eq_some_iff.mp hfirst
  simp only [extendedAddress, hvalue]

/-- A word takes a number only as its single operand, and not in another way of addressing. -/
theorem operands_of_word (hlaid : statement.LaidOut registry)
    (hop : statement.operator = .directive .word) (hfirst : statement.operands.head? = some operand)
    (hvalue : operand.number? = some value) : statement.operands = [.number value] := by
  have hplaces : statement.placesLiterals = false := Statement.placesLiterals_eq hop
  have hlength := hlaid.length hplaces
  simp only [Layout.lengthOf, hop] at hlength
  split at hlength
  · next number hoperands =>
      rw [hoperands] at hfirst
      cases hfirst
      cases hvalue
      exact hoperands
  · next name hoperands =>
      rw [hoperands] at hfirst
      cases hfirst
      cases hvalue
  · next minuend subtrahend hoperands =>
      rw [hoperands] at hfirst
      cases hfirst
      cases hvalue
  · cases hlength

end

end Encoding

/-! ## numbers of a source text -/

/-- A number is read with 24 bits and a sign. -/
theorem Operand.natAbs_lt_of_mem_readAll {field : String} {operands : List Operand} {value : Int}
    (h : readAll field = .ok operands) (hmem : .number value ∈ operands) :
    value.natAbs < wordSize :=
  readable_of_mem_readAll h hmem (.number value.natAbs) (by simp [tokens])

/-- The operands of a draft were read from a field of its line. -/
theorem Layout.exists_readAll_of_draft {registry : Registry} {number : Nat} {text : String}
    {statement : Statement} (h : draft registry number text = .ok (some statement))
    (hne : statement.operands ≠ []) :
    ∃ fields field, LineFields.read text = .ok (some fields) ∧ fields.operands = some field ∧
      Operand.readAll field = .ok statement.operands := by
  obtain ⟨fields, hread, hfields⟩ := exists_fields_of_draft h
  unfold draftFields at hfields
  dsimp only at hfields
  split at hfields
  · cases hfields
    exact absurd rfl hne
  · next field hfield =>
      split at hfields
      · cases hfields
      · next operands hall =>
          cases hfields
          exact ⟨fields, field, hread, hfield, hall⟩

/-- The numbers of a draft have 24 bits and a sign. -/
theorem Layout.natAbs_lt_of_draft {registry : Registry} {number : Nat} {text : String}
    {statement : Statement} (h : draft registry number text = .ok (some statement)) {value : Int}
    (hvalue : .number value ∈ statement.operands) : value.natAbs < wordSize := by
  obtain ⟨-, field, -, -, hread⟩ := exists_readAll_of_draft h (List.ne_nil_of_mem hvalue)
  exact Operand.natAbs_lt_of_mem_readAll hread hvalue

namespace Program

section
variable {registry : Registry} {source : String} {sect : Section} {statement : Statement}

/-- The numbers of an assembled program have 24 bits and a sign. -/
theorem natAbs_lt_of_mem (hsect : sect ∈ (assemble registry source).sections)
    (hmem : statement ∈ sect.statements) {value : Int}
    (hvalue : .number value ∈ statement.operands) : value.natAbs < wordSize := by
  obtain ⟨laid, base, -, hencoding, rfl⟩ := exists_encoding_of_mem hsect hmem
  obtain ⟨line, -, drafted, hdraft, -, -, hoperands⟩ := exists_draft_of_mem_encodings hencoding
  exact Layout.natAbs_lt_of_draft hdraft (hoperands ▸ hvalue)

/-- Whether nothing on a line is reported about a name or a value in an operand. -/
def SilentOn (program : Program) (line : Nat) : Prop :=
  ∀ fault, ⟨line, fault⟩ ∈ program.diagnostics → fault.ofOperand = false

/-- An instruction of the extended form holds the low 20 bits of its number, in silence. -/
theorem addressField_of_number (hsect : sect ∈ (assemble registry source).sections)
    (hmem : statement ∈ sect.statements) {mnemonic : String} {extended : Bool}
    (hop : statement.operator = .instruction mnemonic extended) (hlength : statement.length = 4)
    {operand : Operand} (hfirst : statement.operands.head? = some operand) {value : Int}
    (hvalue : operand.number? = some value) :
    statement.addressField? = some (value % 2 ^ 20).toNat ∧
      (assemble registry source).SilentOn statement.line := by
  rw [extended_of_length_eq_four hsect hmem hop hlength] at hop
  have haddress := Encoding.extendedAddress_of_number sect statement.address hfirst hvalue
  constructor
  · obtain ⟨laid, base, hlaid, -, rfl⟩ := exists_encoding_of_mem hsect hmem
    rw [Encoding.operator_ofStatement] at hop
    rw [Encoding.address_ofStatement, Encoding.operands_ofStatement] at haddress
    obtain ⟨⟨opcode, flags, hcode⟩, -⟩ := Encoding.ofStatement_extended sect base hlaid hop
    obtain ⟨first, second, third, fourth, hbytes, hfield⟩ :=
      Encoding.format4_eq opcode flags value
    rw [Statement.addressField?, hcode, haddress, hbytes]
    exact congrArg some hfield
  · intro fault hreported
    by_contra hkind
    rw [reported_iff_of_extended hsect hmem hop (by simpa using hkind), haddress] at hreported
    cases hreported

/-- A word holds the low 24 bits of its number, in silence. -/
theorem word_of_number (hsect : sect ∈ (assemble registry source).sections)
    (hmem : statement ∈ sect.statements) (hop : statement.operator = .directive .word)
    {operand : Operand} (hfirst : statement.operands.head? = some operand) {value : Int}
    (hvalue : operand.number? = some value) :
    value.natAbs < wordSize ∧ statement.word? = some (value % wordSize).toNat ∧
      (assemble registry source).SilentOn statement.line := by
  have hoperands : statement.operands = [.number value] := by
    obtain ⟨laid, base, hlaid, -, rfl⟩ := exists_encoding_of_mem hsect hmem
    rw [Encoding.operator_ofStatement] at hop
    rw [Encoding.operands_ofStatement] at hfirst ⊢
    exact Encoding.operands_of_word hlaid hop hfirst hvalue
  refine ⟨natAbs_lt_of_mem hsect hmem (by simp [hoperands]), ?_, ?_⟩
  · obtain ⟨laid, base, hlaid, -, rfl⟩ := exists_encoding_of_mem hsect hmem
    rw [Encoding.operator_ofStatement] at hop
    rw [Encoding.operands_ofStatement] at hoperands
    obtain ⟨first, second, third, hbytes, hword⟩ :=
      Encoding.ofWord_eq (value % wordSize).toNat
    rw [Statement.word?, (Encoding.ofStatement_word sect base hop).1, hoperands,
      Encoding.wordValue, hbytes]
    refine congrArg some (hword.trans (Nat.mod_eq_of_lt ?_))
    rw [wordSize]
    omega
  · intro fault hreported
    by_contra hkind
    rw [reported_iff_of_word hsect hmem hop (by simpa using hkind), hoperands] at hreported
    cases hreported

end

/-- **Numbers are held exactly if they are in range.**  Let the first operand of a kept statement be
a number, whichever way it is addressed.  If the statement is an instruction of four bytes, its
address field is the number if and only if that is one of 0 to 2²⁰ - 1.  If it is a word, its code
stands for the number if and only if that is at least -2²³.  In both cases nothing on the line says
that a value does not fit, or anything else about the operand. -/
theorem number_fields_hold_value_iff (registry : Registry) (source : String) (sect : Section)
    (hsect : sect ∈ (assemble registry source).sections) (statement : Statement)
    (hmem : statement ∈ sect.statements) (operand : Operand)
    (hfirst : statement.operands.head? = some operand) (value : Int)
    (hvalue : operand.number? = some value) :
    (∀ mnemonic extended, statement.operator = .instruction mnemonic extended →
      statement.length = 4 →
      (∃ field, statement.addressField? = some field ∧
        ((field : Int) = value ↔ 0 ≤ value ∧ value < 2 ^ 20)) ∧
      (assemble registry source).SilentOn statement.line) ∧
    (statement.operator = .directive .word →
      (∃ word, statement.word? = some word ∧ (StandsFor word value ↔ -2 ^ 23 ≤ value)) ∧
      (assemble registry source).SilentOn statement.line) := by
  constructor
  · intro mnemonic extended hop hlength
    obtain ⟨hfield, hsilent⟩ := addressField_of_number hsect hmem hop hlength hfirst hvalue
    exact ⟨⟨_, hfield, by omega⟩, hsilent⟩
  · intro hop
    obtain ⟨hbound, hword, hsilent⟩ := word_of_number hsect hmem hop hfirst hvalue
    exact ⟨⟨_, hword, standsFor_of_cut hbound⟩, hsilent⟩

/-- A program that loads a number by an instruction of the extended form. -/
def longLoad (number : String) : String := "P\tSTART\t0\n\t+LDA\t#" ++ number ++ "\n"

/-- A program of a word that is too far below 0. -/
def lowWord : String := "P\tSTART\t0\n\tWORD\t-16777215\n"

/-- `longLoad` with the last number that its field can hold and with the next one. -/
theorem longLoad_facts {number : Nat} (h : number = 1048575 ∨ number = 1048576) :
    (assemble loadRegistry (longLoad (Text.decimal number))).diagnostics = [] ∧
    onlySection (longLoad (Text.decimal number)) ∈
      (assemble loadRegistry (longLoad (Text.decimal number))).sections ∧
    lastStatement (longLoad (Text.decimal number)) ∈
      (onlySection (longLoad (Text.decimal number))).statements ∧
    (lastStatement (longLoad (Text.decimal number))).operator = .instruction "LDA" true ∧
    (lastStatement (longLoad (Text.decimal number))).length = 4 ∧
    (lastStatement (longLoad (Text.decimal number))).operands.head? =
      some (.immediate (.number number)) := by
  rcases h with rfl | rfl
  · decide +kernel
  · decide +kernel

theorem lowWord_facts :
    (assemble loadRegistry lowWord).diagnostics = [] ∧
    onlySection lowWord ∈ (assemble loadRegistry lowWord).sections ∧
    lastStatement lowWord ∈ (onlySection lowWord).statements ∧
    (lastStatement lowWord).operator = .directive .word ∧
    (lastStatement lowWord).operands.head? = some (.number (-16777215)) ∧
    (lastStatement lowWord).word? = some 1 := by
  decide +kernel

/-- The last number that fits is held by `longLoad`, and the number of `lowWord` is not. -/
theorem number_fields_of_longLoad_and_lowWord :
    (∃ field, (lastStatement (longLoad "1048575")).addressField? = some field ∧
      (field : Int) = 1048575) ∧
    ∃ word, (lastStatement lowWord).word? = some word ∧ ¬ StandsFor word (-16777215) := by
  constructor
  · obtain ⟨-, hsect, hmem, hop, hlength, hfirst⟩ := longLoad_facts (Or.inl rfl)
    obtain ⟨field, hfield, hiff⟩ := ((number_fields_hold_value_iff loadRegistry _ _ hsect _ hmem _
      hfirst 1048575 rfl).1 _ _ hop hlength).1
    exact ⟨field, hfield, hiff.mpr (by decide)⟩
  · obtain ⟨-, hsect, hmem, hop, hfirst, -⟩ := lowWord_facts
    obtain ⟨word, hword, hiff⟩ := ((number_fields_hold_value_iff loadRegistry _ _ hsect _ hmem _
      hfirst (-16777215) rfl).2 hop).1
    exact ⟨word, hword, mt hiff.mp (by decide)⟩

/-- **Numbers are cut silently**: there are numbers on whose lines nothing is reported, and which
neither the address of an instruction of four bytes nor a word holds. -/
theorem numbers_are_cut_silently :
    (¬ ∀ (registry : Registry) (source : String) (sect : Section),
      sect ∈ (assemble registry source).sections →
      ∀ statement ∈ sect.statements, ∀ mnemonic extended,
        statement.operator = .instruction mnemonic extended → statement.length = 4 →
        ∀ operand value, statement.operands.head? = some operand →
          operand.number? = some value →
          (assemble registry source).diagnosticsOn statement.line = [] →
          ∃ field, statement.addressField? = some field ∧ (field : Int) = value) ∧
    (¬ ∀ (registry : Registry) (source : String) (sect : Section),
      sect ∈ (assemble registry source).sections →
      ∀ statement ∈ sect.statements, statement.operator = .directive .word →
        ∀ operand value, statement.operands.head? = some operand →
          operand.number? = some value →
          (assemble registry source).diagnosticsOn statement.line = [] →
          ∃ word, statement.word? = some word ∧ StandsFor word value) := by
  constructor
  · intro h
    obtain ⟨hquiet, hsect, hmem, hop, hlength, hfirst⟩ := longLoad_facts (Or.inr rfl)
    obtain ⟨field, hfield, hsame⟩ := h loadRegistry _ _ hsect _ hmem _ _ hop hlength _ 1048576
      hfirst rfl (by rw [diagnosticsOn, hquiet]; rfl)
    obtain ⟨hheld, -⟩ := addressField_of_number hsect hmem hop hlength hfirst rfl
    rw [hheld] at hfield
    cases hfield
    revert hsame
    decide
  · intro h
    obtain ⟨hquiet, hsect, hmem, hop, hfirst, hheld⟩ := lowWord_facts
    obtain ⟨word, hword, hstands⟩ := h loadRegistry _ _ hsect _ hmem hop _ (-16777215) hfirst rfl
      (by rw [diagnosticsOn, hquiet]; rfl)
    rw [hheld] at hword
    cases hword
    revert hstands
    unfold StandsFor
    decide

end Program

end SicXe
