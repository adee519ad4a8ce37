import SicXe.Proofs.Displacement
import SicXe.Proofs.LineAccounts
import SicXe.Proofs.Relocations

/-!
# SicXe.Proofs.OperandReports

What is reported about the operands of a statement.

A name that cannot be resolved and a value that does not fit its field are reported in three places:
while `EQU` is laid out, while a statement is encoded, and while the entry address is looked up,
which is about `END`.  So on the line of any other statement such a report comes from its own
encoding (`mem_diagnostics_iff_mem_operandFaults`).  For an instruction of the extended form that is
what its address has to report (`reported_iff_of_extended`), and for a word what its value has
(`reported_iff_of_word`).
-/

namespace SicXe

/-- Whether a fault says that a name or a value in an operand cannot be used as it is. -/
def Fault.ofOperand : Fault → Bool
  | unresolvedReference _ | displacementOutOfRange _ | valueOutOfRange _ => true
  | _ => false

theorem Fault.ofOperand_of_ofReading {fault : Fault} (h : fault.ofReading = true) :
    fault.ofOperand = false := by
  cases fault with
  | malformedLine error => rfl
  | invalidValue text => rfl
  | _ => cases h

/-! ## laying out -/

namespace Layout

/-- Entering a statement reports on its operands only for `EQU`. -/
theorem directive?_of_mem_enterFaults {layout : Layout} {statement : Statement} {fault : Fault}
    (h : fault ∈ layout.enterFaults statement) (hkind : fault.ofOperand = true) :
    statement.directive? = some .equ := by
  rw [enterFaults, List.mem_append, List.mem_append] at h
  rcases h with (hoperator | hlabel) | hdirective
  · unfold operatorFaults at hoperator
    split at hoperator
    · rw [List.mem_singleton.mp hoperator] at hkind
      cases hkind
    · simp at hoperator
  · unfold labelFaults at hlabel
    split at hlabel
    · simp at hlabel
    · split at hlabel
      · rw [List.mem_singleton.mp hlabel] at hkind
        cases hkind
      · simp at hlabel
  · unfold directiveFaults at hdirective
    split at hdirective
    · next hequ => exact hequ.1
    · simp at hdirective

/-- Adding a line reports on operands only if it holds an `EQU`. -/
theorem exists_equ_of_mem_addLine {registry : Registry} {layout : Layout} {line : Nat × String}
    {diagnostic : Diagnostic} (h : diagnostic ∈ (layout.addLine registry line).2.diagnostics)
    (hkind : diagnostic.fault.ofOperand = true) :
    ∃ statement, draft registry line.1 line.2 = .ok (some statement) ∧
      statement.directive? = some .equ := by
  have hadded := added_addLine registry layout line
  generalize layout.addLine registry line = result at hadded h
  cases hadded with
  | blank => simp at h
  | unreadable fault hdraft =>
      obtain rfl : diagnostic = ⟨line.1, fault⟩ := by simpa using h
      rw [Fault.ofOperand_of_ofReading (ofReading_of_draft hdraft)] at hkind
      cases hkind
  | unsized statement fault events hdraft hlength =>
      obtain rfl : diagnostic = ⟨line.1, fault⟩ := by simpa using h
      rw [Fault.ofOperand_of_ofReading (ofReading_of_lengthOf hlength)] at hkind
      cases hkind
  | unfit =>
      obtain rfl : diagnostic = ⟨line.1, .addressOverflow⟩ := by simpa using h
      cases hkind
  | overflowed statement length events hdraft hlength hfits hsized =>
      rw [Journal.diagnostics_ofLine] at h
      obtain ⟨fault, hfault, rfl⟩ := List.mem_map.mp h
      rcases List.mem_append.mp hfault with hentered | hlast
      · have hequ := directive?_of_mem_enterFaults hentered hkind
        exact ⟨statement, hdraft, hequ⟩
      · rw [List.mem_singleton.mp hlast] at hkind
        cases hkind
  | kept statement length events hdraft hlength hfits =>
      rw [Journal.diagnostics_ofLine] at h
      obtain ⟨fault, hfault, rfl⟩ := List.mem_map.mp h
      have hequ := directive?_of_mem_enterFaults hfault hkind
      exact ⟨statement, hdraft, hequ⟩

theorem exists_equ_of_mem_addLines {registry : Registry} {layout : Layout}
    {lines : List (Nat × String)} {diagnostic : Diagnostic}
    (h : diagnostic ∈ (layout.addLines registry lines).2.diagnostics)
    (hkind : diagnostic.fault.ofOperand = true) :
    ∃ line ∈ lines, line.1 = diagnostic.line ∧
      ∃ statement, draft registry line.1 line.2 = .ok (some statement) ∧
        statement.directive? = some .equ := by
  induction lines generalizing layout with
  | nil => simp [addLines] at h
  | cons line rest ih =>
      rw [addLines, Journal.diagnostics_append, List.mem_append] at h
      rcases h with hfirst | hrest
      · exact ⟨line, List.mem_cons_self, (ofLayout_of_mem_addLine hfirst).1.symm,
          exists_equ_of_mem_addLine hfirst hkind⟩
      · obtain ⟨other, hother, hfound⟩ := ih hrest
        exact ⟨other, List.mem_cons_of_mem _ hother, hfound⟩

end Layout

/-! ## encoding -/

namespace Encoding

theorem ofOperand_of_mem_countFaults {instruction : Instruction} {operands : List Operand}
    {fault : Fault} (h : fault ∈ countFaults instruction operands) : fault.ofOperand = false := by
  rw [eq_of_mem_unless h]
  rfl

/-- An instruction of the extended form reports on its operands what its address reports. -/
theorem mem_faults_of_extended {registry : Registry} {statement : Statement} {mnemonic : String}
    (sect : Section) (base : Option Nat) (hlaid : statement.LaidOut registry)
    (hop : statement.operator = .instruction mnemonic true) {fault : Fault}
    (hkind : fault.ofOperand = true) :
    fault ∈ (ofStatement registry sect base statement).faults ↔
      fault ∈ (extendedAddress sect statement.address statement.operands).2.2 := by
  obtain ⟨found, hget, -, -⟩ := length_of_instruction hlaid hop
  have hlength := (length_eq_four_iff hlaid hop).mpr rfl
  simp only [ofStatement, hop, hget, ofInstruction, hlength, if_true, List.mem_append]
  refine or_iff_right fun hcount => ?_
  rw [ofOperand_of_mem_countFaults hcount] at hkind
  cases hkind

/-- A word holds the value of its operands, and reports what that reports. -/
theorem ofStatement_word {registry : Registry} {statement : Statement} (sect : Section)
    (base : Option Nat) (hop : statement.operator = .directive .word) :
    (ofStatement registry sect base statement).statement.code =
        Bytes.ofWord (wordValue sect statement.address statement.operands).1 ∧
      (ofStatement registry sect base statement).faults =
        (wordValue sect statement.address statement.operands).2.2 := by
  simp only [ofStatement, hop, ofDirective, and_self]

end Encoding

/-! ## programs -/

namespace Program

section
variable {registry : Registry} {source : String}

/-- An encoded statement is the draft of the line it stands on. -/
theorem exists_draft_of_mem_encodings {encoding : Encoding}
    (h : encoding ∈ encodings registry source) :
    ∃ line ∈ numberedLines source, ∃ drafted,
      Layout.draft registry line.1 line.2 = .ok (some drafted) ∧
      line.1 = encoding.statement.line ∧
      drafted.operator = encoding.statement.operator ∧
      drafted.operands = encoding.statement.operands := by
  obtain ⟨lines, hlines, hin⟩ := List.mem_flatMap.mp h
  obtain ⟨laid, hlaid, base, rfl⟩ := Encoding.exists_of_mem_ofStatements hin
  obtain ⟨line, hline, drafted, address, length, hdraft, rfl⟩ :=
    Layout.exists_draft_of_mem_addLines laid hlaid
  refine ⟨line, mem_numberedLines_of_mem_section hlines hline, drafted, hdraft, ?_, ?_, ?_⟩
  · rw [Encoding.line_ofStatement]
    exact (Layout.drafted_draft hdraft).line.symm
  · rw [Encoding.operator_ofStatement]
  · rw [Encoding.operands_ofStatement]

/-- What is reported about an operand comes from `EQU`, from `END`, or from encoding. -/
theorem exists_origin_of_mem_diagnostics {diagnostic : Diagnostic}
    (h : diagnostic ∈ (assemble registry source).diagnostics)
    (hkind : diagnostic.fault.ofOperand = true) :
    (∃ line ∈ numberedLines source, line.1 = diagnostic.line ∧
      ∃ statement, Layout.draft registry line.1 line.2 = .ok (some statement) ∧
        statement.directive? = some .equ) ∨
    (∃ encoding ∈ encodings registry source, encoding.statement.line = diagnostic.line ∧
      (encoding.statement.directive? = some .endProgram ∨ diagnostic.fault ∈ encoding.faults)) := by
  rcases origin_of_mem_diagnostics h with
    houtside | ⟨lines, hlines, hlaid⟩ | ⟨text, hunplaced⟩ |
    ⟨encoding, hencoding, hline, hfault⟩ | hentry
  · rw [houtside] at hkind
    cases hkind
  · obtain ⟨line, hline, hfound⟩ := Layout.exists_equ_of_mem_addLines hlaid hkind
    exact Or.inl ⟨line, mem_numberedLines_of_mem_section hlines hline, hfound⟩
  · rw [hunplaced] at hkind
    cases hkind
  · exact Or.inr ⟨encoding, hencoding, hline, Or.inr hfault⟩
  · obtain ⟨statement, hmem, hends, hline, -⟩ := exists_end_of_findEntry hentry
    have hall : statement ∈ (assemble registry source).statements := hmem
    rw [statements_assemble] at hall
    obtain ⟨encoding, hencoding, rfl⟩ := List.mem_map.mp hall
    exact Or.inr ⟨encoding, hencoding, hline, Or.inl hends⟩

/-- **Reports on operands**: on the line of a statement other than `EQU` and `END`, a name or a
value is reported exactly if the encoding of the statement reports it. -/
theorem mem_diagnostics_iff_mem_operandFaults {encoding : Encoding}
    (hencoding : encoding ∈ encodings registry source)
    (hequ : encoding.statement.directive? ≠ some .equ)
    (hend : encoding.statement.directive? ≠ some .endProgram) {fault : Fault}
    (hkind : fault.ofOperand = true) :
    ⟨encoding.statement.line, fault⟩ ∈ (assemble registry source).diagnostics ↔
      fault ∈ encoding.faults := by
  constructor
  · intro h
    rcases exists_origin_of_mem_diagnostics h hkind with
      ⟨line, hline, hnumber, statement, hdraft, hdirective⟩ |
      ⟨other, hother, hsame, hends | hfault⟩
    · -- The statement is the draft of its line, and so it is the `EQU`.
      obtain ⟨own, hown, drafted, hdrafted, hownNumber, hoperator, -⟩ :=
        exists_draft_of_mem_encodings hencoding
      have hlines : own = line := eq_of_mem_numberedLines hown hline (hownNumber.trans hnumber.symm)
      rw [hlines, hdraft] at hdrafted
      cases hdrafted
      rw [Statement.directive?, hoperator] at hdirective
      exact absurd hdirective hequ
    · rw [eq_of_line_eq hencoding hother hsame] at hends
      exact absurd hends hend
    · rw [← eq_of_line_eq hencoding hother hsame]
      exact hfault
  · exact mem_diagnostics_of_mem_faults hencoding

/-- A statement of an assembled section is the encoding of one that was laid out. -/
theorem exists_encoding_of_mem {sect : Section}
    (hsect : sect ∈ (assemble registry source).sections) {statement : Statement}
    (hmem : statement ∈ sect.statements) :
    ∃ laid base, laid.LaidOut registry ∧
      Encoding.ofStatement registry sect base laid ∈ encodings registry source ∧
      (Encoding.ofStatement registry sect base laid).statement = statement := by
  obtain ⟨before, after, hsplit⟩ := List.append_of_mem hmem
  obtain ⟨laid, hlaid, hencoding, hstatement⟩ := exists_encoding_of_split hsect hsplit
  exact ⟨laid, _, hlaid, hencoding, hstatement⟩

/-- An instruction of four bytes is of the extended form. -/
theorem extended_of_length_eq_four {sect : Section}
    (hsect : sect ∈ (assemble registry source).sections) {statement : Statement}
    (hmem : statement ∈ sect.statements) {mnemonic : String} {extended : Bool}
    (hop : statement.operator = .instruction mnemonic extended) (hlength : statement.length = 4) :
    extended = true := by
  obtain ⟨laid, base, hlaid, -, rfl⟩ := exists_encoding_of_mem hsect hmem
  rw [Encoding.operator_ofStatement] at hop
  rw [Encoding.length_ofStatement] at hlength
  exact (Encoding.length_eq_four_iff hlaid hop).mp hlength

/-- On the line of an instruction of the extended form, the operands are reported exactly as its
address says. -/
theorem reported_iff_of_extended {sect : Section}
    (hsect : sect ∈ (assemble registry source).sections) {statement : Statement}
    (hmem : statement ∈ sect.statements) {mnemonic : String}
    (hop : statement.operator = .instruction mnemonic true) {fault : Fault}
    (hkind : fault.ofOperand = true) :
    ⟨statement.line, fault⟩ ∈ (assemble registry source).diagnostics ↔
      fault ∈ (Encoding.extendedAddress sect statement.address statement.operands).2.2 := by
  obtain ⟨laid, base, hlaid, hencoding, rfl⟩ := exists_encoding_of_mem hsect hmem
  rw [Encoding.operator_ofStatement] at hop
  rw [mem_diagnostics_iff_mem_operandFaults hencoding _ _ hkind,
    Encoding.mem_faults_of_extended sect base hlaid hop hkind, Encoding.address_ofStatement,
    Encoding.operands_ofStatement]
  · simp [Statement.directive?, hop, Operator.directive?]
  · simp [Statement.directive?, hop, Operator.directive?]

/-- On the line of a word, the operands are reported exactly as its value says. -/
theorem reported_iff_of_word {sect : Section}
    (hsect : sect ∈ (assemble registry source).sections) {statement : Statement}
    (hmem : statement ∈ sect.statements) (hop : statement.operator = .directive .word)
    {fault : Fault} (hkind : fault.ofOperand = true) :
    ⟨statement.line, fault⟩ ∈ (assemble registry source).diagnostics ↔
      fault ∈ (Encoding.wordValue sect statement.address statement.operands).2.2 := by
  obtain ⟨laid, base, hlaid, hencoding, rfl⟩ := exists_encoding_of_mem hsect hmem
  rw [Encoding.operator_ofStatement] at hop
  rw [mem_diagnostics_iff_mem_operandFaults hencoding _ _ hkind,
    (Encoding.ofStatement_word sect base hop).2, Encoding.address_ofStatement,
    Encoding.operands_ofStatement]
  · simp [Statement.directive?, hop, Operator.directive?]
  · simp [Statement.directive?, hop, Operator.directive?]

end

/-- The section of a program that has only one. -/
def onlySection (source : String) : Section :=
  (assemble loadRegistry source).sections.headD {}

/-- The last statement of a program that has only one section. -/
def lastStatement (source : String) : Statement :=
  (onlySection source).statements.getLastD { line := 0, operator := .unknown "" }

end Program

end SicXe
