import SicXe.Proofs.KeptStatements
import SicXe.Proofs.OperandReports

/-!
# SicXe.Proofs.SectionReports

What a program reports on a line of one of its sections.

No other section and no line outside has the number of such a line, so what is reported on it comes
from its own section, or is about the entry address (`diagnosticsOn_perm`).  What is reported about
the label of a statement is what laying its section out reports about it
(`filter_ofDefinition_perm`), and so it is with literals that are not placed
(`filter_isUnplaced_perm`).
-/

namespace SicXe

/-- Whether a fault is about the label of a statement: it is defined before, or the operands of
`EQU` give it no value. -/
def Fault.ofDefinition (directive : Option Directive) : Fault → Bool
  | duplicateSymbol _ => true
  | unresolvedReference _ | malformedLine _ => directive = some .equ
  | _ => false

/-- Whether a fault says that a literal was not placed. -/
def Fault.isUnplaced : Fault → Bool
  | unplacedLiteral _ => true
  | _ => false

theorem Fault.isUnplaced_of_ofLayout {fault : Fault} (h : fault.ofLayout = true) :
    fault.isUnplaced = false := by
  cases fault with
  | unplacedLiteral text => cases h
  | _ => rfl

theorem Fault.isUnplaced_of_whileEncoding {fault : Fault} (h : fault.whileEncoding = true) :
    fault.isUnplaced = false := by
  cases fault with
  | unplacedLiteral text => cases h
  | _ => rfl

theorem Fault.isUnplaced_of_ofOperand {fault : Fault} (h : fault.ofOperand = true) :
    fault.isUnplaced = false := by
  cases fault with
  | unplacedLiteral text => cases h
  | _ => rfl

/-- Nothing is reported on a line that no report is on. -/
theorem Diagnostic.filter_line_eq_nil {diagnostics : List Diagnostic} {number : Nat}
    (h : number ∉ diagnostics.map Diagnostic.line) :
    (diagnostics.filter fun diagnostic => diagnostic.line = number) = [] := by
  simp only [List.filter_eq_nil_iff, decide_eq_true_eq]
  rintro diagnostic hmem rfl
  exact h (List.mem_map_of_mem hmem)

/-- Encoding a statement reports nothing about its label. -/
theorem Encoding.ofDefinition_of_mem_ofStatement {registry : Registry} {sect : Section}
    {base : Option Nat} {statement : Statement} {fault : Fault}
    (h : fault ∈ (ofStatement registry sect base statement).faults) :
    fault.ofDefinition statement.operator.directive? = false := by
  by_cases hequ : statement.operator = .directive .equ
  · simp [ofStatement, hequ, ofDirective] at h
  · have hother : statement.operator.directive? ≠ some .equ := by
      cases hop : statement.operator with
      | directive directive =>
          rw [hop] at hequ
          simpa [Operator.directive?] using hequ
      | _ => simp [Operator.directive?]
    cases fault with
    | duplicateSymbol name => cases whileEncoding_of_mem_ofStatement h
    | unresolvedReference name => exact decide_eq_false hother
    | malformedLine error => exact decide_eq_false hother
    | _ => rfl

namespace Program

section
variable {registry : Registry} {source : String} {lines : List (Nat × String)}

/-- What is reported about the entry address of a program. -/
def entryDiagnostics (registry : Registry) (source : String) : List Diagnostic :=
  match findEntry ((sectionResults registry source).2.map Prod.fst) with
  | .ok _ => []
  | .error diagnostic => [diagnostic]

theorem findEntry_of_mem_entryDiagnostics {diagnostic : Diagnostic}
    (h : diagnostic ∈ entryDiagnostics registry source) :
    findEntry (assemble registry source).sections = .error diagnostic := by
  rw [assemble, sections_ofResults]
  unfold entryDiagnostics at h
  split at h
  · simp at h
  · next found hfound => rw [hfound, List.mem_singleton.mp h]

/-- A fault of the entry address is about an operand. -/
theorem ofOperand_of_findEntry {sections : List Section} {diagnostic : Diagnostic}
    (h : findEntry sections = .error diagnostic) : diagnostic.fault.ofOperand = true := by
  obtain ⟨-, -, -, -, ⟨name, hfault⟩ | ⟨text, hfault⟩⟩ := exists_end_of_findEntry h <;>
    simp [hfault, Fault.ofOperand]

/-- What is reported about a section is about its lines. -/
theorem line_mem_of_mem_assembleSection {diagnostic : Diagnostic}
    (h : diagnostic ∈ (assembleSection registry lines).2.diagnostics) :
    diagnostic.line ∈ lines.map Prod.fst := by
  rw [diagnostics_assembleSection, List.mem_append, List.mem_append] at h
  rcases h with (hlaid | hunplaced) | hencoded
  · exact Layout.line_of_mem_addLines hlaid
  · obtain ⟨-, line, hline, hsame, -⟩ := Layout.line_of_mem_unplaced hunplaced
    exact hsame ▸ List.mem_map_of_mem hline
  · obtain ⟨encoding, hin, hdiagnostic⟩ := List.mem_flatMap.mp hencoded
    obtain ⟨fault, -, rfl⟩ := List.mem_map.mp hdiagnostic
    have hline : encoding.statement.line ∈
        (layoutOf registry lines).statements.map Statement.line := by
      rw [← map_line_encodingsOf]
      exact List.mem_map_of_mem hin
    exact mem_lines_of_mem_layoutOf hline

theorem filter_assembleSection_eq_nil {number : Nat} (h : number ∉ lines.map Prod.fst) :
    ((assembleSection registry lines).2.diagnostics.filter fun diagnostic =>
      diagnostic.line = number) = [] := by
  refine Diagnostic.filter_line_eq_nil fun hmem => ?_
  obtain ⟨diagnostic, hreported, rfl⟩ := List.mem_map.mp hmem
  exact h (line_mem_of_mem_assembleSection hreported)

/-- **Reports on a line of a section** are those of the section and those about the entry
address. -/
theorem diagnosticsOn_perm (registry : Registry)
    (hlines : lines ∈ (cutSections (numberedLines source)).2) {number : Nat}
    (hnumber : number ∈ lines.map Prod.fst) :
    ((assemble registry source).diagnosticsOn number).Perm
      (((assembleSection registry lines).2.diagnostics ++ entryDiagnostics registry source).filter
        fun diagnostic => diagnostic.line = number) := by
  have houtside : (outsideSections (cutSections (numberedLines source)).1).filter
      (fun diagnostic => diagnostic.line = number) = [] := by
    refine Diagnostic.filter_line_eq_nil fun hmem => ?_
    obtain ⟨diagnostic, hreported, rfl⟩ := List.mem_map.mp hmem
    obtain ⟨line, hline, -, rfl⟩ := mem_outsideSections.mp hreported
    exact notMem_section_of_outside hline hlines hnumber
  -- The other sections have lines of other numbers.
  obtain ⟨front, back, hsplit⟩ := List.append_of_mem hlines
  have hnodup : (((front ++ lines :: back).flatten).map Prod.fst).Nodup := by
    have hall := nodup_numberedLines source
    rw [← cutSections_flatten (numberedLines source), hsplit, List.map_append] at hall
    exact hall.of_append_right
  rw [List.flatten_append, List.flatten_cons, List.map_append, List.map_append] at hnodup
  have hothers : ∀ other ∈ front ++ back, number ∉ other.map Prod.fst := by
    intro other hother hin
    obtain ⟨line, hline, rfl⟩ := List.mem_map.mp hin
    have hflat : ∀ chunks : List (List (Nat × String)), other ∈ chunks →
        line.1 ∈ chunks.flatten.map Prod.fst := fun chunks h =>
      List.mem_map_of_mem (List.mem_flatten.mpr ⟨other, h, hline⟩)
    have hdisjoint := List.nodup_append'.mp hnodup
    rcases List.mem_append.mp hother with hfront | hback
    · exact hdisjoint.2.2 (hflat front hfront) (List.mem_append_left _ hnumber)
    · exact (List.nodup_append'.mp hdisjoint.2.1).2.2 hnumber (hflat back hback)
  have hempty : ∀ chunks : List (List (Nat × String)), (∀ other ∈ chunks, other ∈ front ++ back) →
      (chunks.flatMap fun other => (assembleSection registry other).2.diagnostics.filter
        fun diagnostic => diagnostic.line = number) = [] := by
    intro chunks hchunks
    rw [List.flatMap_eq_nil_iff]
    exact fun other hother => filter_assembleSection_eq_nil (hothers other (hchunks other hother))
  have hperm := (diagnostics_perm registry source).filter fun diagnostic =>
    diagnostic.line = number
  have hsections : sectionDiagnostics registry source =
      ((cutSections (numberedLines source)).2.flatMap fun other =>
        (assembleSection registry other).2.diagnostics) ++ entryDiagnostics registry source := by
    rw [sectionDiagnostics, sectionResults, List.flatMap_map]
    rfl
  rw [List.filter_append, houtside, List.nil_append, hsections, List.filter_append,
    List.filter_flatMap, hsplit, List.flatMap_append, List.flatMap_cons,
    hempty front (fun _ => List.mem_append_left _), hempty back (fun _ => List.mem_append_right _),
    List.nil_append, List.append_nil, ← List.filter_append] at hperm
  exact hperm

/-! ## reports about labels -/

/-- A statement of a section is the only one of the program on its line. -/
theorem statement_eq_of_line_eq (hlines : lines ∈ (cutSections (numberedLines source)).2)
    {statement : Statement} (hmem : statement ∈ (assembleSection registry lines).1.statements)
    {encoding : Encoding} (hencoding : encoding ∈ encodings registry source)
    (hline : encoding.statement.line = statement.line) : encoding.statement = statement := by
  obtain ⟨own, hown, rfl⟩ := List.mem_map.mp hmem
  rw [eq_of_line_eq (List.mem_flatMap.mpr ⟨lines, hlines, hown⟩) hencoding hline]

/-- **Reports about labels** on the line of a statement are those of laying its section out. -/
theorem filter_ofDefinition_perm (hlines : lines ∈ (cutSections (numberedLines source)).2)
    {statement : Statement} (hmem : statement ∈ (assembleSection registry lines).1.statements) :
    (((assemble registry source).diagnosticsOn statement.line).filter fun diagnostic =>
      diagnostic.fault.ofDefinition statement.directive?).Perm
      (((Layout.addLines registry {} lines).2.diagnostics.filter fun diagnostic =>
        diagnostic.line = statement.line).filter fun diagnostic =>
          diagnostic.fault.ofDefinition statement.directive?) := by
  have hnumber : statement.line ∈ lines.map Prod.fst := by
    obtain ⟨laid, hlaid, base, rfl⟩ := exists_laidOut_of_mem hmem
    rw [Encoding.line_ofStatement]
    exact mem_lines_of_mem_layoutOf (List.mem_map_of_mem hlaid)
  have hperm := (diagnosticsOn_perm registry hlines hnumber).filter
    fun diagnostic => diagnostic.fault.ofDefinition statement.directive?
  rw [diagnostics_assembleSection, List.append_assoc, List.append_assoc, List.filter_append,
    List.filter_append] at hperm
  -- What is reported besides is of other kinds, or on the lines of other statements.
  suffices hnone : (((layoutOf registry lines).unplaced ++
      ((encodingsOf registry lines).flatMap Encoding.diagnostics ++
        entryDiagnostics registry source)).filter fun diagnostic =>
          diagnostic.line = statement.line).filter (fun diagnostic =>
            diagnostic.fault.ofDefinition statement.directive?) = [] by
    rwa [hnone, List.append_nil] at hperm
  rw [List.filter_eq_nil_iff]
  intro diagnostic hin
  obtain ⟨hreported, hline⟩ := List.mem_filter.mp hin
  replace hline : diagnostic.line = statement.line := of_decide_eq_true hline
  rw [Bool.not_eq_true]
  rw [List.mem_append, List.mem_append] at hreported
  rcases hreported with hunplaced | hencoded | hentry
  · obtain ⟨text, -, rfl⟩ := List.mem_map.mp hunplaced
    rfl
  · obtain ⟨encoding, hencoding, hfaults⟩ := List.mem_flatMap.mp hencoded
    obtain ⟨fault, hfault, rfl⟩ := List.mem_map.mp hfaults
    have hsame := statement_eq_of_line_eq hlines hmem
      (List.mem_flatMap.mpr ⟨lines, hlines, hencoding⟩) hline
    obtain ⟨laid, -, base, rfl⟩ := Encoding.exists_of_mem_ofStatements hencoding
    rw [← hsame, Statement.directive?, Encoding.operator_ofStatement]
    exact Encoding.ofDefinition_of_mem_ofStatement hfault
  · obtain ⟨ending, hending, hends, hat, hkind⟩ :=
      exists_end_of_findEntry (findEntry_of_mem_entryDiagnostics hentry)
    have hall : ending ∈ (assemble registry source).statements := hending
    rw [statements_assemble] at hall
    obtain ⟨encoding, hencoding, rfl⟩ := List.mem_map.mp hall
    rw [← statement_eq_of_line_eq hlines hmem hencoding (hat.trans hline), hends]
    rcases hkind with ⟨name, hfault⟩ | ⟨text, hfault⟩
    · rw [hfault]
      rfl
    · rw [hfault]
      rfl

/-! ## reports about literals -/

/-- What is reported about a section, as far as it is about literals without a place. -/
theorem filter_isUnplaced_assembleSection (registry : Registry) (lines : List (Nat × String)) :
    ((assembleSection registry lines).2.diagnostics.filter fun diagnostic =>
      diagnostic.fault.isUnplaced) = (layoutOf registry lines).unplaced := by
  have hlaid : (Layout.addLines registry {} lines).2.diagnostics.filter
      (fun diagnostic => diagnostic.fault.isUnplaced) = [] := by
    rw [List.filter_eq_nil_iff]
    intro diagnostic hmem
    simp [Fault.isUnplaced_of_ofLayout (Layout.ofLayout_of_mem_addLines hmem)]
  have hunplaced : (layoutOf registry lines).unplaced.filter
      (fun diagnostic => diagnostic.fault.isUnplaced) = (layoutOf registry lines).unplaced := by
    rw [List.filter_eq_self]
    intro diagnostic hmem
    obtain ⟨text, -, rfl⟩ := List.mem_map.mp hmem
    rfl
  have hencoded : ((encodingsOf registry lines).flatMap Encoding.diagnostics).filter
      (fun diagnostic => diagnostic.fault.isUnplaced) = [] := by
    rw [List.filter_eq_nil_iff]
    intro diagnostic hmem
    obtain ⟨encoding, hencoding, hfaults⟩ := List.mem_flatMap.mp hmem
    obtain ⟨fault, hfault, rfl⟩ := List.mem_map.mp hfaults
    obtain ⟨laid, -, base, rfl⟩ := Encoding.exists_of_mem_ofStatements hencoding
    simp [Fault.isUnplaced_of_whileEncoding (Encoding.whileEncoding_of_mem_ofStatement hfault)]
  rw [diagnostics_assembleSection, List.filter_append, List.filter_append, hlaid, hunplaced,
    hencoded, List.nil_append, List.append_nil]

/-- **Reports about literals** on a line of a section are those of laying it out. -/
theorem filter_isUnplaced_perm (registry : Registry)
    (hlines : lines ∈ (cutSections (numberedLines source)).2) {number : Nat}
    (hnumber : number ∈ lines.map Prod.fst) :
    (((assemble registry source).diagnosticsOn number).filter fun diagnostic =>
      diagnostic.fault.isUnplaced).Perm
      ((layoutOf registry lines).unplaced.filter fun diagnostic => diagnostic.line = number) := by
  have hentry : (entryDiagnostics registry source).filter
      (fun diagnostic => diagnostic.fault.isUnplaced) = [] := by
    rw [List.filter_eq_nil_iff]
    intro diagnostic hmem
    simp [Fault.isUnplaced_of_ofOperand
      (ofOperand_of_findEntry (findEntry_of_mem_entryDiagnostics hmem))]
  have hperm := (diagnosticsOn_perm registry hlines hnumber).filter
    fun diagnostic => diagnostic.fault.isUnplaced
  rw [List.filter_comm, List.filter_append, filter_isUnplaced_assembleSection, hentry,
    List.append_nil] at hperm
  exact hperm

/-- A literal without a place is reported by laying out some section. -/
theorem exists_unplaced_of_mem_diagnostics {diagnostic : Diagnostic}
    (h : diagnostic ∈ (assemble registry source).diagnostics)
    (hkind : diagnostic.fault.isUnplaced = true) :
    ∃ lines ∈ (cutSections (numberedLines source)).2,
      diagnostic ∈ (layoutOf registry lines).unplaced := by
  rcases mem_diagnostics_ofResults.mp h with houtside | ⟨result, hresult, hmem⟩ | hentry
  · obtain ⟨line, -, -, rfl⟩ := mem_outsideSections.mp houtside
    cases hkind
  · obtain ⟨lines, hlines, rfl⟩ := List.mem_map.mp hresult
    refine ⟨lines, hlines, ?_⟩
    rw [← filter_isUnplaced_assembleSection]
    exact List.mem_filter.mpr ⟨hmem, hkind⟩
  · rw [Fault.isUnplaced_of_ofOperand (ofOperand_of_findEntry hentry)] at hkind
    cases hkind

end

end Program

end SicXe
