import Mathlib.Data.List.Nodup
import SicXe.Proofs.AssembledSection

/-!
# SicXe.Proofs.Diagnostics

Where the diagnostics of a program come from.

A diagnostic is about a line outside sections, or it was reported when a section was laid out, when
a statement was encoded or when the entry address was looked up (`origin_of_mem_diagnostics`).
Laying out, which comes first, has faults of its own kinds (`Fault.ofLayout`).  And no two
statements of a program stand on one line, so a diagnostic that only encoding reports tells which
statement it is about (`mem_diagnostics_iff_mem_faults`).
-/

namespace SicXe

/-! ## the lines of statements -/

namespace Layout

/-- Adding a line adds no statement, or one of that line. -/
theorem statements_addLine (registry : Registry) (layout : Layout) (line : Nat × String) :
    (layout.addLine registry line).1.statements = layout.statements ∨
      ∃ statement, statement.line = line.1 ∧
        (layout.addLine registry line).1.statements = layout.statements ++ [statement] := by
  have hadded := added_addLine registry layout line
  generalize layout.addLine registry line = result at hadded
  cases hadded with
  | blank => exact Or.inl rfl
  | unreadable => exact Or.inl rfl
  | unsized => exact Or.inl (statements_openSection ..)
  | unfit => exact Or.inl (statements_openSection ..)
  | overflowed =>
      left
      rw [(rests_obeyed ..).statements, statements_openSection]
  | kept statement length events hdraft hlength hfits =>
      refine Or.inr ⟨(layout.openSection statement).resized (layout.placed statement length),
        (drafted_draft hdraft).line, ?_⟩
      rw [keep, (rests_obeyed ..).statements, statements_openSection]

/-- Statements stand on the lines they come from, in the same order. -/
theorem sublist_lines_addLines (registry : Registry) (layout : Layout)
    (lines : List (Nat × String)) :
    ∃ added, (layout.addLines registry lines).1.statements = layout.statements ++ added ∧
      (added.map Statement.line).Sublist (lines.map Prod.fst) := by
  induction lines generalizing layout with
  | nil => exact ⟨[], (List.append_nil _).symm, .slnil⟩
  | cons line rest ih =>
      obtain ⟨added, hadded, hsub⟩ := ih (layout.addLine registry line).1
      rcases statements_addLine registry layout line with hsame | ⟨statement, hline, hmore⟩
      · exact ⟨added, by rw [addLines, hadded, hsame], hsub.cons _⟩
      · refine ⟨statement :: added, ?_, ?_⟩
        · rw [addLines, hadded, hmore, List.append_assoc, List.singleton_append]
        · rw [List.map_cons, List.map_cons, hline]
          exact hsub.cons_cons _

end Layout

namespace Encoding

/-- Encoding keeps the lines of statements. -/
theorem map_line_ofStatements (registry : Registry) (sect : Section) (base : Option Nat)
    (statements : List Statement) :
    (ofStatements registry sect base statements).map (fun encoding => encoding.statement.line) =
      statements.map Statement.line := by
  induction statements generalizing base with
  | nil => rfl
  | cons first rest ih =>
      simp only [ofStatements, List.map_cons]
      rw [ih, line_ofStatement]

end Encoding

namespace Program

/-- Lines are numbered from 1 on. -/
theorem map_fst_numberedLines (source : String) :
    (numberedLines source).map Prod.fst = List.range' 1 (Text.lines source).length := by
  rw [numberedLines, List.map_map, ← List.zipIdx_map_snd]
  rfl

/-- No two lines have the same number. -/
theorem nodup_numberedLines (source : String) :
    ((numberedLines source).map Prod.fst).Nodup := by
  rw [map_fst_numberedLines]
  exact List.nodup_range'

/-- The encodings of all sections of a source text. -/
def encodings (registry : Registry) (source : String) : List Encoding :=
  (cutSections (numberedLines source)).2.flatMap (encodingsOf registry)

/-- Encoded statements stand in the order of their lines, at most one on each. -/
theorem sublist_lines_encodings (registry : Registry) (chunks : List (List (Nat × String))) :
    ((chunks.flatMap (encodingsOf registry)).map fun encoding =>
      encoding.statement.line).Sublist (chunks.flatten.map Prod.fst) := by
  induction chunks with
  | nil => exact .slnil
  | cons lines rest ih =>
      rw [List.flatMap_cons, List.map_append, List.flatten_cons, List.map_append]
      refine List.Sublist.append ?_ ih
      obtain ⟨added, hadded, hsub⟩ := Layout.sublist_lines_addLines registry {} lines
      rw [encodingsOf, Encoding.map_line_ofStatements, layoutOf, hadded]
      exact hsub

/-- **One statement a line**: no two statements of a program stand on the same line. -/
theorem nodup_lines_encodings (registry : Registry) (source : String) :
    ((encodings registry source).map fun encoding => encoding.statement.line).Nodup := by
  have hsub := sublist_lines_encodings registry (cutSections (numberedLines source)).2
  have hsections : ((cutSections (numberedLines source)).2.flatten.map Prod.fst).Sublist
      ((numberedLines source).map Prod.fst) := by
    conv => rhs; rw [← cutSections_flatten (numberedLines source)]
    exact (List.sublist_append_right _ _).map _
  exact (hsub.trans hsections).nodup (nodup_numberedLines source)

end Program

/-! ## the faults of laying out -/

namespace Fault

/-- Whether a fault is one that a line is refused for before it has a place. -/
def ofReading : Fault → Bool
  | malformedLine _ | invalidValue _ => true
  | _ => false

/-- Whether a fault is one that entering a statement into the tables can report. -/
def ofEntering : Fault → Bool
  | malformedLine _ | unknownOperator _ | duplicateSymbol _ | unresolvedReference _ => true
  | _ => false

/-- Whether a fault is one that adding a line to a layout can report. -/
def ofLayout : Fault → Bool
  | malformedLine _ | unknownOperator _ | duplicateSymbol _ | unresolvedReference _
  | invalidValue _ | addressOverflow => true
  | _ => false

theorem ofLayout_of_ofReading {fault : Fault} (h : fault.ofReading = true) :
    fault.ofLayout = true := by
  cases fault with
  | malformedLine error => rfl
  | invalidValue text => rfl
  | _ => cases h

theorem ofLayout_of_ofEntering {fault : Fault} (h : fault.ofEntering = true) :
    fault.ofLayout = true := by
  cases fault with
  | malformedLine error => rfl
  | unknownOperator text => rfl
  | duplicateSymbol name => rfl
  | unresolvedReference name => rfl
  | _ => cases h

end Fault

namespace Layout

/-- A line that gives no statement is reported for how it reads. -/
theorem ofReading_of_draft {registry : Registry} {number : Nat} {text : String} {fault : Fault}
    (h : draft registry number text = .error fault) : fault.ofReading = true := by
  unfold draft at h
  split at h
  · cases h
    rfl
  · cases h
  · next fields hread =>
      unfold draftFields at h
      dsimp only at h
      split at h
      · cases h
      · split at h
        · cases h
          unfold operandFault
          split <;> rfl
        · cases h

/-- A statement without a length is reported for how it reads. -/
theorem ofReading_of_lengthOf {registry : Registry} {statement : Statement} {fault : Fault}
    (h : lengthOf registry statement = .error fault) : fault.ofReading = true := by
  unfold lengthOf at h
  dsimp only at h
  split at h
  · cases h
  · split at h <;> cases h; rfl
  · split at h <;> cases h; rfl
  · split at h <;> cases h; rfl
  · split at h <;> cases h; rfl
  · cases h
  · cases h

theorem ofEntering_of_symbolAddress {symbols : AddressTable} {name : String} {fault : Fault}
    (h : symbolAddress symbols name = .error fault) : fault.ofEntering = true := by
  unfold symbolAddress at h
  split at h
  · cases h
  · cases h
    rfl

/-- Operands that give `EQU` no value are reported as the statement is entered. -/
theorem ofEntering_of_equatedValue {symbols : AddressTable} {operands : List Operand}
    {fault : Fault} (h : equatedValue symbols operands = .error fault) :
    fault.ofEntering = true := by
  unfold equatedValue at h
  split at h
  · cases h
  · cases h
  · next name =>
      cases haddr : symbolAddress symbols name with
      | ok address => rw [haddr] at h; cases h
      | error found =>
          rw [haddr] at h
          cases h
          exact ofEntering_of_symbolAddress haddr
  · split at h
    · next found hfound =>
        cases h
        exact ofEntering_of_symbolAddress hfound
    · next found hfound _ =>
        cases h
        exact ofEntering_of_symbolAddress hfound
    · cases h
  · cases h
    rfl

/-- So is all that label, operator and directive have to report. -/
theorem ofEntering_of_mem_enterFaults {layout : Layout} {statement : Statement} {fault : Fault}
    (h : fault ∈ layout.enterFaults statement) : fault.ofEntering = true := by
  rw [enterFaults, List.mem_append, List.mem_append] at h
  rcases h with (hoperator | hlabel) | hdirective
  · unfold operatorFaults at hoperator
    split at hoperator
    · rw [List.mem_singleton.mp hoperator]
      rfl
    · simp at hoperator
  · unfold labelFaults at hlabel
    split at hlabel
    · simp at hlabel
    · split at hlabel
      · rw [List.mem_singleton.mp hlabel]
        rfl
      · simp at hlabel
  · unfold directiveFaults equateFaults at hdirective
    split at hdirective
    · split at hdirective
      · next found hvalue =>
          rw [List.mem_singleton.mp hdirective]
          exact ofEntering_of_equatedValue hvalue
      · simp at hdirective
    · simp at hdirective

/-- **Laying out has its own faults**: adding a line reports faults of `Fault.ofLayout`, on that
line. -/
theorem ofLayout_of_mem_addLine {registry : Registry} {layout : Layout} {line : Nat × String}
    {diagnostic : Diagnostic} (h : diagnostic ∈ (layout.addLine registry line).2.diagnostics) :
    diagnostic.line = line.1 ∧ diagnostic.fault.ofLayout = true := by
  have hadded := added_addLine registry layout line
  generalize layout.addLine registry line = result at hadded h
  cases hadded with
  | blank => simp at h
  | unreadable fault hdraft =>
      obtain rfl : diagnostic = ⟨line.1, fault⟩ := by simpa using h
      exact ⟨rfl, Fault.ofLayout_of_ofReading (ofReading_of_draft hdraft)⟩
  | unsized statement fault events hdraft hlength =>
      obtain rfl : diagnostic = ⟨line.1, fault⟩ := by simpa using h
      exact ⟨rfl, Fault.ofLayout_of_ofReading (ofReading_of_lengthOf hlength)⟩
  | unfit =>
      obtain rfl : diagnostic = ⟨line.1, .addressOverflow⟩ := by simpa using h
      exact ⟨rfl, rfl⟩
  | overflowed =>
      rw [Journal.diagnostics_ofLine] at h
      obtain ⟨fault, hfault, rfl⟩ := List.mem_map.mp h
      rcases List.mem_append.mp hfault with hentered | hlast
      · exact ⟨rfl, Fault.ofLayout_of_ofEntering (ofEntering_of_mem_enterFaults hentered)⟩
      · rw [List.mem_singleton.mp hlast]
        exact ⟨rfl, rfl⟩
  | kept =>
      rw [Journal.diagnostics_ofLine] at h
      obtain ⟨fault, hfault, rfl⟩ := List.mem_map.mp h
      exact ⟨rfl, Fault.ofLayout_of_ofEntering (ofEntering_of_mem_enterFaults hfault)⟩

/-- Laying out reports only faults of its own kind. -/
theorem ofLayout_of_mem_addLines {registry : Registry} {layout : Layout}
    {lines : List (Nat × String)} {diagnostic : Diagnostic}
    (h : diagnostic ∈ (layout.addLines registry lines).2.diagnostics) :
    diagnostic.fault.ofLayout = true := by
  induction lines generalizing layout with
  | nil => simp [addLines] at h
  | cons line rest ih =>
      rw [addLines, Journal.diagnostics_append, List.mem_append] at h
      rcases h with hfirst | hrest
      · exact (ofLayout_of_mem_addLine hfirst).2
      · exact ih hrest

end Layout

/-! ## the faults of encoding -/

/-- Whether a fault is reported by encoding statements and nowhere else. -/
def Fault.ofEncoding : Fault → Bool
  | externalInShortForm _ | displacementOutOfRange _ | operandCount _ _ => true
  | _ => false

/-- No fault of laying out is one that only encoding reports. -/
theorem Fault.ofEncoding_of_ofLayout {fault : Fault} (h : fault.ofLayout = true) :
    fault.ofEncoding = false := by
  cases fault with
  | externalInShortForm name => cases h
  | displacementOutOfRange text => cases h
  | operandCount expected found => cases h
  | _ => rfl

namespace Program

/-- **What is wrong with an entry address** is the operand of an `END`: it names no symbol of the
first section, or its value is no address. The report is on the line of that `END`. -/
theorem exists_end_of_findEntry {sections : List Section} {diagnostic : Diagnostic}
    (h : findEntry sections = .error diagnostic) :
    ∃ statement ∈ sections.flatMap Section.statements,
      statement.directive? = some .endProgram ∧ statement.line = diagnostic.line ∧
      ((∃ name, diagnostic.fault = .unresolvedReference name) ∨
        ∃ text, diagnostic.fault = .valueOutOfRange text) := by
  unfold findEntry at h
  split at h
  · next first statement hfirst hend =>
      have hmem := List.mem_of_find?_eq_some hend
      have hends : statement.directive? = some .endProgram := by
        simpa using List.find?_some hend
      split at h
      · next name hname =>
          split at h
          · cases h
          · cases h
            exact ⟨statement, hmem, hends, rfl, Or.inl ⟨name, rfl⟩⟩
      · next value hvalue =>
          split at h
          · cases h
          · cases h
            exact ⟨statement, hmem, hends, rfl, Or.inr ⟨_, rfl⟩⟩
      · cases h
  · cases h

/-- A fault of the entry address is none that only encoding reports. -/
theorem ofEncoding_of_findEntry {sections : List Section} {diagnostic : Diagnostic}
    (h : findEntry sections = .error diagnostic) : diagnostic.fault.ofEncoding = false := by
  obtain ⟨-, -, -, -, ⟨name, hfault⟩ | ⟨text, hfault⟩⟩ := exists_end_of_findEntry h <;>
    simp [hfault, Fault.ofEncoding]

/-- **The origin of a diagnostic**: it is about a line outside sections, was reported when a section
was laid out, says that a literal was not placed, was reported when a statement was encoded, or is
about the entry address. -/
theorem origin_of_mem_diagnostics {registry : Registry} {source : String}
    {diagnostic : Diagnostic} (h : diagnostic ∈ (assemble registry source).diagnostics) :
    diagnostic.fault = .outsideSection ∨
    (∃ lines ∈ (cutSections (numberedLines source)).2,
      diagnostic ∈ (Layout.addLines registry {} lines).2.diagnostics) ∨
    (∃ text, diagnostic.fault = .unplacedLiteral text) ∨
    (∃ encoding ∈ encodings registry source, encoding.statement.line = diagnostic.line ∧
      diagnostic.fault ∈ encoding.faults) ∨
    findEntry (assemble registry source).sections = .error diagnostic := by
  rcases mem_diagnostics_ofResults.mp h with houtside | ⟨result, hresult, hmem⟩ | hentry
  · obtain ⟨line, -, hline⟩ := List.mem_filterMap.mp houtside
    split at hline
    · cases hline
    · cases hline
      exact Or.inl rfl
  · obtain ⟨lines, hlines, rfl⟩ := List.mem_map.mp hresult
    rw [diagnostics_assembleSection, List.mem_append, List.mem_append] at hmem
    rcases hmem with (hlaid | hunplaced) | hencoded
    · exact Or.inr (Or.inl ⟨lines, hlines, hlaid⟩)
    · obtain ⟨text, -, rfl⟩ := List.mem_map.mp hunplaced
      exact Or.inr (Or.inr (Or.inl ⟨text, rfl⟩))
    · obtain ⟨encoding, hin, hdiagnostic⟩ := List.mem_flatMap.mp hencoded
      obtain ⟨fault, hfault, rfl⟩ := List.mem_map.mp hdiagnostic
      exact Or.inr (Or.inr (Or.inr (Or.inl
        ⟨encoding, List.mem_flatMap.mpr ⟨lines, hlines, hin⟩, rfl, hfault⟩)))
  · rw [assemble, sections_ofResults]
    exact Or.inr (Or.inr (Or.inr (Or.inr hentry)))

/-- What only encoding reports comes from the encoding of some statement. -/
theorem exists_encoding_of_mem_diagnostics {registry : Registry} {source : String}
    {diagnostic : Diagnostic} (h : diagnostic ∈ (assemble registry source).diagnostics)
    (hkind : diagnostic.fault.ofEncoding = true) :
    ∃ encoding ∈ encodings registry source, encoding.statement.line = diagnostic.line ∧
      diagnostic.fault ∈ encoding.faults := by
  rcases origin_of_mem_diagnostics h with
    houtside | ⟨lines, -, hlaid⟩ | ⟨text, hunplaced⟩ | hencoded | hentry
  · rw [houtside] at hkind
    cases hkind
  · rw [Fault.ofEncoding_of_ofLayout (Layout.ofLayout_of_mem_addLines hlaid)] at hkind
    cases hkind
  · rw [hunplaced] at hkind
    cases hkind
  · exact hencoded
  · rw [ofEncoding_of_findEntry hentry] at hkind
    cases hkind

/-- The line of a statement tells its encoding. -/
theorem eq_of_line_eq {registry : Registry} {source : String} {encoding other : Encoding}
    (hencoding : encoding ∈ encodings registry source) (hother : other ∈ encodings registry source)
    (hline : other.statement.line = encoding.statement.line) : other = encoding :=
  List.inj_on_of_nodup_map (nodup_lines_encodings registry source) hother hencoding hline

/-- What the encoding of a statement reports is reported on its line. -/
theorem mem_diagnostics_of_mem_faults {registry : Registry} {source : String}
    {encoding : Encoding} (hencoding : encoding ∈ encodings registry source) {fault : Fault}
    (h : fault ∈ encoding.faults) :
    ⟨encoding.statement.line, fault⟩ ∈ (assemble registry source).diagnostics := by
  obtain ⟨lines, hlines, hin⟩ := List.mem_flatMap.mp hencoding
  apply mem_diagnostics_of_mem_section hlines
  rw [diagnostics_assembleSection]
  apply List.mem_append_right
  exact List.mem_flatMap.mpr ⟨encoding, hin, List.mem_map.mpr ⟨fault, h, rfl⟩⟩

/-- **Reports of encoding**: what only encoding reports is reported on the line of a statement
exactly if its own encoding reports it. -/
theorem mem_diagnostics_iff_mem_faults {registry : Registry} {source : String}
    {encoding : Encoding} (hencoding : encoding ∈ encodings registry source) {fault : Fault}
    (hkind : fault.ofEncoding = true) :
    ⟨encoding.statement.line, fault⟩ ∈ (assemble registry source).diagnostics ↔
      fault ∈ encoding.faults := by
  constructor
  · intro h
    obtain ⟨other, hother, hline, hfault⟩ := exists_encoding_of_mem_diagnostics h hkind
    rw [← eq_of_line_eq hencoding hother hline]
    exact hfault
  · exact mem_diagnostics_of_mem_faults hencoding

end Program

end SicXe
