import Mathlib.Data.List.Nodup
import Mathlib.Data.List.Pairwise
import SicXe.Proofs.LineOutcomes
import SicXe.Proofs.SectionIndependence

/-!
# SicXe.Proofs.LineAccounts

What becomes of each line of a source text.

A number stands for one line, and a line belongs to one section or to none.  So the account of a
line in its section is its account in the program (`account_assemble`), and what stands before the
first section is reported as being outside.  That accounts for every line of a program
(`every_line_is_accounted_for`).
-/

namespace SicXe

namespace Program

/-! ## the lines of a program -/

/-- Lines are numbered upwards. -/
theorem pairwise_numberedLines (source : String) :
    ((numberedLines source).map Prod.fst).Pairwise (· < ·) := by
  rw [map_fst_numberedLines]
  exact List.pairwise_lt_range'

/-- A number stands for one line. -/
theorem eq_of_mem_numberedLines {source : String} {first second : Nat × String}
    (hfirst : first ∈ numberedLines source) (hsecond : second ∈ numberedLines source)
    (hsame : first.1 = second.1) : first = second :=
  List.inj_on_of_nodup_map (nodup_numberedLines source) hfirst hsecond hsame

/-- A section starts with a line that opens it. -/
theorem exists_opening_of_mem_cutSections (lines : List (Nat × String)) :
    ∀ chunk ∈ (cutSections lines).2,
      ∃ first rest, chunk = first :: rest ∧ opensSection first.2 = true := by
  induction lines with
  | nil => simp [cutSections]
  | cons line rest ih =>
      rw [cutSections_cons]
      split
      · next hopens =>
          intro chunk hmem
          rcases List.mem_cons.mp hmem with rfl | hlater
          · exact ⟨line, _, rfl, hopens⟩
          · exact ih chunk hlater
      · exact ih

section
variable {source : String}

theorem mem_numberedLines_of_outside {line : Nat × String}
    (h : line ∈ (cutSections (numberedLines source)).1) : line ∈ numberedLines source := by
  rw [← cutSections_flatten (numberedLines source)]
  exact List.mem_append_left _ h

/-- The lines before the first section come before all lines of sections. -/
theorem lt_of_mem_cutSections {line other : Nat × String}
    (hline : line ∈ (cutSections (numberedLines source)).1)
    (hother : other ∈ (cutSections (numberedLines source)).2.flatten) : line.1 < other.1 := by
  have hsorted := pairwise_numberedLines source
  rw [← cutSections_flatten (numberedLines source), List.map_append] at hsorted
  exact (List.pairwise_append.mp hsorted).2.2 _ (List.mem_map_of_mem hline) _
    (List.mem_map_of_mem hother)

/-- A line stands before the first section exactly if no line up to it opens one. -/
theorem mem_cutSections_fst_iff {line : Nat × String} (hline : line ∈ numberedLines source) :
    line ∈ (cutSections (numberedLines source)).1 ↔
      ∀ other ∈ numberedLines source, other.1 ≤ line.1 → opensSection other.2 = false := by
  constructor
  · intro hbefore other hother hle
    rw [← cutSections_flatten (numberedLines source), List.mem_append] at hother
    rcases hother with houtside | hinside
    · exact closed_of_mem_cutSections_fst _ other houtside
    · have hlt := lt_of_mem_cutSections hbefore hinside
      omega
  · intro hclosed
    have hsplit := hline
    rw [← cutSections_flatten (numberedLines source), List.mem_append] at hsplit
    rcases hsplit with hbefore | hinside
    · exact hbefore
    · obtain ⟨lines, hlines, hmem⟩ := List.mem_flatten.mp hinside
      obtain ⟨first, rest, rfl, hopens⟩ := exists_opening_of_mem_cutSections _ lines hlines
      have hfirst := mem_numberedLines_of_mem_section hlines List.mem_cons_self
      have hle : first.1 ≤ line.1 := by
        rcases List.mem_cons.mp hmem with rfl | hlater
        · exact Nat.le_refl _
        · -- The lines of a section keep their order.
          have hsorted := pairwise_numberedLines source
          rw [← cutSections_flatten (numberedLines source), List.map_append] at hsorted
          have hsections := (List.pairwise_append.mp hsorted).2.1
          rw [List.map_flatten] at hsections
          have hchunk := (List.pairwise_flatten.mp hsections).1 _ (List.mem_map_of_mem hlines)
          exact Nat.le_of_lt ((List.pairwise_cons.mp hchunk).1 _ (List.mem_map_of_mem hlater))
      rw [hclosed first hfirst hle] at hopens
      cases hopens

theorem nodup_lines_of_mem_cutSections {lines : List (Nat × String)}
    (hlines : lines ∈ (cutSections (numberedLines source)).2) : (lines.map Prod.fst).Nodup := by
  have hsub : (lines.map Prod.fst).Sublist ((numberedLines source).map Prod.fst) := by
    rw [← cutSections_flatten (numberedLines source)]
    exact ((List.sublist_flatten_of_mem hlines).trans (List.sublist_append_right _ _)).map _
  exact hsub.nodup (nodup_numberedLines source)

/-- A line belongs to one section. -/
theorem eq_of_mem_sections {first second : List (Nat × String)} {line : Nat × String}
    (hfirst : first ∈ (cutSections (numberedLines source)).2)
    (hsecond : second ∈ (cutSections (numberedLines source)).2)
    (hin : line ∈ first) (halso : line ∈ second) : first = second := by
  have hnodup : (cutSections (numberedLines source)).2.flatten.Nodup := by
    have hall := (nodup_numberedLines source).of_map
    rw [← cutSections_flatten (numberedLines source)] at hall
    exact hall.of_append_right
  have hdisjoint := (List.nodup_flatten.mp hnodup).2
  have : Std.Symm (@List.Disjoint (Nat × String)) := ⟨fun _ _ h _ hin halso => h halso hin⟩
  by_contra hne
  exact hdisjoint.forall hfirst hsecond hne hin halso

end

/-! ## where diagnostics come from -/

/-- A fault of the entry address leaves no statement out. -/
theorem leavesOut_of_findEntry {sections : List Section} {diagnostic : Diagnostic}
    (h : findEntry sections = .error diagnostic) : diagnostic.fault.leavesOut = false := by
  obtain ⟨-, -, -, -, ⟨name, hfault⟩ | ⟨text, hfault⟩⟩ := exists_end_of_findEntry h <;>
    simp [hfault, Fault.leavesOut]

/-- Outside sections every line that is not blank is reported. -/
theorem mem_outsideSections {lines : List (Nat × String)} {diagnostic : Diagnostic} :
    diagnostic ∈ outsideSections lines ↔ ∃ line ∈ lines, LineFields.read line.2 ≠ .ok none ∧
      diagnostic = ⟨line.1, .outsideSection⟩ := by
  unfold outsideSections
  rw [List.mem_filterMap]
  constructor
  · rintro ⟨line, hmem, hline⟩
    split at hline
    · cases hline
    · next hread => exact ⟨line, hmem, hread, (Option.some.inj hline).symm⟩
  · rintro ⟨line, hmem, hread, rfl⟩
    refine ⟨line, hmem, ?_⟩
    split
    · next hnone => exact absurd hnone hread
    · rfl

theorem sublist_lines_outsideSections (lines : List (Nat × String)) :
    ((outsideSections lines).map Diagnostic.line).Sublist (lines.map Prod.fst) := by
  induction lines with
  | nil => exact .slnil
  | cons line rest ih =>
      rw [outsideSections, List.filterMap_cons]
      split
      · exact ih.cons _
      · next diagnostic hline =>
          split at hline
          · cases hline
          · cases hline
            exact ih.cons_cons _

/-- The statements of all sections of a program, in the order of the source. -/
def statements (program : Program) : List Statement :=
  program.sections.flatMap Section.statements

/-- The statements on a line of the source. -/
def statementsOn (program : Program) (number : Nat) : List Statement :=
  program.statements.filter fun statement => statement.line = number

/-- What is reported on a line of the source. -/
def diagnosticsOn (program : Program) (number : Nat) : List Diagnostic :=
  program.diagnostics.filter fun diagnostic => diagnostic.line = number

section
variable {registry : Registry} {source : String}

/-- The statements of a program are those that are encoded. -/
theorem statements_assemble (registry : Registry) (source : String) :
    (assemble registry source).statements =
      (encodings registry source).map Encoding.statement := by
  rw [statements, sections_assemble, List.flatMap_map, encodings, List.map_flatMap]
  rfl

theorem map_line_encodingsOf (registry : Registry) (lines : List (Nat × String)) :
    (encodingsOf registry lines).map (fun encoding => encoding.statement.line) =
      (layoutOf registry lines).statements.map Statement.line :=
  Encoding.map_line_ofStatements ..

/-- The numbers of the lines that are kept as statements are those of the sections. -/
theorem mem_lines_statements {number : Nat} :
    number ∈ (assemble registry source).statements.map Statement.line ↔
      ∃ lines ∈ (cutSections (numberedLines source)).2,
        number ∈ (layoutOf registry lines).statements.map Statement.line := by
  rw [statements_assemble, List.map_map, encodings, List.map_flatMap, List.mem_flatMap]
  constructor
  · rintro ⟨lines, hlines, hmem⟩
    exact ⟨lines, hlines, map_line_encodingsOf registry lines ▸ hmem⟩
  · rintro ⟨lines, hlines, hmem⟩
    exact ⟨lines, hlines, (map_line_encodingsOf registry lines).symm ▸ hmem⟩

/-- What is reported about the sections of a source text, in the order it comes in. -/
def sectionDiagnostics (registry : Registry) (source : String) : List Diagnostic :=
  ((sectionResults registry source).2.flatMap fun result => result.2.diagnostics) ++
    match findEntry ((sectionResults registry source).2.map Prod.fst) with
    | .ok _ => []
    | .error diagnostic => [diagnostic]

theorem diagnostics_ofResults (outside : List Diagnostic) (results : List (Section × Journal)) :
    (ofResults outside results).diagnostics =
      sortDiagnostics (outside ++ ((results.flatMap fun result => result.2.diagnostics) ++
        match findEntry (results.map Prod.fst) with
        | .ok _ => []
        | .error diagnostic => [diagnostic])) := by
  unfold ofResults
  cases hentry : findEntry (results.map Prod.fst) with
  | ok entry => simp [hentry]
  | error diagnostic => simp [hentry]

/-- What is reported about a program is what is reported about the lines outside its sections and
about the sections, in the order of the lines. -/
theorem diagnostics_assemble (registry : Registry) (source : String) :
    (assemble registry source).diagnostics =
      sortDiagnostics (outsideSections (cutSections (numberedLines source)).1 ++
        sectionDiagnostics registry source) := by
  rw [assemble, diagnostics_ofResults]
  rfl

/-- Reports are about lines outside sections, or about sections, in whatever order. -/
theorem diagnostics_perm (registry : Registry) (source : String) :
    (assemble registry source).diagnostics.Perm
      (outsideSections (cutSections (numberedLines source)).1 ++
        sectionDiagnostics registry source) := by
  rw [diagnostics_assemble]
  exact stableSort_perm ..

/-- **Reports on sections**: what is reported was reported when a line was added to its section,
or is about a statement or a literal and does not say that a line was left out. -/
theorem mem_sectionDiagnostics {diagnostic : Diagnostic}
    (h : diagnostic ∈ sectionDiagnostics registry source) :
    (∃ lines ∈ (cutSections (numberedLines source)).2,
      diagnostic ∈ (Layout.addLines registry {} lines).2.diagnostics) ∨
    (diagnostic.fault.leavesOut = false ∧
      ((∃ lines ∈ (cutSections (numberedLines source)).2, ∃ line ∈ lines,
          line.1 = diagnostic.line ∧ LineFields.read line.2 ≠ .ok none) ∨
        diagnostic.line ∈ (assemble registry source).statements.map Statement.line)) := by
  rcases List.mem_append.mp h with hsection | hentry
  · obtain ⟨result, hresult, hmem⟩ := List.mem_flatMap.mp hsection
    obtain ⟨lines, hlines, rfl⟩ := List.mem_map.mp hresult
    rw [diagnostics_assembleSection, List.mem_append, List.mem_append] at hmem
    rcases hmem with (hlaid | hunplaced) | hencoded
    · exact Or.inl ⟨lines, hlines, hlaid⟩
    · obtain ⟨hfault, hline⟩ := Layout.line_of_mem_unplaced hunplaced
      exact Or.inr ⟨hfault, Or.inl ⟨lines, hlines, hline⟩⟩
    · obtain ⟨encoding, hin, hdiagnostic⟩ := List.mem_flatMap.mp hencoded
      obtain ⟨fault, hfault, rfl⟩ := List.mem_map.mp hdiagnostic
      have hkept : encoding.statement.line ∈
          (assemble registry source).statements.map Statement.line := by
        rw [mem_lines_statements]
        refine ⟨lines, hlines, ?_⟩
        rw [← map_line_encodingsOf]
        exact List.mem_map_of_mem hin
      obtain ⟨statement, -, base, rfl⟩ := Encoding.exists_of_mem_ofStatements hin
      have hkind := Encoding.whileEncoding_of_mem_ofStatement hfault
      exact Or.inr ⟨Fault.leavesOut_of_whileEncoding hkind, Or.inr hkept⟩
  · split at hentry
    · simp at hentry
    · next found hfound =>
        rw [List.mem_singleton.mp hentry]
        obtain ⟨statement, hmem, -, hline, -⟩ := exists_end_of_findEntry hfound
        refine Or.inr ⟨leavesOut_of_findEntry hfound, Or.inr ?_⟩
        rw [statements, assemble, sections_ofResults, ← hline]
        exact List.mem_map_of_mem hmem

/-- No other section has a line of the number of a line of a section. -/
theorem eq_of_line_mem {lines others : List (Nat × String)} {line : Nat × String}
    (hlines : lines ∈ (cutSections (numberedLines source)).2) (hmem : line ∈ lines)
    (hothers : others ∈ (cutSections (numberedLines source)).2)
    (h : line.1 ∈ others.map Prod.fst) : others = lines := by
  obtain ⟨other, hother, hsame⟩ := List.mem_map.mp h
  have heq := eq_of_mem_numberedLines (mem_numberedLines_of_mem_section hothers hother)
    (mem_numberedLines_of_mem_section hlines hmem) hsame
  exact eq_of_mem_sections hothers hlines (heq ▸ hother) hmem

theorem mem_lines_of_mem_layoutOf {lines : List (Nat × String)} {number : Nat}
    (h : number ∈ (layoutOf registry lines).statements.map Statement.line) :
    number ∈ lines.map Prod.fst := by
  obtain ⟨added, hadded, hsub⟩ := Layout.sublist_lines_addLines registry {} lines
  rw [layoutOf, hadded] at h
  exact hsub.subset h

/-! ## accounts -/

/-- A line of a section is kept by the program if its section keeps it. -/
theorem mem_lines_statements_iff {lines : List (Nat × String)} {line : Nat × String}
    (hlines : lines ∈ (cutSections (numberedLines source)).2) (hmem : line ∈ lines) :
    line.1 ∈ (assemble registry source).statements.map Statement.line ↔
      line.1 ∈ (layoutOf registry lines).statements.map Statement.line := by
  rw [mem_lines_statements]
  constructor
  · rintro ⟨others, hothers, hin⟩
    rwa [eq_of_line_mem hlines hmem hothers (mem_lines_of_mem_layoutOf hin)] at hin
  · exact fun hin => ⟨lines, hlines, hin⟩

/-- **Reports on a line of a section**: what is reported was reported when the lines of its section
were added, or is about a line that is not blank and does not say that it was left out. -/
theorem reported_on_line {lines : List (Nat × String)} {line : Nat × String}
    (hlines : lines ∈ (cutSections (numberedLines source)).2) (hmem : line ∈ lines)
    {diagnostic : Diagnostic} (h : diagnostic ∈ (assemble registry source).diagnostics)
    (hnumber : diagnostic.line = line.1) :
    diagnostic ∈ (Layout.addLines registry {} lines).2.diagnostics ∨
    (diagnostic.fault.leavesOut = false ∧ (LineFields.read line.2 ≠ .ok none ∨
      line.1 ∈ (assemble registry source).statements.map Statement.line)) := by
  have hline := mem_numberedLines_of_mem_section hlines hmem
  rcases List.mem_append.mp ((diagnostics_perm registry source).mem_iff.mp h) with
    houtside | hinside
  · obtain ⟨other, hother, -, rfl⟩ := mem_outsideSections.mp houtside
    have hlt := lt_of_mem_cutSections hother (List.mem_flatten.mpr ⟨lines, hlines, hmem⟩)
    exact absurd hnumber (Nat.ne_of_lt hlt)
  · rcases mem_sectionDiagnostics hinside with ⟨others, hothers, hin⟩ | ⟨hfault, hwhere⟩
    · have hother := Layout.line_of_mem_addLines hin
      rw [hnumber] at hother
      rw [eq_of_line_mem hlines hmem hothers hother] at hin
      exact Or.inl hin
    · refine Or.inr ⟨hfault, ?_⟩
      rw [hnumber] at hwhere
      rcases hwhere with ⟨others, hothers, other, hother, hthis, hread⟩ | hstatement
      · have heq := eq_of_mem_numberedLines
          (mem_numberedLines_of_mem_section hothers hother) hline hthis
        exact Or.inl (heq ▸ hread)
      · exact Or.inr hstatement

/-- **What becomes of a line of a section** in the whole program. -/
theorem account_assemble {lines : List (Nat × String)} {line : Nat × String}
    (hlines : lines ∈ (cutSections (numberedLines source)).2) (hmem : line ∈ lines) :
    Layout.Account line ((assemble registry source).statements.map Statement.line)
      (assemble registry source).diagnostics := by
  have hkept : line.1 ∈ (assemble registry source).statements.map Statement.line ↔
      line.1 ∈ (layoutOf registry lines).statements.map Statement.line :=
    mem_lines_statements_iff hlines hmem
  have haccount : Layout.Account line ((layoutOf registry lines).statements.map Statement.line)
      (Layout.addLines registry {} lines).2.diagnostics :=
    Layout.account_addLines (nodup_lines_of_mem_cutSections hlines) (by simp) hmem
  cases haccount with
  | blank hread hnot hsilent =>
      refine .blank hread (by rwa [hkept]) ?_
      intro diagnostic hdiagnostic hnumber
      rcases reported_on_line hlines hmem hdiagnostic hnumber with hin | ⟨-, hread' | hstatement⟩
      · exact hsilent diagnostic hin hnumber
      · exact hread' hread
      · exact hnot (hkept.mp hstatement)
  | refused hread hnot herror =>
      obtain ⟨diagnostic, hin, hnumber, hserious⟩ := herror
      refine .refused hread (by rwa [hkept]) ⟨diagnostic, ?_, hnumber, hserious⟩
      apply mem_diagnostics_of_mem_section hlines
      rw [diagnostics_assembleSection]
      exact List.mem_append_left _ (List.mem_append_left _ hin)
  | kept hread hin hfaults =>
      refine .kept hread (hkept.mpr hin) ?_
      intro diagnostic hdiagnostic hnumber
      rcases reported_on_line hlines hmem hdiagnostic hnumber with hadded | ⟨hfault, -⟩
      · exact hfaults diagnostic hadded hnumber
      · exact hfault

/-- No section has a line of the number of one before the first section. -/
theorem notMem_section_of_outside {line : Nat × String} {lines : List (Nat × String)}
    (hline : line ∈ (cutSections (numberedLines source)).1)
    (hlines : lines ∈ (cutSections (numberedLines source)).2) :
    line.1 ∉ lines.map Prod.fst := by
  intro hin
  obtain ⟨other, hother, hsame⟩ := List.mem_map.mp hin
  have hlt := lt_of_mem_cutSections hline (List.mem_flatten.mpr ⟨lines, hlines, hother⟩)
  omega

/-- A line before the first section is kept by none. -/
theorem notMem_lines_of_outside {line : Nat × String}
    (hline : line ∈ (cutSections (numberedLines source)).1) :
    line.1 ∉ (assemble registry source).statements.map Statement.line := by
  rw [mem_lines_statements]
  rintro ⟨lines, hlines, hin⟩
  exact notMem_section_of_outside hline hlines (mem_lines_of_mem_layoutOf hin)

/-- Nothing about the sections is reported on a line before the first of them. -/
theorem line_ne_of_outside {line : Nat × String}
    (hline : line ∈ (cutSections (numberedLines source)).1) :
    ∀ diagnostic ∈ sectionDiagnostics registry source, diagnostic.line ≠ line.1 := by
  intro diagnostic hmem hnumber
  rcases mem_sectionDiagnostics hmem with ⟨lines, hlines, hin⟩ | ⟨-, hwhere⟩
  · exact notMem_section_of_outside hline hlines (hnumber ▸ Layout.line_of_mem_addLines hin)
  · rw [hnumber] at hwhere
    rcases hwhere with ⟨lines, hlines, other, hother, hsame, -⟩ | hstatement
    · exact notMem_section_of_outside hline hlines (hsame ▸ List.mem_map_of_mem hother)
    · exact notMem_lines_of_outside hline hstatement

/-- Among elements of different keys, one has its own key to itself. -/
theorem filter_eq_singleton_of_nodup {f : α → Nat} {xs : List α} (hnodup : (xs.map f).Nodup)
    {x : α} (hx : x ∈ xs) : (xs.filter fun y => f y = f x) = [x] := by
  induction xs with
  | nil => cases hx
  | cons first rest ih =>
      obtain ⟨hnew, hrest⟩ := List.nodup_cons.mp (List.map_cons ▸ hnodup)
      rcases List.mem_cons.mp hx with rfl | hlater
      · have hnone : (rest.filter fun y => f y = f x) = [] := by
          simp only [List.filter_eq_nil_iff, decide_eq_true_eq]
          intro y hy hsame
          exact hnew (hsame ▸ List.mem_map_of_mem hy)
        rw [List.filter_cons_of_pos (by simp), hnone]
      · have hother : f first ≠ f x := fun hsame => hnew (hsame ▸ List.mem_map_of_mem hlater)
        rw [List.filter_cons_of_neg (by simpa using hother), ih hrest hlater]

/-- Statements stand in the order of their lines, at most one on each. -/
theorem pairwise_lines_statements (registry : Registry) (source : String) :
    ((assemble registry source).statements.map Statement.line).Pairwise (· < ·) := by
  have hsub := sublist_lines_encodings registry (cutSections (numberedLines source)).2
  have hsections : ((cutSections (numberedLines source)).2.flatten.map Prod.fst).Sublist
      ((numberedLines source).map Prod.fst) := by
    conv => rhs; rw [← cutSections_flatten (numberedLines source)]
    exact (List.sublist_append_right _ _).map _
  rw [statements_assemble, List.map_map]
  exact (pairwise_numberedLines source).sublist (hsub.trans hsections)

theorem statementsOn_eq_nil_iff {number : Nat} :
    (assemble registry source).statementsOn number = [] ↔
      number ∉ (assemble registry source).statements.map Statement.line := by
  simp [statementsOn, List.filter_eq_nil_iff]

/-- A line with a statement has one. -/
theorem length_statementsOn {number : Nat}
    (h : number ∈ (assemble registry source).statements.map Statement.line) :
    ((assemble registry source).statementsOn number).length = 1 := by
  have hnodup : ((assemble registry source).statements.map Statement.line).Nodup :=
    (pairwise_lines_statements registry source).imp Nat.ne_of_lt
  obtain ⟨statement, hmem, rfl⟩ := List.mem_map.mp h
  rw [statementsOn, filter_eq_singleton_of_nodup hnodup hmem]
  rfl

theorem mem_diagnosticsOn {program : Program} {number : Nat} {diagnostic : Diagnostic} :
    diagnostic ∈ program.diagnosticsOn number ↔
      diagnostic ∈ program.diagnostics ∧ diagnostic.line = number := by
  simp [diagnosticsOn]

theorem diagnosticsOn_eq_nil_iff {program : Program} {number : Nat} :
    program.diagnosticsOn number = [] ↔
      ∀ diagnostic ∈ program.diagnostics, diagnostic.line ≠ number := by
  simp [diagnosticsOn, List.filter_eq_nil_iff]

/-- Diagnostics are sorted by their lines. -/
theorem pairwise_lines_diagnostics (registry : Registry) (source : String) :
    ((assemble registry source).diagnostics.map Diagnostic.line).Pairwise (· ≤ ·) := by
  rw [diagnostics_assemble, List.pairwise_map]
  refine (pairwise_stableSort ?_ ?_ _).imp of_decide_eq_true
  · intro first second
    simpa using Nat.le_total first.line second.line
  · intro first second third hfirst hsecond
    simp only [decide_eq_true_eq] at hfirst hsecond ⊢
    exact Nat.le_trans hfirst hsecond

/-- Nothing is reported about a blank line outside sections. -/
theorem diagnosticsOn_of_blank_outside {number : Nat} {text : String}
    (hline : (number, text) ∈ (cutSections (numberedLines source)).1)
    (hread : LineFields.read text = .ok none) :
    (assemble registry source).diagnosticsOn number = [] := by
  rw [diagnosticsOn_eq_nil_iff]
  intro diagnostic hmem hnumber
  rcases List.mem_append.mp ((diagnostics_perm registry source).mem_iff.mp hmem) with
    houtside | hinside
  · obtain ⟨other, hother, hnot, rfl⟩ := mem_outsideSections.mp houtside
    have hsame := eq_of_mem_numberedLines (mem_numberedLines_of_outside hother)
      (mem_numberedLines_of_outside hline) hnumber
    exact hnot (hsame ▸ hread)
  · exact line_ne_of_outside hline diagnostic hinside hnumber

/-- **A line outside sections** that is not blank is reported once, and for nothing else. -/
theorem diagnosticsOn_of_outside {number : Nat} {text : String}
    (hline : (number, text) ∈ (cutSections (numberedLines source)).1)
    (hread : LineFields.read text ≠ .ok none) :
    (assemble registry source).diagnosticsOn number = [⟨number, .outsideSection⟩] := by
  have hnumbers : ((outsideSections (cutSections (numberedLines source)).1).map
      Diagnostic.line).Nodup := by
    have hsub := sublist_lines_outsideSections (cutSections (numberedLines source)).1
    have hall := nodup_numberedLines source
    rw [← cutSections_flatten (numberedLines source), List.map_append] at hall
    exact hsub.nodup hall.of_append_left
  have houtside : (outsideSections (cutSections (numberedLines source)).1).filter
      (fun diagnostic => diagnostic.line = number) = [⟨number, .outsideSection⟩] :=
    filter_eq_singleton_of_nodup (x := ⟨number, .outsideSection⟩) hnumbers
      (mem_outsideSections.mpr ⟨_, hline, hread, rfl⟩)
  have hinside : (sectionDiagnostics registry source).filter
      (fun diagnostic => diagnostic.line = number) = [] := by
    simp only [List.filter_eq_nil_iff, decide_eq_true_eq]
    exact line_ne_of_outside hline
  have hperm := (diagnostics_perm registry source).filter fun diagnostic =>
    diagnostic.line = number
  rw [List.filter_append, houtside, hinside, List.append_nil] at hperm
  exact List.perm_singleton.mp hperm

end

/-- **Every line is accounted for.**  On a blank line of a source text there is no statement and
no diagnostic.  Any other line before the first that opens a section has no statement and is
reported as being outside, and for nothing else.  And any other line from there on is kept as one
statement, with nothing reported that says it was left out, or it has no statement and an error.
Statements stand in the order of their lines, and so do diagnostics. -/
theorem every_line_is_accounted_for (registry : Registry) (source : String) :
    (∀ number text, (number, text) ∈ numberedLines source →
      (LineFields.read text = .ok none →
        (assemble registry source).statementsOn number = [] ∧
        (assemble registry source).diagnosticsOn number = []) ∧
      (LineFields.read text ≠ .ok none →
        (∀ line ∈ numberedLines source, line.1 ≤ number → opensSection line.2 = false) →
        (assemble registry source).statementsOn number = [] ∧
        (assemble registry source).diagnosticsOn number = [⟨number, .outsideSection⟩]) ∧
      (LineFields.read text ≠ .ok none →
        (∃ line ∈ numberedLines source, line.1 ≤ number ∧ opensSection line.2 = true) →
        (((assemble registry source).statementsOn number).length = 1 ∧
          ∀ diagnostic ∈ (assemble registry source).diagnosticsOn number,
            diagnostic.fault ≠ .addressOverflow ∧ diagnostic.fault ≠ .outsideSection ∧
              ∀ value, diagnostic.fault ≠ .invalidValue value) ∨
        ((assemble registry source).statementsOn number = [] ∧
          ∃ diagnostic ∈ (assemble registry source).diagnosticsOn number,
            diagnostic.isError = true))) ∧
    ((assemble registry source).statements.map Statement.line).Pairwise (· < ·) ∧
    ((assemble registry source).diagnostics.map Diagnostic.line).Pairwise (· ≤ ·) := by
  refine ⟨?_, pairwise_lines_statements registry source, pairwise_lines_diagnostics ..⟩
  intro number text hline
  have hsplit := hline
  rw [← cutSections_flatten (numberedLines source), List.mem_append] at hsplit
  rcases hsplit with houtside | hinside
  · -- Before the first section.
    have hkept : (assemble registry source).statementsOn number = [] :=
      statementsOn_eq_nil_iff.mpr (notMem_lines_of_outside houtside)
    refine ⟨fun hread => ⟨hkept, ?_⟩, fun hread _ => ⟨hkept, ?_⟩, ?_⟩
    · exact diagnosticsOn_of_blank_outside houtside hread
    · exact diagnosticsOn_of_outside houtside hread
    · rintro - ⟨opening, hmem, hle, hopens⟩
      rw [(mem_cutSections_fst_iff hline).mp houtside opening hmem hle] at hopens
      cases hopens
  · -- In a section.
    obtain ⟨lines, hlines, hmem⟩ := List.mem_flatten.mp hinside
    have haccount : Layout.Account (number, text)
        ((assemble registry source).statements.map Statement.line)
        (assemble registry source).diagnostics := account_assemble hlines hmem
    have hnot : ¬ ∀ line ∈ numberedLines source, line.1 ≤ number →
        opensSection line.2 = false := by
      rw [← mem_cutSections_fst_iff hline]
      intro hbefore
      exact Nat.lt_irrefl _ (lt_of_mem_cutSections hbefore hinside)
    cases haccount with
    | blank hread hnone hsilent =>
        refine ⟨fun _ => ⟨statementsOn_eq_nil_iff.mpr hnone, ?_⟩, fun hne => absurd hread hne,
          fun hne => absurd hread hne⟩
        exact diagnosticsOn_eq_nil_iff.mpr hsilent
    | refused hread hnone herror =>
        refine ⟨fun hblank => absurd hblank hread, fun _ hclosed => absurd hclosed hnot,
          fun _ _ => Or.inr ⟨statementsOn_eq_nil_iff.mpr hnone, ?_⟩⟩
        obtain ⟨diagnostic, hin, hnumber, hserious⟩ := herror
        exact ⟨diagnostic, mem_diagnosticsOn.mpr ⟨hin, hnumber⟩, hserious⟩
    | kept hread hkept hfaults =>
        refine ⟨fun hblank => absurd hblank hread, fun _ hclosed => absurd hclosed hnot,
          fun _ _ => Or.inl ⟨length_statementsOn hkept, ?_⟩⟩
        intro diagnostic hdiagnostic
        obtain ⟨hin, hnumber⟩ := mem_diagnosticsOn.mp hdiagnostic
        have hfault := hfaults diagnostic hin hnumber
        refine ⟨?_, ?_, ?_⟩
        · intro hthis
          simp [hthis, Fault.leavesOut] at hfault
        · intro hthis
          simp [hthis, Fault.leavesOut] at hfault
        · intro value hthis
          simp [hthis, Fault.leavesOut] at hfault

/-- Lines of every kind: a stray one, the opening of a section, a remark, one that is kept although
its symbol is missing, and one that cannot be read. -/
def mixedLines : String := "\tLDA\t#1\nMAIN\tSTART\t0\n. a remark\n\tLDA\tNONE\n\tLDA\t,\n"

/-- In `mixedLines`, line 1 is outside, line 3 is blank, line 4 is kept and line 5 is refused. -/
theorem every_line_of_mixedLines_is_accounted_for :
    (assemble loadRegistry mixedLines).diagnosticsOn 1 = [⟨1, .outsideSection⟩] ∧
    (assemble loadRegistry mixedLines).diagnosticsOn 3 = [] ∧
    ((assemble loadRegistry mixedLines).statementsOn 4).length = 1 ∧
    (∃ diagnostic ∈ (assemble loadRegistry mixedLines).diagnosticsOn 5,
      diagnostic.isError = true) ∧
    ((assemble loadRegistry mixedLines).statements.map Statement.line) = [2, 4] := by
  obtain ⟨haccount, -⟩ := every_line_is_accounted_for loadRegistry mixedLines
  have hkept : ((assemble loadRegistry mixedLines).statements.map Statement.line) = [2, 4] := by
    decide +kernel
  obtain ⟨-, houtside, -⟩ := haccount 1 "\tLDA\t#1" (by decide +kernel)
  obtain ⟨hblank, -⟩ := haccount 3 ". a remark" (by decide +kernel)
  obtain ⟨-, -, hin⟩ := haccount 4 "\tLDA\tNONE" (by decide +kernel)
  obtain ⟨-, -, hrefused⟩ := haccount 5 "\tLDA\t," (by decide +kernel)
  refine ⟨(houtside (by decide +kernel) (by decide +kernel)).2, (hblank (by decide +kernel)).2,
    ?_, ?_, hkept⟩
  · rcases hin (by decide +kernel) (by decide +kernel) with ⟨hone, -⟩ | ⟨hnone, -⟩
    · exact hone
    · rw [statementsOn_eq_nil_iff, hkept] at hnone
      simp at hnone
  · rcases hrefused (by decide +kernel) (by decide +kernel) with ⟨hone, -⟩ | ⟨-, herror⟩
    · have hnone : (assemble loadRegistry mixedLines).statementsOn 5 = [] := by
        rw [statementsOn_eq_nil_iff, hkept]
        simp
      rw [hnone] at hone
      cases hone
    · exact herror

end Program

end SicXe
