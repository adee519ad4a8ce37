import SicXe.Proofs.Addresses
import SicXe.Proofs.LineAccounts
import SicXe.Proofs.ObjectFile

/-!
# SicXe.Proofs.SectionRecords

The records of a program, section by section.

A line opens a section if its operator is `START` or `CSECT`.  Cutting the source and laying a
section out find this out separately, one from the name of the operator and one from the operator
it is read as.  The sections of a program are as many as the lines that open one
(`map_opening?_cutSections`).  If nothing was reported as an error, the first statement of a
section is the one of the line that opens it (`statements_of_opening`).  It adds the header, and no
other statement does, so the header stands in front of all other records and there is only one
(`records_of_sections`).
-/

namespace SicXe

theorem Directive.opensSection_ofName?_iff (name : String) :
    (ofName? name).any opensSection = true ↔ name = "START" ∨ name = "CSECT" := by
  constructor
  · intro h
    obtain ⟨directive, hfound, hopens⟩ := (Option.any_eq_true ..).mp h
    have hname : directive.name = name := by simpa using List.find?_some hfound
    cases directive with
    | start => exact Or.inl hname.symm
    | csect => exact Or.inr hname.symm
    | _ => cases hopens
  · rintro (rfl | rfl)
    · decide
    · decide

theorem Statement.totalLength_eq_sum (statements : List Statement) :
    totalLength statements = (statements.map Statement.length).sum := by
  induction statements with
  | nil => rfl
  | cons statement rest ih => rw [totalLength, ih, List.map_cons, List.sum_cons]

/-- Whether a record can stand between the header of a section and what is left to the linker. -/
def ObjectRecord.isContent : ObjectRecord → Bool
  | define _ | refer _ | text _ _ => true
  | _ => false

namespace Program

/-! ## lines that open sections -/

/-- The fields of a line whose operator is `START` or `CSECT`. -/
def opening? (line : String) : Option LineFields :=
  match LineFields.read line with
  | .ok (some fields) =>
    if fields.operator = "START" ∨ fields.operator = "CSECT" then some fields else none
  | _ => none

/-- The lines of a source text whose operator is `START` or `CSECT`, by their fields. -/
def openings (source : String) : List LineFields :=
  (Text.lines source).filterMap opening?

theorem read_of_opening? {line : String} {fields : LineFields} (h : opening? line = some fields) :
    LineFields.read line = .ok (some fields) := by
  unfold opening? at h
  split at h
  · next found hread =>
      split at h
      · rw [hread, Option.some.inj h]
      · cases h
  · cases h

theorem isSome_opening? (line : String) : (opening? line).isSome = opensSection line := by
  unfold opening? opensSection
  cases LineFields.read line with
  | error error => rfl
  | ok found =>
      cases found with
      | none => rfl
      | some fields =>
          have hiff := Directive.opensSection_ofName?_iff fields.operator
          dsimp only
          split
          · next hname => exact (hiff.mpr hname).symm
          · next hname => exact (Bool.eq_false_iff.mpr (mt hiff.mp hname)).symm

/-- **Sections are opened in order**: the lines that open sections are the first lines of the
sections. -/
theorem map_opening?_cutSections (lines : List (Nat × String)) :
    (cutSections lines).2.map (fun chunk => chunk.head?.bind fun line => opening? line.2) =
      (lines.filterMap fun line => opening? line.2).map some := by
  induction lines with
  | nil => rfl
  | cons line rest ih =>
      rw [cutSections_cons, ← isSome_opening?]
      cases hopening : opening? line.2 with
      | none => simpa [hopening] using ih
      | some fields => simpa [hopening] using ih

theorem openings_eq (source : String) :
    openings source = (numberedLines source).filterMap fun line => opening? line.2 := by
  have hlines : (numberedLines source).map Prod.snd = Text.lines source := by
    rw [numberedLines, List.map_map]
    exact List.zipIdx_map_fst ..
  rw [openings, ← hlines, List.filterMap_map]
  rfl

/-- The section of a number is cut from a line that opens it and lines that open none. -/
theorem exists_opening_of_getElem? {source : String} {i : Nat} {fields : LineFields}
    {lines : List (Nat × String)} (hfields : (openings source)[i]? = some fields)
    (hlines : (cutSections (numberedLines source)).2[i]? = some lines) :
    ∃ first rest, lines = first :: rest ∧ opening? first.2 = some fields := by
  have hall := congrArg (·[i]?) (map_opening?_cutSections (numberedLines source))
  simp only [← openings_eq, List.getElem?_map, hfields, hlines, Option.map_some,
    Option.some.injEq] at hall
  cases lines with
  | nil => cases hall
  | cons first rest => exact ⟨first, rest, rfl, hall⟩

/-! ## the statement that opens a section -/

section
variable {registry : Registry}

/-- If nothing is reported as an error, the line that opens a section is kept as its first
statement. -/
theorem statements_of_opening {first : Nat × String} {rest : List (Nat × String)}
    {fields : LineFields} (hopening : opening? first.2 = some fields)
    (honce : OpenedOnce (first :: rest))
    (hreported : ∀ diagnostic ∈ (Layout.addLine registry {} first).2.diagnostics,
      diagnostic.isError = false) :
    ∃ opening added, (layoutOf registry (first :: rest)).statements = opening :: added ∧
      opening.label = fields.label ∧ opening.operator.opensSection = true := by
  have hread := read_of_opening? hopening
  obtain ⟨added, hadded, -⟩ :=
    Layout.statements_of_closed registry (Layout.addLine registry {} first).1 honce
  replace hadded : (layoutOf registry (first :: rest)).statements =
      (Layout.addLine registry {} first).1.statements ++ added := hadded
  rw [hadded]
  have herror : ∀ fault, fault.severity = .error →
      (⟨first.1, fault⟩ : Diagnostic) ∉ (Layout.addLine registry {} first).2.diagnostics := by
    intro fault hsevere hmem
    have hisError := hreported _ hmem
    simp [Diagnostic.isError, Diagnostic.severity, hsevere] at hisError
  have hadd := Layout.added_addLine registry {} first
  generalize Layout.addLine registry {} first = result at hadd herror ⊢
  cases hadd with
  | blank hdraft =>
      rw [Layout.read_of_draft_none hdraft] at hread
      cases hread
  | unreadable fault hdraft =>
      exact absurd (by simp) (herror fault (Fault.severity_of_ofReading
        (Layout.ofReading_of_draft hdraft)))
  | unsized statement fault events hdraft hlength =>
      exact absurd (by simp) (herror fault (Fault.severity_of_ofReading
        (Layout.ofReading_of_lengthOf hlength)))
  | unfit => exact absurd (by simp) (herror .addressOverflow rfl)
  | overflowed => exact absurd (by simp) (herror .addressOverflow rfl)
  | kept statement length events hdraft =>
      rw [Layout.statements_keep]
      refine ⟨_, added, rfl, ?_, ?_⟩
      · obtain ⟨found, hfound, hfields⟩ := Layout.exists_fields_of_draft hdraft
        rw [hread, Except.ok.injEq, Option.some.injEq] at hfound
        subst hfound
        have hlabel : statement.label = fields.label := Layout.label_draftFields hfields
        exact hlabel
      · have hopens : statement.operator.opensSection = true := by
          rw [Layout.opensSection_draft hdraft, ← isSome_opening?, hopening]
          rfl
        exact hopens

/-- Encoding a statement that opens a section gives it a header. -/
theorem contribution_of_opensSection {sect : Section} {base : Option Nat} {statement : Statement}
    (h : statement.operator.opensSection = true) :
    (Encoding.ofStatement registry sect base statement).statement.contribution =
      some (.header (statement.label.getD "") statement.address) := by
  cases hop : statement.operator with
  | directive directive =>
      rw [hop] at h
      cases directive with
      | start => simp [Encoding.ofStatement, hop, Encoding.ofDirective]
      | csect => simp [Encoding.ofStatement, hop, Encoding.ofDirective]
      | _ => cases h
  | _ =>
      rw [hop] at h
      cases h

/-! ## records -/

/-- Statements that open no section have no header among their records. -/
theorem isContent_of_closed (registry : Registry) {lines : List (Nat × String)}
    (honce : OpenedOnce lines) {statements : List Statement}
    (hassembled : ∀ statement ∈ statements,
      statement ∈ (assembleSection registry lines).1.statements)
    (hclosed : ∀ statement ∈ statements, statement.operator.opensSection = false) {length : Nat} :
    ∀ record ∈ ObjectRecord.pushStatements length none statements, record.isContent = true := by
  intro record hmem
  rcases ObjectRecord.isPacked_or_mark_of_mem (by simp [ObjectRecord.close]) record hmem with
    hpacked | ⟨statement, hstatement, hmark⟩
  · cases record with
    | text => rfl
    | _ => cases hpacked
  · have hcloses := hclosed statement hstatement
    obtain ⟨laid, hlaid, base, rfl⟩ := exists_laidOut_of_mem (hassembled statement hstatement)
    rw [Encoding.operator_ofStatement] at hcloses
    rcases Encoding.mark_ofStatement (Layout.laidOut_of_mem honce laid hlaid).contribution hmark
      with ⟨hopens, -⟩ | rfl | rfl
    · rw [hcloses] at hopens
      cases hopens
    · rfl
    · rfl

/-- The records of the statements of a section are its header and then records that can stand
behind it. -/
theorem pushStatements_of_opening {first : Nat × String} {rest : List (Nat × String)}
    {fields : LineFields} (hopening : opening? first.2 = some fields)
    (honce : OpenedOnce (first :: rest))
    (hreported : ∀ diagnostic ∈ (Layout.addLine registry {} first).2.diagnostics,
      diagnostic.isError = false) (length : Nat) :
    ∃ body, ObjectRecord.pushStatements length none
        (assembleSection registry (first :: rest)).1.statements =
          .header (fields.label.getD "") length :: body ∧
      ∀ record ∈ body, record.isContent = true := by
  obtain ⟨opening, added, hstatements, hlabel, hopens⟩ :=
    statements_of_opening hopening honce hreported
  have hencoded : ∃ later, (assembleSection registry (first :: rest)).1.statements =
      (Encoding.ofStatement registry (layoutOf registry (first :: rest)).toSection none
        opening).statement :: later := by
    rw [assembleSection_fst, encodingsOf, hstatements]
    exact ⟨_, rfl⟩
  obtain ⟨later, hlater⟩ := hencoded
  have hclosed : ∀ statement ∈ (assembleSection registry (first :: rest)).1.statements.tail,
      statement.operator.opensSection = false := closed_of_mem_tail_assembleSection honce
  rw [hlater, List.tail_cons] at hclosed
  refine ⟨ObjectRecord.pushStatements length none later, ?_, ?_⟩
  · rw [hlater, ← hlabel]
    simp [ObjectRecord.pushStatements, ObjectRecord.pushStatement,
      contribution_of_opensSection hopens, ObjectRecord.close]
  · refine isContent_of_closed registry honce (fun statement hmem => ?_) hclosed
    rw [hlater]
    exact List.mem_cons_of_mem _ hmem

end

/-- **The records of each section.**  In a program without errors there are as many sections as
lines with the operator `START` or `CSECT`.  The records of a section are a header with the label of
its line, which is empty if there is none, and with the total length of its statements; then only
exported and imported symbols and text; then one record for each relocation, in order; and one end
record, which carries the entry address in the first section and none in the others. -/
theorem records_of_sections (registry : Registry) (source : String)
    (herrors : (assemble registry source).hasErrors = false) :
    (assemble registry source).sections.length = (openings source).length ∧
    (assemble registry source).objectRecords.length = (openings source).length ∧
    ∀ (i : Nat) (sect : Section) (opening : LineFields),
      (assemble registry source).sections[i]? = some sect →
      (openings source)[i]? = some opening →
      ∃ body : List ObjectRecord, (assemble registry source).objectRecords[i]? = some
          (.header (opening.label.getD "") (sect.statements.map Statement.length).sum ::
            body ++ sect.relocations.map .modification ++
            [.endSection (if i = 0 then some (assemble registry source).entry else none)]) ∧
        ∀ record ∈ body, record.isContent = true := by
  have hcount : (assemble registry source).sections.length = (openings source).length := by
    have hlengths := congrArg List.length (map_opening?_cutSections (numberedLines source))
    rw [List.length_map, List.length_map, ← openings_eq] at hlengths
    rw [sections_assemble, List.length_map, hlengths]
  refine ⟨hcount, by rw [objectRecords, List.length_map, List.length_zipIdx, hcount], ?_⟩
  intro i sect opening hsect hopening
  have hrecords : (assemble registry source).objectRecords[i]? =
      some (ObjectRecord.ofSection sect
        (if i = 0 then some (assemble registry source).entry else none)) := by
    rw [objectRecords, List.getElem?_map, List.getElem?_zipIdx, hsect]
    simp
  rw [sections_assemble, List.getElem?_map] at hsect
  obtain ⟨lines, hlines, rfl⟩ := Option.map_eq_some_iff.mp hsect
  have hmem := List.mem_of_getElem? hlines
  obtain ⟨first, rest, rfl, hfirst⟩ := exists_opening_of_getElem? hopening hlines
  have honce := openedOnce_of_mem_cutSections _ _ hmem
  have hreported : ∀ diagnostic ∈ (Layout.addLine registry {} first).2.diagnostics,
      diagnostic.isError = false := by
    intro diagnostic hdiagnostic
    have hall := List.any_eq_false.mp herrors diagnostic
      (mem_diagnostics_of_mem_section hmem (by
        rw [diagnostics_assembleSection, Layout.addLines, Journal.diagnostics_append]
        simp [hdiagnostic]))
    exact Bool.eq_false_iff.mpr hall
  obtain ⟨body, hpushed, hbody⟩ := pushStatements_of_opening hfirst honce hreported
    (assembleSection registry (first :: rest)).1.length
  refine ⟨body, ?_, hbody⟩
  rw [hrecords, ObjectRecord.ofSection, hpushed, assembleSection_fst,
    Statement.totalLength_eq_sum]

/-- A program of two sections, the second of which has no name. -/
def unnamedData : String :=
  "MAIN\tSTART\t0\n\tEXTREF\tBUF\n\tRESB\t2\nGO\t+LDA\tBUF\n\tEND\tGO\n" ++
    "\tCSECT\n\tEXTDEF\tBUF\nBUF\tRESW\t2\n"

/-- A section of `unnamedData`. -/
def unnamedDataSection (index : Nat) : Section :=
  (assemble loadRegistry unnamedData).sections.getD index {}

theorem unnamedData_facts :
    (assemble loadRegistry unnamedData).hasErrors = false ∧
    (assemble loadRegistry unnamedData).entry = 2 ∧
    openings unnamedData = [⟨some "MAIN", "START", some "0", none⟩, ⟨none, "CSECT", none, none⟩] ∧
    (assemble loadRegistry unnamedData).sections[0]? = some (unnamedDataSection 0) ∧
    (assemble loadRegistry unnamedData).sections[1]? = some (unnamedDataSection 1) ∧
    (unnamedDataSection 0).statements.map Statement.length = [0, 0, 2, 4, 0] ∧
    (unnamedDataSection 1).statements.map Statement.length = [0, 0, 6] ∧
    (unnamedDataSection 0).relocations = [⟨3, 5, .plus, "BUF"⟩] ∧
    (unnamedDataSection 1).relocations = [] ∧
    (assemble loadRegistry unnamedData).objectRecords =
      [[.header "MAIN" 6, .refer ["BUF"], .text 2 [0x03, 0x10, 0x00, 0x00],
          .modification ⟨3, 5, .plus, "BUF"⟩, .endSection (some 2)],
        [.header "" 6, .define [("BUF", 0)], .endSection none]] := by
  decide +kernel

/-- The records of both sections of `unnamedData`: between header and end there is a text record in
the first one, and only what is exported in the second. -/
theorem records_of_unnamedData :
    (assemble loadRegistry unnamedData).sections.length = 2 ∧
    (∃ body, (assemble loadRegistry unnamedData).objectRecords[0]? =
        some (.header "MAIN" 6 :: body ++ [.modification ⟨3, 5, .plus, "BUF"⟩] ++
          [.endSection (some 2)]) ∧
      (∀ record ∈ body, record.isContent = true) ∧
      body = [.refer ["BUF"], .text 2 [0x03, 0x10, 0x00, 0x00]]) ∧
    ∃ body, (assemble loadRegistry unnamedData).objectRecords[1]? =
        some (.header "" 6 :: body ++ [] ++ [.endSection none]) ∧
      (∀ record ∈ body, record.isContent = true) ∧ body = [.define [("BUF", 0)]] := by
  obtain ⟨herrors, hentry, hopenings, hfirst, hsecond, hlengths, hmore, hrelocations, hnone,
    hall⟩ := unnamedData_facts
  obtain ⟨hcount, -, hrecords⟩ := records_of_sections loadRegistry unnamedData herrors
  refine ⟨by rw [hcount, hopenings]; rfl, ?_, ?_⟩
  · obtain ⟨body, hbody, hcontent⟩ := hrecords 0 _ _ hfirst (by rw [hopenings]; rfl)
    rw [hlengths, hrelocations, hentry] at hbody
    refine ⟨body, hbody, hcontent, ?_⟩
    rw [hall] at hbody
    have hsame : body ++ [.modification ⟨3, 5, .plus, "BUF"⟩, .endSection (some 2)] =
        [.refer ["BUF"], .text 2 [0x03, 0x10, 0x00, 0x00]] ++
          [.modification ⟨3, 5, .plus, "BUF"⟩, .endSection (some 2)] := by
      simpa [eq_comm] using hbody
    exact List.append_cancel_right hsame
  · obtain ⟨body, hbody, hcontent⟩ := hrecords 1 _ _ hsecond (by rw [hopenings]; rfl)
    rw [hmore, hnone] at hbody
    refine ⟨body, hbody, hcontent, ?_⟩
    rw [hall] at hbody
    have hsame : body ++ [.endSection none] = [.define [("BUF", 0)]] ++ [.endSection none] := by
      simpa [eq_comm] using hbody
    exact List.append_cancel_right hsame

end Program

end SicXe
