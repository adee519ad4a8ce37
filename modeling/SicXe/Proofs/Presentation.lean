import Mathlib.Algebra.GroupWithZero.Nat
import Mathlib.Algebra.Order.BigOperators.Group.List
import Mathlib.Algebra.Order.Group.Nat
import Mathlib.Order.Monotone.Basic
import SicXe.Listing
import SicXe.Proofs.LineAccounts

/-!
# SicXe.Proofs.Presentation

How a source text is laid out on its lines does not matter.

Blank lines and comment lines do nothing (`ofLines_countedLines`), and the numbers and comments of
the other lines decide nothing (`ofLines_revise`).  So two sources whose other lines say the same,
line by line, give the same object file, the same listings and the same entry address, and what is
reported about them is the same but for the line numbers (`presentation_does_not_matter`).
-/

namespace SicXe

/-! ## lines that count -/

namespace LineFields

/-- Whether a line counts: it is neither blank nor a comment. -/
def counts (line : String) : Bool :=
  match read line with
  | .ok none => false
  | _ => true

/-- A line that does not count has nothing to read. -/
theorem read_of_not_counts {line : String} (h : counts line = false) : read line = .ok none := by
  unfold counts at h
  split at h
  · assumption
  · cases h

/-- A line counts unless there is nothing to read in it. -/
theorem counts_iff {line : String} : counts line = true ↔ read line ≠ .ok none := by
  constructor
  · intro h hread
    rw [counts, hread] at h
    cases h
  · intro h
    by_contra hnot
    exact h (read_of_not_counts (Bool.eq_false_iff.mpr hnot))

end LineFields

namespace Program

/-- The numbered lines that count. -/
def countedLines (lines : List (Nat × String)) : List (Nat × String) :=
  lines.filter fun line => LineFields.counts line.2

/-- The numbered lines of a source text that count. -/
def statementLines (source : String) : List (Nat × String) :=
  countedLines (numberedLines source)

section
variable {line : Nat × String} (rest : List (Nat × String))

theorem countedLines_cons_of_counts (h : LineFields.counts line.2 = true) :
    countedLines (line :: rest) = line :: countedLines rest := by
  rw [countedLines, List.filter_cons, if_pos h, countedLines]

theorem countedLines_cons_of_not_counts (h : LineFields.counts line.2 = false) :
    countedLines (line :: rest) = countedLines rest := by
  rw [countedLines, List.filter_cons, if_neg (Bool.eq_false_iff.mp h), countedLines]

end

/-- Lines that do not count leave no trace in a layout. -/
theorem addLines_countedLines (registry : Registry) (layout : Layout)
    (lines : List (Nat × String)) :
    layout.addLines registry (countedLines lines) = layout.addLines registry lines := by
  induction lines generalizing layout with
  | nil => rfl
  | cons line rest ih =>
      cases hcounts : LineFields.counts line.2 with
      | true => simp only [countedLines_cons_of_counts rest hcounts, Layout.addLines, ih]
      | false =>
          have hblank : layout.addLine registry line = (layout, ∅) := by
            simp only [Layout.addLine, Layout.draft, LineFields.read_of_not_counts hcounts]
          rw [countedLines_cons_of_not_counts rest hcounts, ih]
          simp only [Layout.addLines, hblank]
          rfl

/-- Lines that do not count leave no trace in a section. -/
theorem assembleSection_countedLines (registry : Registry) (lines : List (Nat × String)) :
    assembleSection registry (countedLines lines) = assembleSection registry lines := by
  simp only [assembleSection, Section.layOut, addLines_countedLines]

/-- Lines that do not count are not reported outside of sections. -/
theorem outsideSections_countedLines (lines : List (Nat × String)) :
    outsideSections (countedLines lines) = outsideSections lines := by
  rw [outsideSections, outsideSections, countedLines, List.filterMap_filter]
  apply List.filterMap_congr
  intro line _
  cases hcounts : LineFields.counts line.2 with
  | true => rfl
  | false =>
      rw [LineFields.read_of_not_counts hcounts]
      rfl

/-- A line that opens a section counts. -/
theorem counts_of_opensSection {line : String} (h : opensSection line = true) :
    LineFields.counts line = true := by
  rw [LineFields.counts_iff]
  intro hread
  rw [opensSection, hread] at h
  cases h

/-- Lines that do not count move no boundary between sections. -/
theorem cutSections_countedLines (lines : List (Nat × String)) :
    cutSections (countedLines lines) =
      (countedLines (cutSections lines).1, (cutSections lines).2.map countedLines) := by
  induction lines with
  | nil => rfl
  | cons line rest ih =>
      rw [cutSections_cons]
      cases hopens : opensSection line.2 with
      | true =>
          -- A line that opens a section counts, so it opens one among those that count, too.
          have hcounts := counts_of_opensSection hopens
          rw [countedLines_cons_of_counts rest hcounts, cutSections_cons, hopens, ih]
          simp only [if_true, List.map_cons, countedLines_cons_of_counts _ hcounts]
          rfl
      | false =>
          cases hcounts : LineFields.counts line.2 with
          | true =>
              rw [countedLines_cons_of_counts rest hcounts, cutSections_cons, hopens, ih]
              simp only [Bool.false_eq_true, if_false, countedLines_cons_of_counts _ hcounts]
          | false =>
              rw [countedLines_cons_of_not_counts rest hcounts, ih]
              simp only [Bool.false_eq_true, if_false, countedLines_cons_of_not_counts _ hcounts]

/-- Assemble numbered lines. -/
def ofLines (registry : Registry) (lines : List (Nat × String)) : Program :=
  let cut := cutSections lines
  ofResults (outsideSections cut.1) (cut.2.map (assembleSection registry))

/-- **Blank lines and comment lines do nothing.** -/
theorem ofLines_countedLines (registry : Registry) (lines : List (Nat × String)) :
    ofLines registry (countedLines lines) = ofLines registry lines := by
  simp only [ofLines, cutSections_countedLines, outsideSections_countedLines, List.map_map]
  simp only [Function.comp_def, assembleSection_countedLines]

end Program

/-! ## programs of revised lines -/

section
variable (revision : Revision)

namespace Program

/-- A program of revised lines. -/
def revise (program : Program) : Program :=
  { program with
    sections := program.sections.map (Section.revise revision)
    diagnostics := program.diagnostics.map (Diagnostic.revise revision) }

/-- A revised line opens a section if it did before. -/
theorem opensSection_revise {line revised : Nat × String} (h : revision.Carries line revised) :
    opensSection revised.2 = opensSection line.2 := by
  rw [opensSection, h.fields, opensSection]
  cases LineFields.read line.2 with
  | error error => rfl
  | ok read => cases read <;> rfl

/-- The boundaries between sections stay where they are. -/
theorem cutSections_revise {lines revised : List (Nat × String)}
    (h : List.Forall₂ revision.Carries lines revised) :
    List.Forall₂ revision.Carries (cutSections lines).1 (cutSections revised).1 ∧
      List.Forall₂ (List.Forall₂ revision.Carries) (cutSections lines).2
        (cutSections revised).2 := by
  induction h with
  | nil => exact ⟨.nil, .nil⟩
  | @cons line revised rest others hline hrest ih =>
      obtain ⟨hbefore, hsections⟩ := ih
      rw [cutSections_cons, cutSections_cons, opensSection_revise revision hline]
      split
      · exact ⟨.nil, .cons (.cons hline hbefore) hsections⟩
      · exact ⟨.cons hline hbefore, hsections⟩

/-- The same lines are reported outside of sections, by their new numbers. -/
theorem outsideSections_revise {lines revised : List (Nat × String)}
    (h : List.Forall₂ revision.Carries lines revised) :
    outsideSections revised = (outsideSections lines).map (Diagnostic.revise revision) := by
  induction h with
  | nil => rfl
  | @cons line revised rest others hline hrest ih =>
      simp only [outsideSections] at ih ⊢
      rw [List.filterMap_cons, List.filterMap_cons, hline.fields, hline.number]
      cases LineFields.read line.2 with
      | error error => exact congrArg _ ih
      | ok read =>
          cases read with
          | none => exact ih
          | some fields => exact congrArg _ ih

/-- Each section of revised lines is the section it was, revised. -/
theorem map_assembleSection_revise (registry : Registry)
    {sections revised : List (List (Nat × String))}
    (h : List.Forall₂ (List.Forall₂ revision.Carries) sections revised) :
    revised.map (assembleSection registry) =
      (sections.map (assembleSection registry)).map (Section.reviseBoth revision) := by
  induction h with
  | nil => rfl
  | cons hsection hrest ih =>
      rw [List.map_cons, assembleSection_revise revision registry hsection, ih]
      rfl

/-- The statement that ends a program is the same one. -/
theorem endStatement?_revise (sections : List Section) :
    endStatement? (sections.map (Section.revise revision)) =
      (endStatement? sections).map (Statement.revise revision) := by
  have hstatements : (sections.map (Section.revise revision)).flatMap Section.statements =
      (sections.flatMap Section.statements).map (Statement.revise revision) := by
    rw [List.flatMap_map, List.map_flatMap]
    rfl
  rw [endStatement?, hstatements, List.find?_map]
  rfl

/-- The entry is found where it was, and trouble with it is reported on the new line. -/
theorem findEntry_revise (sections : List Section) :
    findEntry (sections.map (Section.revise revision)) =
      (findEntry sections).mapError (Diagnostic.revise revision) := by
  simp only [findEntry, List.head?_map, endStatement?_revise]
  cases sections.head? with
  | none => rfl
  | some first =>
      cases endStatement? sections with
      | none => rfl
      | some statement =>
          simp only [Option.map_some, Statement.revise, Section.revise]
          split
          · split <;> rfl
          · split <;> rfl
          · rfl

/-- Renumbering that keeps the order of lines keeps the order of diagnostics. -/
theorem sortDiagnostics_revise (hmono : StrictMono revision.line)
    (diagnostics : List Diagnostic) :
    sortDiagnostics (diagnostics.map (Diagnostic.revise revision)) =
      (sortDiagnostics diagnostics).map (Diagnostic.revise revision) := by
  refine stableSort_map (fun first second => ?_) diagnostics
  exact decide_eq_decide.mpr hmono.le_iff_le

/-- A program is put together from revised sections as it was from the sections. -/
theorem ofResults_revise (hmono : StrictMono revision.line) (outside : List Diagnostic)
    (results : List (Section × Journal)) :
    ofResults (outside.map (Diagnostic.revise revision))
        (results.map (Section.reviseBoth revision)) =
      (ofResults outside results).revise revision := by
  have hsections : (results.map (Section.reviseBoth revision)).map Prod.fst =
      (results.map Prod.fst).map (Section.revise revision) := by
    rw [List.map_map, List.map_map]
    rfl
  have hdiagnostics : ((results.map (Section.reviseBoth revision)).flatMap fun result =>
      result.2.diagnostics) = (results.flatMap fun result => result.2.diagnostics).map
        (Diagnostic.revise revision) := by
    rw [List.flatMap_map, List.map_flatMap]
    rfl
  simp only [ofResults, hsections, hdiagnostics, findEntry_revise]
  cases findEntry (results.map Prod.fst) with
  | ok entry =>
      simp only [Except.mapError, ← List.map_append, sortDiagnostics_revise revision hmono]
      rfl
  | error diagnostic =>
      have hlast : [diagnostic.revise revision] = [diagnostic].map (Diagnostic.revise revision) :=
        rfl
      simp only [Except.mapError, hlast, ← List.map_append, sortDiagnostics_revise revision hmono]
      rfl

/-- **Line numbers and comments decide nothing** in a program, as long as the lines keep their
order. -/
theorem ofLines_revise (registry : Registry) (hmono : StrictMono revision.line)
    {lines revised : List (Nat × String)} (h : List.Forall₂ revision.Carries lines revised) :
    ofLines registry revised = (ofLines registry lines).revise revision := by
  obtain ⟨hbefore, hsections⟩ := cutSections_revise revision h
  simp only [ofLines, outsideSections_revise revision hbefore,
    map_assembleSection_revise revision registry hsections]
  exact ofResults_revise revision hmono _ _

/-! ## the texts of a revised program -/

/-- Packing looks neither at line numbers nor at comments. -/
theorem pushStatements_revise (length : Nat) (current : ObjectRecord.OpenText)
    (statements : List Statement) :
    ObjectRecord.pushStatements length current (statements.map (Statement.revise revision)) =
      ObjectRecord.pushStatements length current statements := by
  induction statements generalizing current with
  | nil => rfl
  | cons statement rest ih =>
      have hpushed : ObjectRecord.pushStatement length current (statement.revise revision) =
          ObjectRecord.pushStatement length current statement := rfl
      simp only [List.map_cons, ObjectRecord.pushStatements, hpushed, ih]

variable (program : Program)

/-- The object file of revised lines is the one it was. -/
theorem objectText_revise : (program.revise revision).objectText = program.objectText := by
  have hsection : ∀ sect entry, ObjectRecord.ofSection (sect.revise revision) entry =
      ObjectRecord.ofSection sect entry := by
    intro sect entry
    simp only [ObjectRecord.ofSection, Section.revise, pushStatements_revise]
  have hrecords : (program.revise revision).objectRecords = program.objectRecords := by
    simp only [objectRecords, revise, List.zipIdx_map, List.map_map]
    apply List.map_congr_left
    intro entry _
    exact hsection ..
  rw [objectText, hrecords, objectText]

theorem entry_revise : (program.revise revision).entry = program.entry := rfl

theorem symbolListing_revise :
    (program.revise revision).symbolListing = program.symbolListing := by
  rw [symbolListing, revise, List.map_map]
  rfl

theorem literalListing_revise :
    (program.revise revision).literalListing = program.literalListing := by
  rw [literalListing, revise, List.flatMap_map]
  rfl

end Program

end

/-! ## lines that say the same -/

namespace LineFields

/-- Whether two lines say the same: they have the same fields but for the comment, or neither can be
read. -/
def agree (first second : String) : Bool :=
  match read first, read second with
  | .ok (some fields), .ok (some others) =>
    fields.label = others.label && fields.operator = others.operator &&
      fields.operands = others.operands
  | .error _, .error _ => true
  | _, _ => false

/-- A line that counts says the same as itself. -/
theorem agree_self {line : String} (h : counts line = true) : agree line line = true := by
  unfold counts at h
  unfold agree
  cases hread : read line with
  | error error => rfl
  | ok found =>
      cases found with
      | none => simp [hread] at h
      | some fields => simp

/-- The comment of a line. -/
def comment? (line : String) : Option String :=
  match read line with
  | .ok (some fields) => fields.comment
  | _ => none

/-- The one thing that can be wrong with the fields of a line. -/
theorem eq_missingOperator_of_read {line : String} {error : ReadError}
    (h : read line = .error error) : error = .missingOperator := by
  unfold read at h
  split at h
  · cases h
  · dsimp only at h
    split at h
    · cases h
    · split at h
      · cases h
        rfl
      · cases h

/-- A line that says the same as another has its fields, with a comment of its own. -/
theorem read_of_agree {first second : String} (h : agree first second = true) :
    read second = (read first).map (Option.map fun fields =>
      { fields with comment := comment? second }) := by
  unfold agree at h
  unfold comment?
  split at h
  · next fields others hfirst hsecond =>
      obtain ⟨label, operator, operands, comment⟩ := fields
      obtain ⟨label', operator', operands', comment'⟩ := others
      simp only [Bool.and_eq_true, decide_eq_true_eq] at h
      obtain ⟨⟨rfl, rfl⟩, rfl⟩ := h
      rw [hfirst, hsecond]
      rfl
  · next error other hfirst hsecond =>
      rw [hfirst, hsecond, eq_missingOperator_of_read hfirst, eq_missingOperator_of_read hsecond]
      rfl
  · cases h

end LineFields

namespace Program

/-- Lines numbered from 0. -/
def indexedLines (lines : List String) : List (Nat × String) :=
  lines.zipIdx.map fun (line, index) => (index, line)

/-- Where the lines of given numbers stand; lines behind them stand further down. -/
def numberAt (numbers : List Nat) (index : Nat) : Nat :=
  numbers.getD index (numbers.sum + index + 1)

theorem numberAt_of_lt {numbers : List Nat} {index : Nat} (h : index < numbers.length) :
    numberAt numbers index = numbers[index] := by
  simp [numberAt, h]

/-- Behind the last of the numbers there is a new one for each index. -/
theorem numberAt_of_le {numbers : List Nat} {index : Nat} (h : numbers.length ≤ index) :
    numberAt numbers index = numbers.sum + index + 1 := by
  simp [numberAt, h]

/-- Lines that stand in order keep it, also those behind the last of them. -/
theorem strictMono_numberAt {numbers : List Nat} (h : numbers.Pairwise (· < ·)) :
    StrictMono (numberAt numbers) := by
  intro i j hij
  by_cases hj : j < numbers.length
  · have hi := hij.trans hj
    rw [numberAt_of_lt hj, numberAt_of_lt hi]
    exact List.pairwise_iff_getElem.mp h i j hi hj hij
  · rw [numberAt_of_le (Nat.le_of_not_lt hj)]
    by_cases hi : i < numbers.length
    · -- No number of the list is larger than their sum.
      have hle : numbers[i] ≤ numbers.sum := List.le_sum_of_mem (List.getElem_mem hi)
      rw [numberAt_of_lt hi]
      omega
    · rw [numberAt_of_le (Nat.le_of_not_lt hi)]
      omega

/-- The revision that puts lines numbered from 0 where given lines stand. -/
def revisionTo (lines : List (Nat × String)) : Revision where
  line := numberAt (lines.map Prod.fst)
  comment index _ := lines[index]?.bind fun line => LineFields.comment? line.2

theorem line_revisionTo (lines : List (Nat × String)) :
    (revisionTo lines).line = numberAt (lines.map Prod.fst) := rfl

/-- Lines that say the same are carried to each other by the revision to their places. -/
theorem carries_revisionTo {texts : List String} {lines : List (Nat × String)}
    (h : List.Forall₂ (fun text line => LineFields.agree text line.2 = true) texts lines) :
    List.Forall₂ (revisionTo lines).Carries (indexedLines texts) lines := by
  obtain ⟨hlength, hagree⟩ := List.forall₂_iff_get.mp h
  refine List.forall₂_iff_get.mpr ⟨by simp [indexedLines, hlength], fun i hi hline => ?_⟩
  have htext : i < texts.length := hlength ▸ hline
  have hindexed : (indexedLines texts).get ⟨i, hi⟩ = (i, texts[i]) := by simp [indexedLines]
  have hread := LineFields.read_of_agree (hagree i htext hline)
  have hrevise : LineFields.revise (revisionTo lines) i =
      fun fields => { fields with comment := LineFields.comment? lines[i].2 } := by
    funext fields
    simp [LineFields.revise, revisionTo, hline]
  have hnumber : i < (lines.map Prod.fst).length := by simpa using hline
  rw [hindexed]
  exact ⟨by simp [revisionTo, numberAt_of_lt hnumber], hrevise ▸ hread⟩

/-- What is reported is about a line that counts. -/
theorem line_mem_statementLines {registry : Registry} {source : String} {diagnostic : Diagnostic}
    (h : diagnostic ∈ (assemble registry source).diagnostics) :
    diagnostic.line ∈ (statementLines source).map Prod.fst := by
  have hcounted : ∀ line ∈ numberedLines source, LineFields.read line.2 ≠ .ok none →
      line.1 ∈ (statementLines source).map Prod.fst := by
    intro line hline hread
    exact List.mem_map_of_mem (List.mem_filter.mpr ⟨hline, LineFields.counts_iff.mpr hread⟩)
  have hsection : ∀ lines ∈ (cutSections (numberedLines source)).2,
      ∀ number ∈ (countedLines lines).map Prod.fst,
        number ∈ (statementLines source).map Prod.fst := by
    intro lines hlines number hnumber
    obtain ⟨line, hline, rfl⟩ := List.mem_map.mp hnumber
    obtain ⟨hmem, hcounts⟩ := List.mem_filter.mp hline
    exact hcounted line (mem_numberedLines_of_mem_section hlines hmem)
      (LineFields.counts_iff.mp hcounts)
  rcases List.mem_append.mp ((diagnostics_perm registry source).mem_iff.mp h) with
    houtside | hinside
  · obtain ⟨line, hline, hread, rfl⟩ := mem_outsideSections.mp houtside
    exact hcounted line (mem_numberedLines_of_outside hline) hread
  · rcases mem_sectionDiagnostics hinside with ⟨lines, hlines, hin⟩ | ⟨-, hwhere⟩
    · rw [← addLines_countedLines] at hin
      exact hsection lines hlines _ (Layout.line_of_mem_addLines hin)
    · rcases hwhere with ⟨lines, hlines, line, hline, hnumber, hread⟩ | hstatement
      · exact hnumber ▸ hcounted line (mem_numberedLines_of_mem_section hlines hline) hread
      · obtain ⟨lines, hlines, hin⟩ := mem_lines_statements.mp hstatement
        rw [layoutOf, ← addLines_countedLines] at hin
        exact hsection lines hlines _ (mem_lines_of_mem_layoutOf hin)

/-- Lines that count are numbered upwards. -/
theorem pairwise_statementLines (source : String) :
    ((statementLines source).map Prod.fst).Pairwise (· < ·) :=
  (pairwise_numberedLines source).sublist (List.filter_sublist.map Prod.fst)

/-- A source is a revision of any texts that say what its lines say. -/
theorem assemble_eq_revise (registry : Registry) {texts : List String} {source : String}
    (h : List.Forall₂ (fun text line => LineFields.agree text line.2 = true) texts
      (statementLines source)) :
    assemble registry source =
      (ofLines registry (indexedLines texts)).revise
        (revisionTo (statementLines source)) := by
  have hmono : StrictMono (revisionTo (statementLines source)).line := by
    rw [line_revisionTo]
    exact strictMono_numberAt (pairwise_statementLines source)
  have hlines : assemble registry source = ofLines registry (numberedLines source) := by
    simp only [assemble, sectionResults, ofLines]
  rw [hlines, ← ofLines_countedLines]
  exact ofLines_revise _ registry hmono (carries_revisionTo h)

/-- Two sources whose lines say the same are revisions of one program. -/
theorem exists_eq_revise (registry : Registry) {first second : String}
    (h : List.Forall₂ (fun line other => LineFields.agree line.2 other.2 = true)
      (statementLines first) (statementLines second)) :
    ∃ program, assemble registry first = revise (revisionTo (statementLines first)) program ∧
      assemble registry second = revise (revisionTo (statementLines second)) program := by
  have hself : List.Forall₂ (fun line other => LineFields.agree line.2 other.2 = true)
      (statementLines first) (statementLines first) :=
    List.forall₂_same.mpr fun line hline => LineFields.agree_self (List.mem_filter.mp hline).2
  exact ⟨ofLines registry (indexedLines ((statementLines first).map Prod.snd)),
    assemble_eq_revise registry (List.forall₂_map_left_iff.mpr hself),
    assemble_eq_revise registry (List.forall₂_map_left_iff.mpr h)⟩

/-- An index that one list of numbers has pairs its number with that of the other list. -/
theorem mem_zip_numberAt {numbers others : List Nat} (hsorted : numbers.Pairwise (· < ·))
    (hlength : numbers.length = others.length) {index : Nat}
    (h : numberAt numbers index ∈ numbers) :
    (numberAt numbers index, numberAt others index) ∈ numbers.zip others := by
  obtain ⟨i, hi, heq⟩ := List.mem_iff_getElem.mp h
  rw [← numberAt_of_lt hi] at heq
  obtain rfl := (strictMono_numberAt hsorted).injective heq
  have hzip : i < (numbers.zip others).length := by
    rw [List.length_zip, ← hlength, Nat.min_self]
    exact hi
  rw [numberAt_of_lt hi, numberAt_of_lt (hlength ▸ hi), ← List.getElem_zip (h := hzip)]
  exact List.getElem_mem hzip

/-- **Presentation does not matter.**  Let the lines of two sources that count say the same, line by
line; the sources may differ in blank lines, comments, blanks around fields and line ends, and in
what stands on lines that cannot be read.  Then they have the same object file, the same listings
and the same entry address.  What is reported about them is the same, too, in the same order, and
each diagnostic is about the line that goes with the line of the other. -/
theorem presentation_does_not_matter (registry : Registry) (first second : String)
    (h : List.Forall₂ (fun line other => LineFields.agree line.2 other.2 = true)
      (statementLines first) (statementLines second)) :
    (assemble registry first).objectText = (assemble registry second).objectText ∧
    (assemble registry first).symbolListing = (assemble registry second).symbolListing ∧
    (assemble registry first).literalListing = (assemble registry second).literalListing ∧
    (assemble registry first).entry = (assemble registry second).entry ∧
    List.Forall₂ (fun diagnostic other => diagnostic.fault = other.fault ∧
        (diagnostic.line, other.line) ∈
          ((statementLines first).map Prod.fst).zip ((statementLines second).map Prod.fst))
      (assemble registry first).diagnostics (assemble registry second).diagnostics := by
  obtain ⟨program, hfirst, hsecond⟩ := exists_eq_revise registry h
  refine ⟨?_, ?_, ?_, ?_, ?_⟩
  · rw [hfirst, hsecond, objectText_revise, objectText_revise]
  · rw [hfirst, hsecond, symbolListing_revise, symbolListing_revise]
  · rw [hfirst, hsecond, literalListing_revise, literalListing_revise]
  · rw [hfirst, hsecond, entry_revise, entry_revise]
  · have hcounted : ∀ diagnostic ∈ (assemble registry first).diagnostics,
        diagnostic.line ∈ (statementLines first).map Prod.fst :=
      fun diagnostic hmem => line_mem_statementLines hmem
    have hlength : ((statementLines first).map Prod.fst).length =
        ((statementLines second).map Prod.fst).length := by
      rw [List.length_map, List.length_map, h.length_eq]
    rw [hfirst, revise, List.forall_mem_map] at hcounted
    rw [hfirst, hsecond, revise, revise, List.forall₂_map_left_iff, List.forall₂_map_right_iff,
      List.forall₂_same]
    intro diagnostic hmem
    have hline := hcounted diagnostic hmem
    rw [Diagnostic.line_revise, line_revisionTo] at hline
    rw [Diagnostic.fault_revise, Diagnostic.fault_revise, Diagnostic.line_revise,
      Diagnostic.line_revise, line_revisionTo, line_revisionTo]
    exact ⟨rfl, mem_zip_numberAt (pairwise_statementLines first) hlength hline⟩

/-- A program with a line outside of its section, one that cannot be read and a literal that is not
placed. -/
def tightSource : String :=
  "\tLDA\nP\tSTART\nLONE\n\tLDA\t=X'1F'\tone\n"

/-- The same program with blank lines, other comments and carriage returns. -/
def looseSource : String :=
  "\r\n\tLDA\r\nP \tSTART\r\n.note\r\nOTHER\r\n\tLDA\t =X'1F'\r\n"

theorem agree_looseSource :
    List.Forall₂ (fun line other => LineFields.agree line.2 other.2 = true)
      (statementLines tightSource) (statementLines looseSource) := by
  have htight : statementLines tightSource =
      [(1, "\tLDA"), (2, "P\tSTART"), (3, "LONE"), (4, "\tLDA\t=X'1F'\tone")] := by
    decide +kernel
  have hloose : statementLines looseSource =
      [(2, "\tLDA"), (3, "P \tSTART"), (5, "OTHER"), (6, "\tLDA\t =X'1F'")] := by
    decide +kernel
  rw [htight, hloose]
  refine .cons ?_ (.cons ?_ (.cons ?_ (.cons ?_ .nil)))
  · decide +kernel
  · decide +kernel
  · decide +kernel
  · decide +kernel

theorem presentation_of_looseSource :
    (assemble loadRegistry tightSource).diagnostics.map Diagnostic.line = [1, 3, 4, 4] ∧
      (assemble loadRegistry looseSource).diagnostics.map Diagnostic.line = [2, 5, 6, 6] ∧
      (assemble loadRegistry tightSource).objectText =
        (assemble loadRegistry looseSource).objectText ∧
      (assemble loadRegistry tightSource).symbolListing =
        (assemble loadRegistry looseSource).symbolListing ∧
      (assemble loadRegistry tightSource).literalListing =
        (assemble loadRegistry looseSource).literalListing ∧
      (assemble loadRegistry tightSource).entry = (assemble loadRegistry looseSource).entry ∧
      List.Forall₂ (fun diagnostic other => diagnostic.fault = other.fault ∧
          (diagnostic.line, other.line) ∈ [1, 2, 3, 4].zip [2, 3, 5, 6])
        (assemble loadRegistry tightSource).diagnostics
        (assemble loadRegistry looseSource).diagnostics :=
  ⟨by decide +kernel, by decide +kernel,
    presentation_does_not_matter loadRegistry tightSource looseSource agree_looseSource⟩

end Program

end SicXe
