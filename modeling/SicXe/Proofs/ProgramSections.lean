import SicXe.Proofs.LayoutStep

/-!
# SicXe.Proofs.ProgramSections

How a program is put together from its sections.

Every section of an assembled program comes from the lines between two lines that open a section,
and everything reported about those lines is reported about the program.  Lines are numbered
from 1 on and cutting them into sections keeps their order, so no number occurs twice in a
program.
-/

namespace SicXe

/-! ## sorting -/

theorem insertSorted_perm (le : α → α → Bool) (x : α) (xs : List α) :
    (insertSorted le x xs).Perm (x :: xs) := by
  induction xs with
  | nil => exact .refl _
  | cons y rest ih =>
      unfold insertSorted
      split
      · exact .refl _
      · exact (ih.cons y).trans (.swap x y rest)

/-- Sorting keeps what there is to be sorted. -/
theorem stableSort_perm (le : α → α → Bool) (xs : List α) : (stableSort le xs).Perm xs := by
  induction xs with
  | nil => exact .refl _
  | cons x rest ih => exact (insertSorted_perm le x _).trans (ih.cons x)

theorem insertSorted_map {le : α → α → Bool} {le' : β → β → Bool} {f : α → β}
    (h : ∀ x y, le' (f x) (f y) = le x y) (x : α) (xs : List α) :
    insertSorted le' (f x) (xs.map f) = (insertSorted le x xs).map f := by
  induction xs with
  | nil => rfl
  | cons y rest ih =>
      simp only [List.map_cons, insertSorted, h, ih]
      split <;> rfl

/-- Sorting commutes with a map that keeps the order. -/
theorem stableSort_map {le : α → α → Bool} {le' : β → β → Bool} {f : α → β}
    (h : ∀ x y, le' (f x) (f y) = le x y) (xs : List α) :
    stableSort le' (xs.map f) = (stableSort le xs).map f := by
  induction xs with
  | nil => rfl
  | cons x rest ih =>
      have hrest : insertSorted le' (f x) (stableSort le' (rest.map f)) =
          (insertSorted le x (stableSort le rest)).map f := by
        rw [ih, insertSorted_map h]
      exact hrest

section
variable {le : α → α → Bool} (htotal : ∀ x y, le x y = true ∨ le y x = true)
  (htrans : ∀ x y z, le x y = true → le y z = true → le x z = true)
include htotal htrans

/-- An element is put in its place among sorted ones. -/
theorem pairwise_insertSorted (x : α) {xs : List α} (h : xs.Pairwise fun a b => le a b = true) :
    (insertSorted le x xs).Pairwise fun a b => le a b = true := by
  induction xs with
  | nil => exact List.pairwise_singleton ..
  | cons y rest ih =>
      obtain ⟨hy, hrest⟩ := List.pairwise_cons.mp h
      unfold insertSorted
      split
      · next hle =>
          refine List.pairwise_cons.mpr ⟨?_, h⟩
          intro z hz
          rcases List.mem_cons.mp hz with rfl | hz
          · exact hle
          · exact htrans x y z hle (hy z hz)
      · next hnot =>
          refine List.pairwise_cons.mpr ⟨?_, ih hrest⟩
          intro z hz
          rcases List.mem_cons.mp ((insertSorted_perm le x rest).mem_iff.mp hz) with rfl | hz
          · exact (htotal z y).resolve_left hnot
          · exact hy z hz

/-- Sorting by a total order leaves no element before a smaller one. -/
theorem pairwise_stableSort (xs : List α) :
    (stableSort le xs).Pairwise fun a b => le a b = true := by
  induction xs with
  | nil => exact .nil
  | cons x rest ih => exact pairwise_insertSorted htotal htrans x ih

end

namespace Program

/-! ## the lines of a section -/

theorem cutSections_cons (line : Nat × String) (lines : List (Nat × String)) :
    cutSections (line :: lines) =
      if opensSection line.2 then ([], (line :: (cutSections lines).1) :: (cutSections lines).2)
      else (line :: (cutSections lines).1, (cutSections lines).2) := rfl

/-- Cutting lines into sections loses and reorders none of them. -/
theorem cutSections_flatten (lines : List (Nat × String)) :
    (cutSections lines).1 ++ (cutSections lines).2.flatten = lines := by
  induction lines with
  | nil => rfl
  | cons line rest ih =>
      rw [cutSections_cons]
      split
      · simp [ih]
      · simp [ih]

/-- No line before the first section opens one. -/
theorem closed_of_mem_cutSections_fst (lines : List (Nat × String)) :
    ∀ line ∈ (cutSections lines).1, opensSection line.2 = false := by
  induction lines with
  | nil => simp [cutSections]
  | cons first rest ih =>
      rw [cutSections_cons]
      split
      · simp
      · next hcloses =>
          intro line hmem
          rcases List.mem_cons.mp hmem with rfl | hrest
          · exact Bool.eq_false_iff.mpr hcloses
          · exact ih line hrest

/-- A section is opened by its first line alone. -/
theorem openedOnce_of_mem_cutSections (lines : List (Nat × String)) :
    ∀ chunk ∈ (cutSections lines).2, OpenedOnce chunk := by
  induction lines with
  | nil => simp [cutSections]
  | cons first rest ih =>
      rw [cutSections_cons]
      split
      · intro chunk hmem
        rcases List.mem_cons.mp hmem with rfl | hrest
        · exact closed_of_mem_cutSections_fst rest
        · exact ih chunk hrest
      · exact ih

/-- The lines of sections are lines of the source. -/
theorem mem_numberedLines_of_mem_section {source : String} {lines : List (Nat × String)}
    {line : Nat × String} (hlines : lines ∈ (cutSections (numberedLines source)).2)
    (h : line ∈ lines) : line ∈ numberedLines source := by
  rw [← cutSections_flatten (numberedLines source)]
  exact List.mem_append_right _ (List.mem_flatten.mpr ⟨lines, hlines, h⟩)

/-! ## sections and diagnostics -/

/-- A program has one section for each result. -/
theorem sections_ofResults (outside : List Diagnostic) (results : List (Section × Journal)) :
    (ofResults outside results).sections = results.map Prod.fst := by
  unfold ofResults
  dsimp only
  split <;> rfl

/-- What is reported is about a line outside sections, about a section, or about the entry address.
-/
theorem mem_diagnostics_ofResults {outside : List Diagnostic}
    {results : List (Section × Journal)} {diagnostic : Diagnostic} :
    diagnostic ∈ (ofResults outside results).diagnostics ↔
      diagnostic ∈ outside ∨ (∃ result ∈ results, diagnostic ∈ result.2.diagnostics) ∨
        findEntry (results.map Prod.fst) = .error diagnostic := by
  unfold ofResults sortDiagnostics
  dsimp only
  split
  · next entry hentry =>
      rw [(stableSort_perm _ _).mem_iff, hentry]
      simp
  · next found hentry =>
      rw [(stableSort_perm _ _).mem_iff, hentry]
      simp [eq_comm]

/-- Every section of a program is assembled from lines cut from its source. -/
theorem exists_lines_of_mem_sections {registry : Registry} {source : String} {sect : Section}
    (h : sect ∈ (assemble registry source).sections) :
    ∃ lines ∈ (cutSections (numberedLines source)).2,
      sect = (assembleSection registry lines).1 := by
  rw [assemble, sections_ofResults, sectionResults, List.map_map] at h
  obtain ⟨lines, hmem, hsect⟩ := List.mem_map.mp h
  exact ⟨lines, hmem, hsect.symm⟩

/-- What is reported about the lines of a section is reported about the program. -/
theorem mem_diagnostics_of_mem_section {registry : Registry} {source : String}
    {lines : List (Nat × String)} {diagnostic : Diagnostic}
    (hlines : lines ∈ (cutSections (numberedLines source)).2)
    (h : diagnostic ∈ (assembleSection registry lines).2.diagnostics) :
    diagnostic ∈ (assemble registry source).diagnostics :=
  mem_diagnostics_ofResults.mpr
    (Or.inr (Or.inl ⟨_, List.mem_map.mpr ⟨lines, hlines, rfl⟩, h⟩))

end Program

end SicXe
