import Mathlib.Data.List.Induction
import SicXe.Proofs.LineOutcomes
import SicXe.Proofs.Regeneration
import SicXe.Proofs.SkippedLines

/-!
# SicXe.Proofs.KeptStatements

Sections that stay in memory, statement by statement.

As long as no line is too much for the memory, a line that is not kept leaves nothing behind
(`skipped_or_kept`).  So the layout is what the kept statements make of it, and an invariant of the
layout and of what has been reported so far is proved by looking at these alone
(`kept_invariant`).  Encoding changes the object code of a statement and nothing else, so what is
known of the statements of a layout is known of those of the assembled section
(`statements_layoutOf`).
-/

namespace SicXe

/-- Where an element of a list with one more at its end can stand. -/
theorem split_concat {xs before after : List α} {x y : α} (h : xs ++ [x] = before ++ y :: after) :
    (before = xs ∧ y = x ∧ after = []) ∨
      ∃ rest, after = rest ++ [x] ∧ xs = before ++ y :: rest := by
  rcases List.eq_nil_or_concat after with rfl | ⟨rest, z, rfl⟩
  · obtain ⟨hbefore, hlast⟩ := List.append_inj' h rfl
    exact Or.inl ⟨hbefore.symm, by simpa using hlast.symm, rfl⟩
  · rw [List.concat_eq_append, ← List.cons_append, ← List.append_assoc] at h
    obtain ⟨hfront, hlast⟩ := List.append_inj' h rfl
    obtain rfl : x = z := by simpa using hlast
    exact Or.inr ⟨rest, List.concat_eq_append, hfront⟩

namespace Layout

/-! ## runs of lines -/

section
variable (registry : Registry) (layout : Layout) (first second : List (Nat × String))

theorem addLines_append :
    (layout.addLines registry (first ++ second)).1 =
      ((layout.addLines registry first).1.addLines registry second).1 := by
  induction first generalizing layout with
  | nil => rfl
  | cons line rest ih => exact ih _

theorem diagnostics_addLines_append :
    (layout.addLines registry (first ++ second)).2.diagnostics =
      (layout.addLines registry first).2.diagnostics ++
        ((layout.addLines registry first).1.addLines registry second).2.diagnostics := by
  induction first generalizing layout with
  | nil => rfl
  | cons line rest ih =>
      simp only [List.cons_append, addLines, Journal.diagnostics_append, ih, List.append_assoc]

end

/-- A statement that is kept goes behind the others, as long as the literals it places. -/
theorem statements_kept (layout : Layout) (statement : Statement) :
    (layout.keep statement).statements = layout.statements ++ [layout.resized statement] := by
  rw [keep, (rests_obeyed ..).statements]

/-- **A line that fits leaves nothing behind, or it is kept.** -/
theorem skipped_or_kept {registry : Registry} {layout : Layout} {line : Nat × String}
    (hstays : StayInMemory (layout.addLine registry line).2.diagnostics) :
    (layout.addLine registry line).1 = layout ∨
    ∃ drafted length, drafted.line = line.1 ∧
      (layout.addLine registry line).1 =
        (layout.openSection drafted).keep (layout.placed drafted length) ∧
      (layout.addLine registry line).2.diagnostics =
        ((layout.openSection drafted).enterFaults (layout.placed drafted length)).map
          fun fault => ⟨line.1, fault⟩ := by
  have hadded := added_addLine registry layout line
  generalize layout.addLine registry line = result at hadded hstays
  cases hadded with
  | blank => exact Or.inl rfl
  | unreadable => exact Or.inl rfl
  | unsized statement fault events hdraft hlength => exact Or.inl (openSection_of_unsized hlength)
  | unfit => exact absurd rfl (hstays ⟨line.1, .addressOverflow⟩ (by simp))
  | overflowed => exact absurd rfl (hstays ⟨line.1, .addressOverflow⟩ (by simp))
  | kept statement length events hdraft hlength hfits =>
      exact Or.inr ⟨statement, length, (drafted_draft hdraft).line, rfl, rfl⟩

/-- **Invariants of a section that stays in memory**: what holds of the empty layout while nothing
has been reported, is not touched by opening a section or by reports on other lines than those of
statements, and holds after a statement of a new line is kept, holds of the whole section. -/
theorem kept_invariant {P : Layout → List Diagnostic → Prop} {registry : Registry}
    {lines : List (Nat × String)} (hnodup : (lines.map Prod.fst).Nodup)
    (hstays : StayInMemory (addLines registry {} lines).2.diagnostics) (hinit : P {} [])
    (hopen : ∀ layout reported statement, P layout reported →
      P (layout.openSection statement) reported)
    (hskip : ∀ layout reported more,
      (∀ diagnostic ∈ more, diagnostic.line ∉ layout.statements.map Statement.line) →
        P layout reported → P layout (reported ++ more))
    (hkeep : ∀ layout reported statement,
      statement.line ∉ layout.statements.map Statement.line →
      statement.line ∉ reported.map Diagnostic.line → P layout reported →
        P (layout.keep statement)
          (reported ++ (layout.enterFaults statement).map fun fault => ⟨statement.line, fault⟩)) :
    P (addLines registry {} lines).1 (addLines registry {} lines).2.diagnostics := by
  induction lines using List.reverseRecOn with
  | nil => exact hinit
  | append_singleton lines line ih =>
      rw [diagnostics_addLines_append, stayInMemory_append] at hstays
      rw [List.map_append, List.nodup_append] at hnodup
      rw [addLines_append, diagnostics_addLines_append]
      have hbefore := ih hnodup.1 hstays.1
      -- The line is new to the statements and to the reports so far.
      have hnew : line.1 ∉ lines.map Prod.fst := fun hmem => hnodup.2.2 _ hmem line.1 (by simp) rfl
      have hstatements : line.1 ∉
          (addLines registry {} lines).1.statements.map Statement.line := by
        rw [mem_lines_addLines {} lines line.1 hnew]
        simp
      have hreported : line.1 ∉
          (addLines registry {} lines).2.diagnostics.map Diagnostic.line := by
        rw [List.mem_map]
        rintro ⟨diagnostic, hmem, hline⟩
        exact hnew (hline ▸ line_of_mem_addLines hmem)
      generalize addLines registry {} lines = run at *
      obtain ⟨layout, journal⟩ := run
      simp only [addLines, Journal.diagnostics_append, Journal.diagnostics_empty,
        List.append_nil] at hstays ⊢
      rcases skipped_or_kept hstays.2 with hsame | ⟨drafted, length, hline, hkept, hfaults⟩
      · rw [hsame]
        refine hskip layout _ _ (fun diagnostic hmem => ?_) hbefore
        rwa [(ofLayout_of_mem_addLine hmem).1]
      · rw [hkept, hfaults, ← hline]
        refine hkeep _ _ (layout.placed drafted length) ?_ ?_ (hopen _ _ drafted hbefore)
        · rw [statements_openSection]
          exact hline ▸ hstatements
        · exact hline ▸ hreported

/-! ## statements without object code -/

theorem withoutCode_of_draft {registry : Registry} {number : Nat} {text : String}
    {statement : Statement} (h : draft registry number text = .ok (some statement)) :
    statement.withoutCode = statement := by
  obtain ⟨fields, -, hfields⟩ := exists_fields_of_draft h
  unfold draftFields at hfields
  dsimp only at hfields
  split at hfields
  · cases hfields
    rfl
  · split at hfields
    · cases hfields
    · cases hfields
      rfl

/-- A statement that is laid out has no object code. -/
theorem withoutCode_of_mem_addLines {registry : Registry} {lines : List (Nat × String)} :
    ∀ statement ∈ (addLines registry {} lines).1.statements,
      statement.withoutCode = statement := by
  intro statement hmem
  obtain ⟨line, -, drafted, address, length, hdraft, rfl⟩ :=
    exists_draft_of_mem_addLines statement hmem
  have hplain := withoutCode_of_draft hdraft
  rw [← hplain]
  rfl

end Layout

namespace Program

/-- **Encoding changes only object code**: the statements of a section are those that were laid
out, with their object code. -/
theorem statements_layoutOf (registry : Registry) (lines : List (Nat × String)) :
    (layoutOf registry lines).statements =
      (assembleSection registry lines).1.statements.map Statement.withoutCode := by
  have hplain : (layoutOf registry lines).statements.map Statement.withoutCode =
      (layoutOf registry lines).statements := by
    conv => rhs; rw [← List.map_id (layoutOf registry lines).statements]
    exact List.map_congr_left Layout.withoutCode_of_mem_addLines
  have hencoded : (assembleSection registry lines).1.statements.map Statement.withoutCode =
      (layoutOf registry lines).statements.map Statement.withoutCode :=
    Encoding.withoutCode_ofStatements ..
  rw [hencoded, hplain]

end Program

end SicXe
