import SicXe.Proofs.SymbolDefinitions

/-!
# SicXe.Proofs.PrefixStability

Lines behind others change nothing of what those have made.

A section extends another (`Section.Extends`) if it has more statements, symbols, imported symbols
and literals behind the same ones, and every literal that had its place still has it.  Opening a
section, entering a statement and keeping it all extend a layout, so adding lines does
(`extends_addLines`), and laying out more lines gives an extension and reports more
(`layOut_append_extends`).  Only the reports that a literal was not placed are made anew.
-/

namespace SicXe

/-- A section that goes on from another: everything in the other is there, at the same place. -/
structure Section.Extends (sect next : Section) : Prop where
  statements : sect.statements <+: next.statements
  symbols : sect.symbols.entries <+: next.symbols.entries
  externals : sect.externals <+: next.externals
  literals : sect.literals.names <+: next.literals.names
  /-- A literal that has its place keeps it. -/
  located : ∀ name address, sect.literals.lookup name = some address →
    next.literals.lookup name = some address

namespace Section

theorem Extends.refl (sect : Section) : sect.Extends sect :=
  ⟨List.prefix_rfl, List.prefix_rfl, List.prefix_rfl, List.prefix_rfl, fun _ _ => id⟩

/-- What extends an extension extends the first section. -/
theorem Extends.trans {sect next last : Section} (h : sect.Extends next)
    (hlast : next.Extends last) : sect.Extends last where
  statements := h.statements.trans hlast.statements
  symbols := h.symbols.trans hlast.symbols
  externals := h.externals.trans hlast.externals
  literals := h.literals.trans hlast.literals
  located name address hlookup := hlast.located name address (h.located name address hlookup)

end Section

namespace Layout

/-! ## one line -/

/-- Opening a section extends it. -/
theorem extends_openSection (layout : Layout) (statement : Statement) :
    layout.toSection.Extends (layout.openSection statement).toSection := by
  unfold openSection
  split
  · exact ⟨List.prefix_rfl, List.prefix_rfl, List.prefix_rfl, List.prefix_rfl, fun _ _ => id⟩
  · exact .refl _

/-- External names are only ever added to. -/
theorem externals_obeyed (layout : Layout) (statement : Statement) :
    layout.externals <+: (layout.obeyed statement).externals := by
  obtain ⟨_, hlabel⟩ := defineLabel_eq layout statement
  obtain ⟨_, _, hnote⟩ := noteLiteral_eq (layout.defineLabel statement) statement
  have hdefined : (layout.defined statement).externals = layout.externals := by
    rw [defined, hnote, hlabel]
  rw [obeyed, ← hdefined]
  unfold obeyDirective
  split
  · exact List.prefix_append _ _
  · split
    · next label _ _ =>
        obtain ⟨_, hequate⟩ := equate_eq (layout.defined statement) label statement.operands
        exact hequate ▸ List.prefix_rfl
    · exact List.prefix_rfl
  · split <;> exact List.prefix_rfl
  · exact List.prefix_rfl

/-- A literal that a statement notes goes behind the others. -/
theorem entries_literals_defined (layout : Layout) (statement : Statement) :
    layout.literals.entries <+: (layout.defined statement).literals.entries := by
  rcases literals_defined layout statement with hsame | ⟨value, -, -, hnew⟩
  · exact hsame ▸ List.prefix_rfl
  · rw [hnew]
    exact List.prefix_append _ _

/-- Placing literals gives no literal another name. -/
theorem names_literals_obeyed (layout : Layout) (statement : Statement) :
    (layout.obeyed statement).literals.names = (layout.defined statement).literals.names := by
  rw [literals_obeyed]
  split
  · exact AddressTable.names_placeFrom ..
  · rfl

/-- **Placed literals stay** when a statement is entered, whether it places literals or not. -/
theorem lookup_literals_obeyed {layout : Layout} {name : String} {address : Nat}
    (h : layout.literals.lookup name = some address) (statement : Statement) :
    (layout.obeyed statement).literals.lookup name = some address := by
  have hdefined : (layout.defined statement).literals.lookup name = some address := by
    obtain ⟨added, hadded⟩ := entries_literals_defined layout statement
    rw [show (layout.defined statement).literals = ⟨layout.literals.entries ++ added⟩ from
        congrArg AddressTable.mk hadded.symm,
      AddressTable.lookup_append_of_mem (AddressTable.mem_names_of_lookup h)]
    exact h
  rw [literals_obeyed]
  split
  · exact AddressTable.lookup_placeFrom_of_located hdefined
  · exact hdefined

/-- Entering a statement extends the tables. -/
theorem extends_obeyed (layout : Layout) (statement : Statement) :
    layout.toSection.Extends (layout.obeyed statement).toSection where
  statements := (rests_obeyed layout statement).statements ▸ List.prefix_rfl
  symbols := by
    obtain ⟨faults, hdefines, -⟩ := defines_obeyed layout statement
    obtain ⟨added, hadded⟩ := hdefines.entries_eq
    exact ⟨added, hadded.symm⟩
  externals := externals_obeyed layout statement
  literals := by
    rw [names_literals_obeyed]
    exact (entries_literals_defined layout statement).map Prod.fst
  located name address hlookup := lookup_literals_obeyed hlookup statement

/-- Keeping a statement extends the section. -/
theorem extends_keep (layout : Layout) (statement : Statement) :
    layout.toSection.Extends (layout.keep statement).toSection := by
  have hobeyed := extends_obeyed layout statement
  exact ⟨hobeyed.statements.trans (List.prefix_append _ _), hobeyed.symbols, hobeyed.externals,
    hobeyed.literals, hobeyed.located⟩

/-- **A line extends a layout**, whatever becomes of it. -/
theorem extends_addLine (registry : Registry) (layout : Layout) (line : Nat × String) :
    layout.toSection.Extends (layout.addLine registry line).1.toSection := by
  have hadded := added_addLine registry layout line
  generalize layout.addLine registry line = result at hadded
  cases hadded with
  | blank => exact .refl _
  | unreadable => exact .refl _
  | unsized statement => exact extends_openSection ..
  | unfit statement => exact extends_openSection ..
  | overflowed statement length =>
      exact (extends_openSection layout statement).trans (extends_obeyed ..)
  | kept statement length =>
      exact (extends_openSection layout statement).trans (extends_keep ..)

/-! ## runs of lines -/

/-- **All lines**: whatever is laid out stays as more lines are added. -/
theorem extends_addLines (registry : Registry) (layout : Layout) (lines : List (Nat × String)) :
    layout.toSection.Extends (layout.addLines registry lines).1.toSection := by
  induction lines generalizing layout with
  | nil => exact .refl _
  | cons line rest ih => exact (extends_addLine registry layout line).trans (ih _)

end Layout

namespace Section

/-- **Laying out is stable under more lines.**  Laying out more lines behind some gives a section
that goes on from that of the first ones.  What is reported for the first ones comes first, apart
from the literals that are not placed, which come at the end. -/
theorem layOut_append_extends (registry : Registry) (first second : List (Nat × String)) :
    (layOut registry first).1.Extends (layOut registry (first ++ second)).1 ∧
    ∃ reported unplaced,
      (layOut registry first).2.diagnostics = reported ++ unplaced ∧
      (∀ diagnostic ∈ reported, diagnostic.fault.isUnplaced = false) ∧
      (∀ diagnostic ∈ unplaced, diagnostic.fault.isUnplaced = true) ∧
      reported <+: (layOut registry (first ++ second)).2.diagnostics := by
  constructor
  · rw [layOut, layOut, Layout.addLines_append]
    exact Layout.extends_addLines ..
  · refine ⟨(Layout.addLines registry {} first).2.diagnostics,
      (Layout.addLines registry {} first).1.unplaced, rfl, ?_, ?_, ?_⟩
    · exact fun diagnostic hmem =>
        Fault.isUnplaced_of_ofLayout (Layout.ofLayout_of_mem_addLines hmem)
    · intro diagnostic hmem
      obtain ⟨text, -, rfl⟩ := List.mem_map.mp hmem
      rfl
    · rw [layOut, Journal.diagnostics_append, Layout.diagnostics_addLines_append,
        List.append_assoc]
      exact List.prefix_append _ _

end Section

end SicXe
