import SicXe.Proofs.ProgramSections
import SicXe.Proofs.StatementCode
import SicXe.Proofs.Tiling

/-!
# SicXe.Proofs.AssembledSection

A section from its lines to its object code.

The statements of an assembled section are the encodings of the statements that were laid out,
one for each and in the same order, so they still tile the section; its length is where they end.
-/

namespace SicXe

namespace Encoding

/-- Each encoding is that of a statement, under the base that is announced by then. -/
theorem exists_of_mem_ofStatements {registry : Registry} {sect : Section} {base : Option Nat}
    {statements : List Statement} {encoding : Encoding}
    (h : encoding ∈ ofStatements registry sect base statements) :
    ∃ statement ∈ statements, ∃ before,
      encoding = ofStatement registry sect before statement := by
  induction statements generalizing base with
  | nil => simp [ofStatements] at h
  | cons first rest ih =>
      rcases List.mem_cons.mp h with rfl | hrest
      · exact ⟨first, List.mem_cons_self, base, rfl⟩
      · obtain ⟨statement, hmem, before, heq⟩ := ih hrest
        exact ⟨statement, List.mem_cons_of_mem _ hmem, before, heq⟩

/-- Each statement is encoded. -/
theorem exists_mem_ofStatements (registry : Registry) (sect : Section) (base : Option Nat)
    {statements : List Statement} {statement : Statement} (h : statement ∈ statements) :
    ∃ before,
      ofStatement registry sect before statement ∈ ofStatements registry sect base statements := by
  induction statements generalizing base with
  | nil => simp at h
  | cons first rest ih =>
      rcases List.mem_cons.mp h with rfl | hrest
      · exact ⟨base, List.mem_cons_self⟩
      · obtain ⟨before, hmem⟩ := ih (ofStatement registry sect base first).base hrest
        exact ⟨before, List.mem_cons_of_mem _ hmem⟩

/-- Encoding statements keeps them one behind another. -/
theorem tile_ofStatements (registry : Registry) (sect : Section) (base : Option Nat)
    {start stop : Nat} {statements : List Statement}
    (h : Statement.Tile start statements stop) :
    Statement.Tile start ((ofStatements registry sect base statements).map Encoding.statement)
      stop := by
  induction statements generalizing start base with
  | nil => exact h
  | cons first rest ih =>
      simp only [ofStatements, List.map_cons, Statement.Tile, Statement.stop,
        address_ofStatement, length_ofStatement]
      exact ⟨h.1, ih _ h.2⟩

end Encoding

namespace Program

/-- The layout of the lines of a section. -/
def layoutOf (registry : Registry) (lines : List (Nat × String)) : Layout :=
  (Layout.addLines registry {} lines).1

/-- The encodings of the statements of a section. -/
def encodingsOf (registry : Registry) (lines : List (Nat × String)) : List Encoding :=
  Encoding.ofStatements registry (layoutOf registry lines).toSection none
    (layoutOf registry lines).statements

theorem assembleSection_fst (registry : Registry) (lines : List (Nat × String)) :
    (assembleSection registry lines).1 =
      { (layoutOf registry lines).toSection with
        statements := (encodingsOf registry lines).map Encoding.statement
        relocations := (layoutOf registry lines).relocations ++
          (encodingsOf registry lines).flatMap Encoding.relocations
        length := Statement.totalLength
          ((encodingsOf registry lines).map Encoding.statement) } := rfl

/-- Reports on a section come from laying it out, then from literals without a place, then from
encoding. -/
theorem diagnostics_assembleSection (registry : Registry) (lines : List (Nat × String)) :
    (assembleSection registry lines).2.diagnostics =
      (Layout.addLines registry {} lines).2.diagnostics ++ (layoutOf registry lines).unplaced ++
        (encodingsOf registry lines).flatMap Encoding.diagnostics := rfl

/-- A section of a program that stays in memory stays in memory. -/
theorem stayInMemory_of_mem_cutSections {registry : Registry} {source : String}
    {lines : List (Nat × String)}
    (hstays : StayInMemory (assemble registry source).diagnostics)
    (hlines : lines ∈ (cutSections (numberedLines source)).2) :
    StayInMemory (Layout.addLines registry {} lines).2.diagnostics := by
  intro diagnostic hmem
  apply hstays diagnostic
  apply mem_diagnostics_of_mem_section hlines
  rw [diagnostics_assembleSection]
  exact List.mem_append_left _ (List.mem_append_left _ hmem)

/-- **Assembled statements tile their section** from address 0 to its length. -/
theorem tile_assembleSection {registry : Registry} {lines : List (Nat × String)}
    (honce : OpenedOnce lines) :
    Statement.Tile 0 (assembleSection registry lines).1.statements
      (assembleSection registry lines).1.length := by
  have hlaid : Statement.Tile 0 (layoutOf registry lines).statements
      (layoutOf registry lines).counter := (Layout.tile_layOut honce).1
  have htile :=
    Encoding.tile_ofStatements registry (layoutOf registry lines).toSection none hlaid
  have hstop := htile.stop_eq
  rw [Nat.zero_add] at hstop
  rw [hstop] at htile
  exact htile

/-- A statement of an assembled section is an encoding of one that was laid out. -/
theorem exists_laidOut_of_mem {registry : Registry} {lines : List (Nat × String)}
    {statement : Statement} (h : statement ∈ (assembleSection registry lines).1.statements) :
    ∃ laid ∈ (layoutOf registry lines).statements, ∃ base,
      statement = (Encoding.ofStatement registry (layoutOf registry lines).toSection base
        laid).statement := by
  rw [assembleSection_fst] at h
  obtain ⟨encoding, hmem, rfl⟩ := List.mem_map.mp h
  obtain ⟨laid, hlaid, base, rfl⟩ := Encoding.exists_of_mem_ofStatements hmem
  exact ⟨laid, hlaid, base, rfl⟩

/-- A statement that was laid out is encoded. -/
theorem exists_encoded_of_mem {registry : Registry} {lines : List (Nat × String)}
    {laid : Statement} (h : laid ∈ (layoutOf registry lines).statements) :
    ∃ base,
      (Encoding.ofStatement registry (layoutOf registry lines).toSection base laid).statement ∈
        (assembleSection registry lines).1.statements := by
  obtain ⟨base, hmem⟩ := Encoding.exists_mem_ofStatements registry
    (layoutOf registry lines).toSection none h
  exact ⟨base, List.mem_map.mpr ⟨_, hmem, rfl⟩⟩

/-- A registry of one instruction, which loads a word. -/
def loadRegistry : Registry := ⟨[⟨"LDA", 0x00, .three, 1⟩]⟩

end Program

end SicXe
