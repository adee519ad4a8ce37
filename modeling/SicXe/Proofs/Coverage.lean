import SicXe.Proofs.AssembledSection

/-!
# SicXe.Proofs.Coverage

What the text records of an assembled program hold.

In a program that stays in memory, the text records of a section hold each byte of its object code
once, at its own address, and nothing where memory is only reserved
(`text_records_cover_section`).  The bytes of a literal stand where the literal table says
(`text_records_hold_literals`).
-/

namespace SicXe

open Encoding (literalContents poolContents)

namespace Program

/-! ## statements with code -/

section
variable {registry : Registry} {lines : List (Nat × String)}

/-- The statements of a section that stays in memory have code exactly where they reserve
nothing. -/
theorem length_code_of_mem (honce : OpenedOnce lines)
    (hstays : StayInMemory (Layout.addLines registry {} lines).2.diagnostics)
    {statement : Statement} (h : statement ∈ (assembleSection registry lines).1.statements)
    (hreserves : statement.reserves = false) : statement.code.length = statement.length := by
  obtain ⟨laid, hlaid, base, rfl⟩ := exists_laidOut_of_mem h
  rw [Encoding.reserves_ofStatement] at hreserves
  rw [Encoding.length_ofStatement]
  apply Encoding.length_code_ofStatement _ _ (Layout.laidOut_of_mem honce laid hlaid) _ hreserves
  intro hplaces
  rw [poolContents_eq]
  exact (Layout.poolsFilled_layOut honce hstays).filled laid hlaid hplaces

theorem code_eq_nil_of_mem (honce : OpenedOnce lines) {statement : Statement}
    (h : statement ∈ (assembleSection registry lines).1.statements)
    (hreserves : statement.reserves = true) : statement.code = [] := by
  obtain ⟨laid, hlaid, base, rfl⟩ := exists_laidOut_of_mem h
  rw [Encoding.reserves_ofStatement] at hreserves
  exact Encoding.code_of_reserves _ _ (Layout.laidOut_of_mem honce laid hlaid) hreserves

theorem cells_of_mem (honce : OpenedOnce lines) {statement : Statement}
    (h : statement ∈ (assembleSection registry lines).1.statements) :
    statement.cells = Bytes.cells statement.address statement.code := by
  obtain ⟨laid, hlaid, base, rfl⟩ := exists_laidOut_of_mem h
  exact Statement.cells_eq
    (Encoding.contribution_of_code_ne_nil _ _ (Layout.laidOut_of_mem honce laid hlaid))

theorem cellsInside_of_mem (honce : OpenedOnce lines)
    (hstays : StayInMemory (Layout.addLines registry {} lines).2.diagnostics) :
    ∀ statement ∈ (assembleSection registry lines).1.statements, statement.CellsInside := by
  intro statement hmem cell hcell
  rw [cells_of_mem honce hmem] at hcell
  obtain ⟨k, hbyte, haddr⟩ := Bytes.mem_cells_iff.mp hcell
  have hk : k < statement.code.length := (List.getElem?_eq_some_iff.mp hbyte).1
  cases hreserves : statement.reserves with
  | true =>
      rw [code_eq_nil_of_mem honce hmem hreserves] at hk
      exact absurd hk (Nat.not_lt_zero _)
  | false =>
      rw [length_code_of_mem honce hstays hmem hreserves] at hk
      rw [Statement.stop]
      omega

/-- Inside a statement, the text records of its section hold the code of the statement. -/
theorem bytesAt_of_mem (honce : OpenedOnce lines)
    (hstays : StayInMemory (Layout.addLines registry {} lines).2.diagnostics)
    {statement : Statement} (h : statement ∈ (assembleSection registry lines).1.statements)
    (entry : Option Nat) {k : Nat} (hk : k < statement.length) :
    ObjectRecord.bytesAt (ObjectRecord.ofSection (assembleSection registry lines).1 entry)
      (statement.address + k) = statement.code[k]?.toList := by
  rw [ObjectRecord.bytesAt, ObjectRecord.textCells_ofSection,
    Statement.bytesAt_of_mem_tile (tile_assembleSection honce) (cellsInside_of_mem honce hstays) h
      (Nat.le_add_right ..) (Nat.add_lt_add_left hk _),
    cells_of_mem honce h, Bytes.bytesAt_cells]

/-- The bytes of a placed literal are code of a statement, at the address of the literal. -/
theorem exists_code_of_placed (honce : OpenedOnce lines)
    (hstays : StayInMemory (Layout.addLines registry {} lines).2.diagnostics)
    {name : String} {address : Nat}
    (hentry : (name, some address) ∈ (layoutOf registry lines).literals.entries)
    {k : Nat} {byte : UInt8} (hbyte : (literalContents name)[k]? = some byte) :
    ∃ statement ∈ (assembleSection registry lines).1.statements, ∃ offset < statement.length,
      statement.address + offset = address + k ∧ statement.code[offset]? = some byte := by
  have hpools : (layoutOf registry lines).PoolsFilled := Layout.poolsFilled_layOut honce hstays
  have hcell : (address + k, byte) ∈ Bytes.cells address (literalContents name) :=
    Bytes.mem_cells_iff.mpr ⟨k, hbyte, rfl⟩
  obtain ⟨laid, hlaid, hplaces, hin⟩ := hpools.found name address hentry _ hcell
  obtain ⟨offset, hoffset, haddr⟩ := Bytes.mem_cells_iff.mp hin
  have hlt : offset < laid.length := by
    rw [← hpools.filled laid hlaid hplaces]
    exact (List.getElem?_eq_some_iff.mp hoffset).1
  obtain ⟨base, hmem⟩ := exists_encoded_of_mem hlaid
  refine ⟨_, hmem, offset, ?_, ?_, ?_⟩
  · rw [Encoding.length_ofStatement]
    exact hlt
  · rw [Encoding.address_ofStatement]
    exact haddr.symm
  · rw [Encoding.code_of_placesLiterals registry _ base hplaces, poolContents_eq]
    exact hoffset

end

/-! ## programs -/

/-- **Text records cover a section exactly.**  In every section of a program that stays in memory,
a statement has as many bytes of code as it takes, or none if it reserves memory; the text records
hold the code of each statement at its addresses, one byte at each, nothing inside a statement
that reserves memory and nothing behind the section; and every address of the section lies inside
a statement. -/
theorem text_records_cover_section (registry : Registry) (source : String)
    (hstays : StayInMemory (assemble registry source).diagnostics) (sect : Section)
    (hsect : sect ∈ (assemble registry source).sections) (entry : Option Nat) :
    (∀ statement ∈ sect.statements,
      statement.code.length = if statement.reserves then 0 else statement.length) ∧
    (∀ statement ∈ sect.statements, statement.reserves = false →
      ∀ k (hk : k < statement.code.length),
        ObjectRecord.bytesAt (ObjectRecord.ofSection sect entry) (statement.address + k) =
          [statement.code[k]]) ∧
    (∀ statement ∈ sect.statements, statement.reserves = true → ∀ k < statement.length,
      ObjectRecord.bytesAt (ObjectRecord.ofSection sect entry) (statement.address + k) = []) ∧
    (∀ address, sect.length ≤ address →
      ObjectRecord.bytesAt (ObjectRecord.ofSection sect entry) address = []) ∧
    (∀ address < sect.length, ∃ statement ∈ sect.statements,
      statement.address ≤ address ∧ address < statement.stop) := by
  obtain ⟨lines, hlines, rfl⟩ := exists_lines_of_mem_sections hsect
  have honce := openedOnce_of_mem_cutSections _ lines hlines
  have hsection := stayInMemory_of_mem_cutSections hstays hlines
  have htile : Statement.Tile 0 (assembleSection registry lines).1.statements
      (assembleSection registry lines).1.length := tile_assembleSection honce
  refine ⟨?_, ?_, ?_, ?_, ?_⟩
  · intro statement hmem
    cases hreserves : statement.reserves with
    | true => rw [code_eq_nil_of_mem honce hmem hreserves]; rfl
    | false => exact length_code_of_mem honce hsection hmem hreserves
  · intro statement hmem hreserves k hk
    have hlength := length_code_of_mem honce hsection hmem hreserves
    rw [bytesAt_of_mem honce hsection hmem entry (by omega), List.getElem?_eq_getElem hk]
    rfl
  · intro statement hmem hreserves k hk
    rw [bytesAt_of_mem honce hsection hmem entry hk, code_eq_nil_of_mem honce hmem hreserves]
    rfl
  · intro address hout
    rw [ObjectRecord.bytesAt, ObjectRecord.textCells_ofSection]
    exact Statement.bytesAt_outside_tile htile (cellsInside_of_mem honce hsection) (Or.inr hout)
  · intro address hin
    exact htile.exists_of_lt (Nat.zero_le _) hin

/-- A program with two pools of literals, and reserved memory between them. -/
def twoPools : String :=
  "P\tSTART\t0\n\tLDA\t=C'EOF'\n\tLTORG\n\tRESB\t2\n\tLDA\t=5\n\tLDA\t=X'F1'\n\tEND\n"

/-- The section of `twoPools`. -/
def twoPoolsSection : Section :=
  (assemble loadRegistry twoPools).sections.headD {}

theorem twoPools_facts :
    (assemble loadRegistry twoPools).diagnostics = [] ∧
      twoPoolsSection ∈ (assemble loadRegistry twoPools).sections ∧
      twoPoolsSection.length = 18 ∧
      (twoPoolsSection.statements.map fun statement =>
        (statement.address, statement.length, statement.reserves, statement.code)) =
        [(0, 0, false, []), (0, 3, false, [0x03, 0x20, 0x00]),
          (3, 3, false, [0x45, 0x4F, 0x46]), (6, 2, true, []), (8, 3, false, [0x03, 0x20, 0x03]),
          (11, 3, false, [0x03, 0x20, 0x03]), (14, 4, false, [0x00, 0x00, 0x05, 0xF1])] ∧
      ("=C'EOF'", some 3) ∈ twoPoolsSection.literals.entries ∧
      ("=X'F1'", some 17) ∈ twoPoolsSection.literals.entries := by
  decide +kernel

theorem stayInMemory_twoPools : StayInMemory (assemble loadRegistry twoPools).diagnostics := by
  rw [twoPools_facts.1]
  intro diagnostic hmem
  cases hmem

/-- The first instruction of `twoPools` is covered byte by byte; the reserved memory is not, and
neither is what is behind the section. -/
theorem text_records_cover_twoPools :
    (∀ statement ∈ twoPoolsSection.statements, statement.reserves = false →
      statement.code.length = statement.length) ∧
    (∀ k (hk : k < 3), ObjectRecord.bytesAt (ObjectRecord.ofSection twoPoolsSection none) (0 + k) =
      [[0x03, 0x20, 0x00][k]]) ∧
    (∀ k < 2, ObjectRecord.bytesAt (ObjectRecord.ofSection twoPoolsSection none) (6 + k) = []) ∧
    ObjectRecord.bytesAt (ObjectRecord.ofSection twoPoolsSection none) 18 = [] := by
  obtain ⟨-, hsect, hlength, hstatements, -⟩ := twoPools_facts
  obtain ⟨hcode, hcovered, hreserved, hbehind, -⟩ := text_records_cover_section loadRegistry
    twoPools stayInMemory_twoPools twoPoolsSection hsect none
  have hkept : ∀ address length reserves code,
      (address, length, reserves, code) ∈ (twoPoolsSection.statements.map fun statement =>
        (statement.address, statement.length, statement.reserves, statement.code)) →
      ∃ statement ∈ twoPoolsSection.statements, statement.address = address ∧
        statement.length = length ∧ statement.reserves = reserves ∧ statement.code = code := by
    intro address length reserves code h
    simpa using h
  rw [hstatements] at hkept
  refine ⟨?_, ?_, ?_, ?_⟩
  · intro statement hmem hfree
    rw [hcode statement hmem, hfree]
    rfl
  · obtain ⟨load, hmem, haddress, -, hfree, hbytes⟩ :=
      hkept 0 3 false [0x03, 0x20, 0x00] (by decide)
    intro k hk
    simpa only [haddress, hbytes] using hcovered load hmem hfree k (by rw [hbytes]; exact hk)
  · obtain ⟨gap, hmem, haddress, hsize, hreserves, -⟩ := hkept 6 2 true [] (by decide)
    intro k hk
    rw [← haddress]
    exact hreserved gap hmem hreserves k (by omega)
  · exact hbehind 18 (by omega)

/-- **Literals stand where the literal table says.**  In every section of a program that stays in
memory, the text records hold the bytes of each placed literal from its address on, one byte at
each address. -/
theorem text_records_hold_literals (registry : Registry) (source : String)
    (hstays : StayInMemory (assemble registry source).diagnostics) (sect : Section)
    (hsect : sect ∈ (assemble registry source).sections) (entry : Option Nat) (name : String)
    (address : Nat) (hentry : (name, some address) ∈ sect.literals.entries) (value : Literal)
    (hread : Literal.read name = .ok value) (k : Nat) (hk : k < value.size) :
    ObjectRecord.bytesAt (ObjectRecord.ofSection sect entry) (address + k) =
      [value.contents.get ⟨k, value.length_contents.symm ▸ hk⟩] := by
  obtain ⟨lines, hlines, rfl⟩ := exists_lines_of_mem_sections hsect
  have honce := openedOnce_of_mem_cutSections _ lines hlines
  have hsection := stayInMemory_of_mem_cutSections hstays hlines
  have hlt : k < value.contents.length := value.length_contents.symm ▸ hk
  have hbyte : (literalContents name)[k]? = some (value.contents.get ⟨k, hlt⟩) := by
    rw [literalContents, hread]
    exact List.getElem?_eq_getElem hlt
  obtain ⟨statement, hmem, offset, hlt, haddr, hcode⟩ :=
    exists_code_of_placed honce hsection hentry hbyte
  rw [← haddr, bytesAt_of_mem honce hsection hmem entry hlt, hcode]
  rfl

/-- The last byte of the first pool of `twoPools` and the only one of its last literal. -/
theorem text_records_hold_literals_twoPools :
    ObjectRecord.bytesAt (ObjectRecord.ofSection twoPoolsSection none) (3 + 2) = [0x46] ∧
      ObjectRecord.bytesAt (ObjectRecord.ofSection twoPoolsSection none) (17 + 0) = [0xF1] := by
  obtain ⟨-, hsect, -, -, hfirst, hlast⟩ := twoPools_facts
  constructor
  · exact text_records_hold_literals loadRegistry twoPools stayInMemory_twoPools twoPoolsSection
      hsect none "=C'EOF'" 3 hfirst (.bytes (.chars "EOF")) rfl 2 (by decide)
  · exact text_records_hold_literals loadRegistry twoPools stayInMemory_twoPools twoPoolsSection
      hsect none "=X'F1'" 17 hlast (.bytes (.hex [0xF1])) rfl 0 (by decide)

end Program

end SicXe
