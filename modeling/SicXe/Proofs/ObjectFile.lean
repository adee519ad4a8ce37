import SicXe.Proofs.Addresses
import SicXe.Proofs.PlainNames
import SicXe.Proofs.RecordOrder
import SicXe.Proofs.Relocations
import SicXe.Proofs.SymbolValues

/-!
# SicXe.Proofs.ObjectFile

The object files of assembled programs.

Whatever is assembled, the numbers in its records fit their columns: a section fits in memory, its
symbols have values of a word, and what is adjusted lies in its statements.  Its names are plain, as
those of the source are.  But nothing bounds their length, so an object file reads back exactly if
no name in a column has more than six characters (`object_file_reads_back_iff`); with longer
names, different programs can have the same object file (`long_names_run_together`).
-/

namespace SicXe

/-- Relocations are about names of operands; an operand that has none goes by the empty name. -/
theorem Statement.symbol_of_mem_linkerFields {sect : Section} {statement : Statement}
    {relocation : Relocation} (h : relocation ∈ statement.linkerFields sect) :
    relocation.symbol = "" ∨
      ∃ operand ∈ statement.operands, relocation.symbol ∈ operand.names := by
  rcases cases_of_mem_linkerFields h with
    ⟨mnemonic, extended, operand, rest, -, -, hoperands, -, rfl⟩ | ⟨name, -, hoperands, -, rfl⟩ |
    ⟨minuend, subtrahend, -, hoperands, rfl | rfl⟩
  · cases hname : operand.lookupName? with
    | none => exact Or.inl rfl
    | some name =>
        refine Or.inr ⟨operand, hoperands ▸ List.mem_cons_self, ?_⟩
        exact Operand.mem_names_of_lookupName? hname
  · exact Or.inr ⟨.symbol name, hoperands ▸ List.mem_cons_self, List.mem_cons_self⟩
  · exact Or.inr ⟨_, hoperands ▸ List.mem_cons_self, List.mem_cons_self⟩
  · exact Or.inr ⟨_, hoperands ▸ List.mem_cons_self, List.mem_cons_of_mem _ List.mem_cons_self⟩

theorem Statement.PlainNames.operandSymbols {statement : Statement} (h : statement.PlainNames) :
    ∀ name ∈ statement.operandSymbols, Text.Plain name.toList := by
  intro name hname
  obtain ⟨operand, hmem, hsymbol⟩ := List.mem_filterMap.mp hname
  exact h.operands operand hmem name (Operand.mem_names_of_symbol? hsymbol)

theorem Text.Plain.empty : Text.Plain "".toList := .of_forall (by simp)

namespace Encoding

/-- The records that encoded statements add by themselves: a header with their label if they open a
section, or the symbols among their operands. -/
theorem mark_ofStatement {registry : Registry} {sect : Section} {base : Option Nat}
    {statement : Statement} {length : Nat} {record : ObjectRecord}
    (hnone : statement.contribution = none)
    (h : (ofStatement registry sect base statement).statement.mark? length = some record) :
    (statement.operator.opensSection = true ∧
        record = .header (statement.label.getD "") length) ∨
      record = .define (definitions sect statement.operandSymbols).1 ∨
      record = .refer statement.operandSymbols := by
  unfold ofStatement at h
  split at h
  · split at h
    · simp [Statement.mark?, contribution_ofInstruction] at h
    · simp [Statement.mark?, hnone] at h
  · next directive hop =>
      cases directive with
      | start =>
          cases h
          exact Or.inl ⟨by rw [hop]; rfl, rfl⟩
      | csect =>
          cases h
          exact Or.inl ⟨by rw [hop]; rfl, rfl⟩
      | extdef =>
          cases h
          exact Or.inr (Or.inl rfl)
      | extref =>
          cases h
          exact Or.inr (Or.inr rfl)
      | byte =>
          unfold ofDirective at h
          dsimp only at h
          split at h <;> simp [Statement.mark?, hnone] at h
      | ltorg =>
          unfold ofDirective at h
          dsimp only at h
          split at h <;> simp [Statement.mark?, hnone] at h
      | endProgram =>
          unfold ofDirective at h
          dsimp only at h
          split at h <;> simp [Statement.mark?, hnone] at h
      | _ => simp [ofDirective, Statement.mark?, hnone] at h
  · simp [Statement.mark?, hnone] at h

/-- **Records of statements can be written** if their names are plain and symbols fit in a word. -/
theorem writable_of_mark {registry : Registry} {sect : Section} {base : Option Nat}
    {statement : Statement} {length : Nat} {record : ObjectRecord}
    (hnone : statement.contribution = none) (hplain : statement.PlainNames)
    (hbelow : sect.symbols.Below wordSize) (hlength : length < wordSize)
    (h : (ofStatement registry sect base statement).statement.mark? length = some record) :
    record.Writable := by
  rcases mark_ofStatement hnone h with ⟨-, rfl⟩ | rfl | rfl
  · refine ⟨hlength, ?_, by simp [ObjectRecord.lastName?]⟩
    intro name hname
    rw [List.mem_singleton.mp hname]
    cases hlabel : statement.label with
    | none => exact .empty
    | some label => exact hplain.label label hlabel
  · refine ⟨?_, ?_, by simp [ObjectRecord.lastName?]⟩
    · intro symbol hsymbol
      obtain ⟨name, -, rfl⟩ := List.mem_map.mp hsymbol
      cases hlookup : sect.symbols.lookup name with
      | none => exact Nat.zero_lt_of_lt hlength
      | some address => exact hbelow.lookup_lt hlookup
    · intro name hname
      obtain ⟨symbol, hsymbol, rfl⟩ := List.mem_map.mp hname
      obtain ⟨found, hfound, rfl⟩ := List.mem_map.mp hsymbol
      exact hplain.operandSymbols found hfound
  · exact ⟨trivial, hplain.operandSymbols, by simp [ObjectRecord.lastName?]⟩

end Encoding

namespace Program

/-! ## the records of a program -/

section
variable {registry : Registry} {source : String} {lines : List (Nat × String)}

theorem lt_of_findEntry {sections : List Section}
    (hbelow : ∀ sect ∈ sections, sect.symbols.Below wordSize) {entry : Nat}
    (h : findEntry sections = .ok entry) : entry < wordSize := by
  have hzero : 0 < wordSize := by decide
  have hsmall : memorySize < wordSize := by decide
  unfold findEntry at h
  split at h
  · next first statement hfirst hend =>
      split at h
      · split at h
        · next address hlookup =>
            cases h
            exact (hbelow first (List.mem_of_head? hfirst)).lookup_lt hlookup
        · cases h
      · split at h
        · cases h
          omega
        · cases h
      · cases h
        exact hzero
  · cases h
    exact hzero

/-- The entry address of a program fits in a word. -/
theorem entry_lt (registry : Registry) (source : String) :
    (assemble registry source).entry < wordSize := by
  have hbelow : ∀ sect ∈ (sectionResults registry source).2.map Prod.fst,
      sect.symbols.Below wordSize := by
    intro sect hsect
    obtain ⟨result, hresult, rfl⟩ := List.mem_map.mp hsect
    obtain ⟨lines, -, rfl⟩ := List.mem_map.mp hresult
    exact Layout.below_addLines registry lines
  unfold assemble ofResults
  dsimp only
  split
  · next entry hentry => exact lt_of_findEntry hbelow hentry
  · exact (by decide : 0 < wordSize)

/-- Text records start in memory. -/
theorem start_lt_of_mem (honce : OpenedOnce lines)
    (hstays : StayInMemory (Layout.addLines registry {} lines).2.diagnostics)
    {entry : Option Nat} {start : Nat} {code : List UInt8}
    (h : .text start code ∈ ObjectRecord.ofSection (assembleSection registry lines).1 entry) :
    start < memorySize := by
  obtain ⟨hpos, -⟩ := ObjectRecord.isPacked_of_text_mem_ofSection h
  obtain ⟨byte, rest, rfl⟩ := List.exists_cons_of_length_pos hpos
  -- The first byte of the record comes from a statement.
  have hcell : (start, byte) ∈ ObjectRecord.textCells
      (ObjectRecord.ofSection (assembleSection registry lines).1 entry) :=
    List.mem_flatMap.mpr ⟨_, h, List.mem_cons_self⟩
  rw [ObjectRecord.textCells_ofSection] at hcell
  obtain ⟨statement, hmem, hin⟩ := List.mem_flatMap.mp hcell
  have hlt := (cellsInside_of_mem honce hstays statement hmem (start, byte) hin).2
  have hstop := ((tile_assembleSection honce).bounds hmem).2
  have hlength : (assembleSection registry lines).1.length ≤ memorySize :=
    length_assembleSection_le honce
  exact Nat.lt_of_lt_of_le hlt (Nat.le_trans hstop hlength)

theorem plainNames_of_mem (hlines : lines ∈ (cutSections (numberedLines source)).2)
    {statement : Statement} (h : statement ∈ (layoutOf registry lines).statements) :
    statement.PlainNames :=
  Layout.plainNames_of_mem_addLines (fun _ hline => feed_notMem_of_mem_section hlines hline)
    statement h

/-- The relocations of an assembled section lie in memory and are about plain names. -/
theorem writable_of_mem_relocations (hlines : lines ∈ (cutSections (numberedLines source)).2)
    {relocation : Relocation} (h : relocation ∈ (assembleSection registry lines).1.relocations) :
    (ObjectRecord.modification relocation).Writable := by
  have honce := openedOnce_of_mem_cutSections _ lines hlines
  rw [relocations_assembleSection honce] at h
  obtain ⟨statement, hmem, hasks⟩ := List.mem_flatMap.mp h
  have hstop := ((tile_assembleSection honce).bounds hmem).2
  have hlength : (assembleSection registry lines).1.length ≤ memorySize :=
    length_assembleSection_le honce
  have haddress : statement.address ≤ memorySize :=
    Nat.le_trans (Nat.le_add_right ..) (Nat.le_trans hstop hlength)
  have hsmall : memorySize + 1 < 16 ^ 6 := by decide
  refine ⟨?_, by simp [ObjectRecord.columnNames], ?_⟩
  · rcases Statement.mem_linkerFields hasks with ⟨-, -, -, -, hstart, hhalf⟩ | ⟨-, hstart, hhalf⟩
    · exact ⟨by omega, by omega⟩
    · exact ⟨by omega, by omega⟩
  · intro name hname
    cases hname
    obtain ⟨laid, hlaid, base, rfl⟩ := exists_laidOut_of_mem hmem
    rcases Statement.symbol_of_mem_linkerFields hasks with hempty | ⟨operand, hoperand, hin⟩
    · rw [hempty]
      exact .empty
    · rw [Encoding.operands_ofStatement] at hoperand
      exact (plainNames_of_mem hlines hlaid).operands operand hoperand _ hin

/-- **Records of assembled sections can be written.** -/
theorem writable_of_mem_ofSection
    (hstays : StayInMemory (assemble registry source).diagnostics)
    (hlines : lines ∈ (cutSections (numberedLines source)).2) {entry : Option Nat}
    (hentry : ∀ address ∈ entry, address < wordSize) {record : ObjectRecord}
    (h : record ∈ ObjectRecord.ofSection (assembleSection registry lines).1 entry) :
    record.Writable := by
  have honce := openedOnce_of_mem_cutSections _ lines hlines
  have hsection := stayInMemory_of_mem_cutSections hstays hlines
  -- First come the text records and those of statements, then what is left to the linker.
  have hall := h
  rw [ObjectRecord.ofSection_eq] at h
  rcases List.mem_append.mp h with hpushed | hlast
  · rcases ObjectRecord.isPacked_or_mark_of_mem (by simp [ObjectRecord.close]) _ hpushed with
      hpacked | ⟨statement, hmem, hmark⟩
    · cases record with
      | text start code =>
          have hstart := start_lt_of_mem honce hsection hall
          have hsmall : memorySize < 16 ^ 6 := by decide
          have hcapacity : ObjectRecord.textCapacity < 16 ^ 2 := by decide
          refine ⟨⟨by omega, Nat.lt_of_le_of_lt hpacked.2 hcapacity⟩, ?_, ?_⟩
          · simp [ObjectRecord.columnNames]
          · simp [ObjectRecord.lastName?]
      | _ => cases hpacked
    · obtain ⟨laid, hlaid, base, rfl⟩ := exists_laidOut_of_mem hmem
      have hlength : (assembleSection registry lines).1.length ≤ memorySize :=
        length_assembleSection_le honce
      exact Encoding.writable_of_mark (Layout.laidOut_of_mem honce laid hlaid).contribution
        (plainNames_of_mem hlines hlaid) (Layout.below_addLines registry lines)
        (Nat.lt_of_le_of_lt hlength (by decide)) hmark
  · rcases List.mem_append.mp hlast with hmodification | hend
    · obtain ⟨relocation, hmem, rfl⟩ := List.mem_map.mp hmodification
      exact writable_of_mem_relocations hlines hmem
    · rw [List.mem_singleton.mp hend]
      exact ⟨hentry, by simp [ObjectRecord.columnNames], by simp [ObjectRecord.lastName?]⟩

theorem writable_of_mem_objectRecords
    (hstays : StayInMemory (assemble registry source).diagnostics) :
    ∀ records ∈ (assemble registry source).objectRecords, ∀ record ∈ records,
      record.Writable := by
  intro records hrecords record hmem
  obtain ⟨⟨sect, index⟩, hindexed, rfl⟩ := List.mem_map.mp hrecords
  obtain ⟨lines, hlines, rfl⟩ :=
    exists_lines_of_mem_sections (List.fst_mem_of_mem_zipIdx hindexed)
  refine writable_of_mem_ofSection hstays hlines ?_ hmem
  intro address haddress
  split at haddress
  · cases haddress
    exact entry_lt registry source
  · cases haddress

end

/-- Whether the names in the columns of all records of a program have at most six characters. -/
def NamesFit (program : Program) : Prop :=
  ∀ records ∈ program.objectRecords, ∀ record ∈ records, record.NamesFit

instance (program : Program) : Decidable program.NamesFit :=
  inferInstanceAs
    (Decidable (∀ records ∈ program.objectRecords, ∀ record ∈ records, record.NamesFit))

/-- **Object files read back exactly if names fit.**  The object file of a program that stays in
memory, as every program without diagnostics does, reads back by its columns as the records it was
made of, section after section, if and only if no name in a header or among exported or imported
symbols has more than six characters.  So the object files of two such programs are the same only
if their records are. -/
theorem object_file_reads_back_iff (registry : Registry) (source : String)
    (hstays : StayInMemory (assemble registry source).diagnostics) :
    (ObjectRecord.readFile? (assemble registry source).objectText =
        some (assemble registry source).objectRecords ↔ (assemble registry source).NamesFit) ∧
    (∀ otherRegistry otherSource,
      StayInMemory (assemble otherRegistry otherSource).diagnostics →
      (assemble registry source).NamesFit → (assemble otherRegistry otherSource).NamesFit →
      (assemble registry source).objectText = (assemble otherRegistry otherSource).objectText →
        (assemble registry source).objectRecords =
          (assemble otherRegistry otherSource).objectRecords) := by
  have hthis := readFile?_objectText_iff (writable_of_mem_objectRecords hstays)
  refine ⟨hthis, ?_⟩
  intro otherRegistry otherSource hother hfits hfitsToo hsame
  have hread := hthis.mpr hfits
  have hreadToo :=
    (readFile?_objectText_iff (writable_of_mem_objectRecords hother)).mpr hfitsToo
  rw [hsame, hreadToo] at hread
  exact (Option.some.inj hread).symm

/-- Two sections that use each other's symbols. -/
def exchange : String :=
  "MAIN\tSTART\t0\n\tEXTDEF\tBUF\n\tEXTREF\tREAD\n\t+LDA\tREAD\nBUF\tRESB\t3\n" ++
    "READ\tCSECT\n\tEXTREF\tBUF\n\tLDA\t#1\n\t+LDA\tBUF\n\tEND\tMAIN\n"

theorem exchange_facts :
    (assemble loadRegistry exchange).diagnostics = [] ∧
    (assemble loadRegistry exchange).objectRecords =
      [[.header "MAIN" 7, .define [("BUF", 4)], .refer ["READ"], .text 0 [0x03, 0x10, 0, 0],
          .modification ⟨1, 5, .plus, "READ"⟩, .endSection (some 0)],
        [.header "READ" 7, .refer ["BUF"], .text 0 [0x01, 0, 0x01, 0x03, 0x10, 0, 0],
          .modification ⟨4, 5, .plus, "BUF"⟩, .endSection none]] := by
  decide +kernel

/-- The object file of `exchange` has records of every kind, and reads back. -/
theorem object_file_reads_back_exchange :
    (assemble loadRegistry exchange).diagnostics = [] ∧
    (assemble loadRegistry exchange).objectText =
      "HMAIN  000007\nDBUF   000004\nRREAD  \nT0000000403100000\nM00000105+READ\nE000000\n\n" ++
        "HREAD  000007\nRBUF   \nT0000000701000103100000\nM00000405+BUF\nE\n\n" ∧
    ObjectRecord.readFile? (assemble loadRegistry exchange).objectText =
      some (assemble loadRegistry exchange).objectRecords := by
  obtain ⟨hquiet, hrecords⟩ := exchange_facts
  have hstays : StayInMemory (assemble loadRegistry exchange).diagnostics := by
    rw [hquiet]
    exact List.forall_mem_nil _
  have hfits : (assemble loadRegistry exchange).NamesFit := by
    rw [NamesFit, hrecords]
    decide
  obtain ⟨hread, -⟩ := object_file_reads_back_iff loadRegistry exchange hstays
  refine ⟨hquiet, ?_, hread.mpr hfits⟩
  rw [objectText_eq, hrecords]
  decide +kernel

/-- A program that imports one symbol with a name of twelve characters. -/
def longImport : String := "P\tSTART\t0\n\tEXTREF\tABCDEFGHIJKL\n"

/-- A program that imports two symbols with names of six characters each. -/
def shortImports : String := "P\tSTART\t0\n\tEXTREF\tABCDEF,GHIJKL\n"

theorem imports_facts :
    (assemble loadRegistry longImport).diagnostics = [] ∧
    (assemble loadRegistry longImport).objectRecords =
      [[.header "P" 0, .refer ["ABCDEFGHIJKL"], .endSection (some 0)]] ∧
    (assemble loadRegistry shortImports).diagnostics = [] ∧
    (assemble loadRegistry shortImports).objectRecords =
      [[.header "P" 0, .refer ["ABCDEF", "GHIJKL"], .endSection (some 0)]] := by
  decide +kernel

/-- **Long names run together**: two programs without diagnostics and with different records have
the same object file, so the one with the long name does not read back. -/
theorem long_names_run_together :
    (assemble loadRegistry longImport).diagnostics = [] ∧
    (assemble loadRegistry shortImports).diagnostics = [] ∧
    (assemble loadRegistry longImport).objectText =
      (assemble loadRegistry shortImports).objectText ∧
    (assemble loadRegistry longImport).objectRecords ≠
      (assemble loadRegistry shortImports).objectRecords ∧
    ObjectRecord.readFile? (assemble loadRegistry longImport).objectText ≠
      some (assemble loadRegistry longImport).objectRecords := by
  obtain ⟨hquiet, hlong, hquietToo, hshort⟩ := imports_facts
  refine ⟨hquiet, hquietToo, ?_, ?_, ?_⟩
  · rw [objectText_eq, objectText_eq, hlong, hshort]
    decide +kernel
  · rw [hlong, hshort]
    decide
  · rw [objectText_eq, hlong]
    decide +kernel

end Program

end SicXe
