import SicXe.Proofs.ObjectFile
import SicXe.Proofs.SymbolListing

/-!
# SicXe.Proofs.FieldWidths

The widths of numbers in object files.

A line of an object file is a row of columns, some of which hold numbers (`ObjectRecord.columns`).
Printing fills a number up to its width and cuts nothing, so whether a column is as wide as it
should be depends on the number (`Column.InRange`).  A program that stays in memory has only numbers
in their range: addresses of six digits, counts of code from 1 to 30 and fields of 5 or 6 half bytes
(`number_columns_have_their_width`).
-/

namespace SicXe

/-- A column of a line of an object file. -/
inductive Column where
  /-- Anything but a number: the letter of the record, a name, a sign or code. -/
  | plain (text : String)
  /-- An address, or the length of a section. -/
  | address (value : Nat)
  /-- How many bytes of code follow. -/
  | codeLength (value : Nat)
  /-- How many half bytes the linker adjusts. -/
  | fieldLength (value : Nat)
  deriving Repr, DecidableEq

namespace Column

/-- A column as it is printed. -/
def text : Column → String
  | plain text => text
  | address value => ObjectRecord.addressField value
  | codeLength value | fieldLength value => ObjectRecord.countField value

/-- The number in a column, with the width it should have. -/
def number? : Column → Option (Nat × Nat)
  | plain _ => none
  | address value => some (6, value)
  | codeLength value | fieldLength value => some (2, value)

/-- The numbers that can stand in a column. -/
def InRange : Column → Prop
  | plain _ => True
  | address value => value ≤ 0xFFFFFF
  | codeLength value => 1 ≤ value ∧ value ≤ 30
  | fieldLength value => value = 5 ∨ value = 6

/-- **Numbers in range have their width**, and read back from their digits. -/
theorem InRange.width {column : Column} (h : column.InRange) {width value : Nat}
    (hnumber : column.number? = some (width, value)) :
    column.text.toList.length = width ∧
      Text.readHexField? width column.text.toList = some value := by
  have hcount : ∀ count, count ≤ 30 → (ObjectRecord.countField count).toList.length = 2 ∧
      Text.readHexField? 2 (ObjectRecord.countField count).toList = some count := by
    intro count hle
    have hlt : count < 16 ^ 2 := by omega
    exact ⟨ObjectRecord.length_countField hlt, ObjectRecord.readHexField?_countField hlt⟩
  cases column with
  | plain text => cases hnumber
  | address found =>
      cases hnumber
      have hlt : value < 16 ^ 6 := Nat.lt_succ_of_le h
      exact ⟨ObjectRecord.length_addressField hlt, ObjectRecord.readHexField?_addressField hlt⟩
  | codeLength found =>
      cases hnumber
      exact hcount value h.2
  | fieldLength found =>
      cases hnumber
      rcases h with rfl | rfl
      · exact hcount 5 (by decide)
      · exact hcount 6 (by decide)

end Column

namespace ObjectRecord

/-- The columns of a record. -/
def columns : ObjectRecord → List Column
  | header name length => [.plain "H", .plain (nameField name), .address length]
  | define symbols =>
    .plain "D" :: symbols.flatMap fun symbol => [.plain (nameField symbol.1), .address symbol.2]
  | refer symbols => .plain "R" :: symbols.map fun name => .plain (nameField name)
  | text start code =>
    [.plain "T", .address start, .codeLength code.length, .plain (Bytes.toHex code)]
  | modification relocation =>
    [.plain "M", .address relocation.address, .fieldLength relocation.halfBytes,
      .plain relocation.sign.text, .plain relocation.symbol]
  | endSection (some entry) => [.plain "E", .address entry]
  | endSection none => [.plain "E"]

/-- **A line is its columns** one behind another. -/
theorem line_eq_join_columns (record : ObjectRecord) :
    record.line = String.join (record.columns.map Column.text) := by
  apply String.toList_inj.mp
  rw [String.toList_join, List.flatMap_map]
  cases record with
  | header name length => simp [line, columns, Column.text]
  | define symbols =>
      simp only [toList_line_define, columns, Column.text, List.flatMap_cons, List.flatMap_assoc,
        List.flatMap_nil, List.append_nil]
      rfl
  | refer symbols => simp [toList_line_refer, columns, Column.text, List.flatMap_map]
  | text start code => simp [line, columns, Column.text]
  | modification relocation => simp [line, columns, Column.text]
  | endSection entry => cases entry <;> simp [line, columns, Column.text]

theorem mem_relocations_of_mem_ofSection {sect : Section} {entry : Option Nat}
    {relocation : Relocation} (h : .modification relocation ∈ ofSection sect entry) :
    relocation ∈ sect.relocations := by
  rw [ofSection_eq] at h
  rcases List.mem_append.mp h with hpushed | hlast
  · rcases isPacked_or_mark_of_mem (by simp [close]) _ hpushed with hpacked | ⟨statement, -, hmark⟩
    · cases hpacked
    · cases isMark_of_mark? hmark
  · simpa using hlast

end ObjectRecord

namespace Program

section
variable {registry : Registry} {source : String}

/-- The linker adjusts five half bytes, or all six of a word. -/
theorem halfBytes_of_mem_relocations {lines : List (Nat × String)} (honce : OpenedOnce lines)
    {relocation : Relocation} (h : relocation ∈ (assembleSection registry lines).1.relocations) :
    relocation.halfBytes = 5 ∨ relocation.halfBytes = 6 := by
  rw [relocations_assembleSection honce] at h
  obtain ⟨statement, -, hasks⟩ := List.mem_flatMap.mp h
  rcases Statement.mem_linkerFields hasks with ⟨-, -, -, -, -, hfive⟩ | ⟨-, -, hsix⟩
  · exact Or.inl hfive
  · exact Or.inr hsix

/-- **Columns of assembled sections are in range.** -/
theorem inRange_of_mem_columns (hstays : StayInMemory (assemble registry source).diagnostics)
    {records : List ObjectRecord} (hrecords : records ∈ (assemble registry source).objectRecords)
    {record : ObjectRecord} (hmem : record ∈ records) :
    ∀ column ∈ record.columns, column.InRange := by
  have hfit := (writable_of_mem_objectRecords hstays records hrecords record hmem).numbers
  obtain ⟨⟨sect, index⟩, hindexed, rfl⟩ := List.mem_map.mp hrecords
  obtain ⟨lines, hlines, rfl⟩ :=
    exists_lines_of_mem_sections (List.fst_mem_of_mem_zipIdx hindexed)
  cases record with
  | header name length =>
      simp only [ObjectRecord.columns, List.forall_mem_cons, Column.InRange]
      exact ⟨trivial, trivial, Nat.le_of_lt_succ hfit, by simp⟩
  | define symbols =>
      refine List.forall_mem_cons.mpr ⟨trivial, fun column hcolumn => ?_⟩
      obtain ⟨symbol, hsymbol, hin⟩ := List.mem_flatMap.mp hcolumn
      have haddress : symbol.2 ≤ 0xFFFFFF := Nat.le_of_lt_succ (hfit symbol hsymbol)
      rcases List.mem_pair.mp hin with rfl | rfl
      · trivial
      · exact haddress
  | refer symbols =>
      refine List.forall_mem_cons.mpr ⟨trivial, fun column hcolumn => ?_⟩
      obtain ⟨name, -, rfl⟩ := List.mem_map.mp hcolumn
      trivial
  | text start code =>
      have hpacked := ObjectRecord.isPacked_of_text_mem_ofSection hmem
      simp only [ObjectRecord.columns, List.forall_mem_cons, Column.InRange]
      exact ⟨trivial, Nat.le_of_lt_succ hfit.1, hpacked, trivial, by simp⟩
  | modification relocation =>
      have hhalf := halfBytes_of_mem_relocations (openedOnce_of_mem_cutSections _ lines hlines)
        (ObjectRecord.mem_relocations_of_mem_ofSection hmem)
      simp only [ObjectRecord.columns, List.forall_mem_cons, Column.InRange]
      exact ⟨trivial, Nat.le_of_lt_succ hfit.1, hhalf, trivial, trivial, by simp⟩
  | endSection entry =>
      cases entry with
      | none =>
          simp only [ObjectRecord.columns, List.forall_mem_cons, Column.InRange]
          exact ⟨trivial, by simp⟩
      | some address =>
          simp only [ObjectRecord.columns, List.forall_mem_cons, Column.InRange]
          exact ⟨trivial, Nat.le_of_lt_succ (hfit address rfl), by simp⟩

/-- Every symbol of a section has a value of at most six digits, those of `EQU` among them. -/
theorem exists_value_of_mem_symbols {sect : Section}
    (hsect : sect ∈ (assemble registry source).sections) {entry : String × Option Nat}
    (hentry : entry ∈ sect.symbols.entries) : ∃ value ≤ 0xFFFFFF, entry.2 = some value := by
  obtain ⟨value, hvalue⟩ :=
    Option.isSome_iff_exists.mp (listable_of_mem_symbols hsect entry hentry).1
  obtain ⟨lines, -, rfl⟩ := exists_lines_of_mem_sections hsect
  have hlt := Layout.below_addLines registry lines entry hentry value hvalue
  exact ⟨value, Nat.le_of_lt_succ hlt, hvalue⟩

end

/-- **Numbers have their width in object files.**  The object file of a program that stays in memory
is made of columns, and every number in one of them is in range and takes exactly the width of its
column: six digits for addresses and lengths of sections, two for the lengths of code, which are
from 1 to 30, and for those of fields to adjust, which are 5 or 6.  And every symbol of every
section has a value of at most six digits. -/
theorem number_columns_have_their_width (registry : Registry) (source : String)
    (hstays : StayInMemory (assemble registry source).diagnostics) :
    (assemble registry source).objectText =
      String.join ((assemble registry source).objectRecords.map fun records =>
        unlines (records.map fun record => String.join (record.columns.map Column.text)) ++
          "\n") ∧
    (∀ records ∈ (assemble registry source).objectRecords, ∀ record ∈ records,
      ∀ column ∈ record.columns, column.InRange ∧
        ∀ width value, column.number? = some (width, value) →
          column.text.toList.length = width ∧
          Text.readHexField? width column.text.toList = some value) ∧
    ∀ sect ∈ (assemble registry source).sections, ∀ entry ∈ sect.symbols.entries,
      ∃ value ≤ 0xFFFFFF, entry.2 = some value := by
  refine ⟨?_, ?_, ?_⟩
  · simp only [← ObjectRecord.line_eq_join_columns]
    rfl
  · intro records hrecords record hmem column hcolumn
    have hrange := inRange_of_mem_columns hstays hrecords hmem column hcolumn
    exact ⟨hrange, fun width value hnumber => hrange.width hnumber⟩
  · exact fun sect hsect entry hentry => exists_value_of_mem_symbols hsect hentry

/-- A program that exports a symbol with the greatest value, and starts there. -/
def highSymbol : String :=
  "P\tSTART\t0\n\tEXTDEF\tHIGH\nHIGH\tEQU\t-1\n\t+LDA\tHIGH\n\tEND\tHIGH\n"

/-- The greatest value still has six digits. -/
theorem number_columns_of_highSymbol :
    (assemble loadRegistry highSymbol).diagnostics = [] ∧
    (assemble loadRegistry highSymbol).objectText =
      "HP     000004\nDHIGH  FFFFFF\nT0000000403100000\nM00000105+HIGH\nEFFFFFF\n\n" ∧
    ∀ records ∈ (assemble loadRegistry highSymbol).objectRecords, ∀ record ∈ records,
      ∀ column ∈ record.columns, ∀ width value, column.number? = some (width, value) →
        column.text.toList.length = width := by
  have hquiet : (assemble loadRegistry highSymbol).diagnostics = [] := by decide +kernel
  have hstays : StayInMemory (assemble loadRegistry highSymbol).diagnostics := by
    rw [hquiet]
    exact List.forall_mem_nil _
  obtain ⟨-, hcolumns, -⟩ := number_columns_have_their_width loadRegistry highSymbol hstays
  refine ⟨hquiet, by decide +kernel, ?_⟩
  intro records hrecords record hmem column hcolumn width value hnumber
  exact ((hcolumns records hrecords record hmem column hcolumn).2 width value hnumber).1

end Program

end SicXe
