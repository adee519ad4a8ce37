import SicXe.Proofs.AssembledSection
import SicXe.Proofs.PlainNames
import SicXe.Proofs.SymbolValues

/-!
# SicXe.Proofs.SymbolListing

Reading a symbol listing back.

A line of the listing is a name, a tab and an address in capital hexadecimal digits.  The names are
labels, which are cut out of their lines at tabs, so neither a tab nor a line feed is among their
characters; and every symbol is located, as a label gets an address before `EQU` can fail to give it
another value (`listable_of_mem_symbols`).  So the listing of an assembled program holds its symbol
tables whole (`symbol_listing_reads_back`).
-/

namespace SicXe

namespace Text

/-- Read a number in capital hexadecimal digits, of any length. -/
def readHex? (digits : List Char) : Option Nat :=
  if digits.any Char.isLower then none else readHexField? digits.length digits

theorem lt_pow_length_hexDigits (n : Nat) : n < 16 ^ (hexDigits n).length := by
  induction n using Nat.strongRecOn with
  | ind n ih =>
      by_cases hlt : n < 16
      · rw [hexDigits_of_lt hlt]
        simpa using hlt
      · have hfirst := ih (n / 16) (by omega)
        rw [hexDigits_of_le (by omega), List.length_append, List.length_singleton, Nat.pow_succ]
        omega

/-- **Numbers read back** from their capital digits. -/
theorem readHex?_hexDigits (n : Nat) : readHex? (hexDigits n) = some n := by
  have hcapital : ∀ d < 16, (hexDigit d).isLower = false := by decide
  have hlower : (hexDigits n).any Char.isLower = false := by
    rw [List.any_eq_false]
    intro c hmem
    obtain ⟨d, hd, rfl⟩ := exists_hexDigit_of_mem hmem
    simp [hcapital d hd]
  rw [readHex?, hlower, readHexField?, if_pos rfl,
    readNumeral_hexDigits (lt_pow_length_hexDigits n)]
  rfl

/-- The address has no tab in it, so the last tab of a line stands before the address. -/
theorem tab_notMem_hexDigits (n : Nat) : '\t' ∉ hexDigits n := by
  have hdigit : ∀ d < 16, '\t' ≠ hexDigit d := by decide
  intro hmem
  obtain ⟨d, hd, htab⟩ := exists_hexDigit_of_mem hmem
  exact hdigit d hd htab

end Text

/-! ## lines of the listing -/

/-- The table of names that all have an address. -/
def AddressTable.ofLocated (entries : List (String × Nat)) : AddressTable :=
  ⟨entries.map fun entry => (entry.1, some entry.2)⟩

/-- A table without pending names is the table of its located ones. -/
theorem AddressTable.ofLocated_located {table : AddressTable}
    (h : ∀ entry ∈ table.entries, entry.2.isSome) : ofLocated table.located = table := by
  obtain ⟨entries⟩ := table
  unfold ofLocated located
  congr 1
  induction entries with
  | nil => rfl
  | cons entry rest ih =>
      obtain ⟨hfirst, hrest⟩ := List.forall_mem_cons.mp h
      obtain ⟨name, address⟩ := entry
      obtain ⟨found, rfl⟩ := Option.isSome_iff_exists.mp hfirst
      simpa using ih hrest

namespace Program

/-- Read a line of a listing: a name and an address with a tab between them. -/
def readListingLine? (line : String) : Option (String × Nat) :=
  match Text.pieces '\t' line.toList with
  | [name, digits] => (Text.readHex? digits).map fun address => (String.ofList name, address)
  | _ => none

/-- Read a symbol listing as the symbol tables of its sections; an empty line ends a section. -/
def readSymbolListing? (text : String) : Option (List AddressTable) :=
  (Text.readGroups? readListingLine? (Text.lines text)).map (·.map AddressTable.ofLocated)

/-- What a name has to be to stand in a line of a listing. -/
structure Listable (name : String) : Prop where
  noTab : '\t' ∉ name.toList
  oneLine : '\n' ∉ name.toList

/-- A line of the listing is a name, a tab and an address. -/
theorem toList_listingLine (name : String) (address : Nat) :
    (listingLine name address).toList = name.toList ++ '\t' :: Text.hexDigits address := by
  simp [listingLine, Text.hex]

theorem listingLine_ne_empty (name : String) (address : Nat) : listingLine name address ≠ "" := by
  intro hempty
  have htext := toList_listingLine name address
  rw [hempty] at htext
  simp at htext

/-- **One line** of the listing is read as its name and its address. -/
theorem readListingLine?_listingLine {name : String} (h : Listable name) (address : Nat) :
    readListingLine? (listingLine name address) = some (name, address) := by
  rw [readListingLine?, toList_listingLine, Text.pieces_append_separator,
    Text.pieces_of_notMem h.noTab, Text.pieces_of_notMem (Text.tab_notMem_hexDigits address)]
  simp [Text.readHex?_hexDigits]

/-- An entry of the listing stands on one line. -/
theorem isLine_listingLine {name : String} (h : Listable name) (address : Nat) :
    Text.IsLine (listingLine name address).toList := by
  obtain ⟨hone, hlast⟩ := Text.isLine_hexDigits address
  rw [toList_listingLine]
  refine ⟨by simp [h.oneLine, hone], ?_⟩
  rw [List.getLast?_append, List.getLast?_cons]
  cases hend : (Text.hexDigits address).getLast? with
  | none => simp
  | some c => simpa [hend] using hlast

/-- **A listing reads back** if its names can stand in its lines and none is pending. -/
theorem readSymbolListing?_symbolListing {program : Program}
    (h : ∀ sect ∈ program.sections, ∀ entry ∈ sect.symbols.entries,
      entry.2.isSome ∧ Listable entry.1) :
    readSymbolListing? program.symbolListing = some (program.sections.map Section.symbols) := by
  have hlistable : ∀ group ∈ program.sections.map (·.symbols.located), ∀ entry ∈ group,
      Listable entry.1 := by
    intro group hgroup entry hentry
    obtain ⟨sect, hsect, rfl⟩ := List.mem_map.mp hgroup
    obtain ⟨whole, hwhole, hlocated⟩ := List.mem_filterMap.mp hentry
    obtain ⟨address, -, rfl⟩ := Option.map_eq_some_iff.mp hlocated
    exact (h sect hsect whole hwhole).2
  have htext : program.symbolListing =
      String.join ((program.sections.map (·.symbols.located)).map fun group =>
        unlines (group.map fun entry => listingLine entry.1 entry.2) ++ "\n") := by
    rw [List.map_map]
    rfl
  have hlines := lines_groups fun group hgroup entry hentry =>
    isLine_listingLine (hlistable group hgroup entry hentry) entry.2
  have hread : Text.readGroups? readListingLine? _ = some _ :=
    Text.readGroups?_flatMap fun group hgroup entry hentry =>
      ⟨listingLine_ne_empty entry.1 entry.2,
        readListingLine?_listingLine (hlistable group hgroup entry hentry) entry.2⟩
  rw [readSymbolListing?, htext, hlines, hread, Option.map_some, List.map_map]
  congr 1
  apply List.map_congr_left
  intro sect hsect
  exact AddressTable.ofLocated_located fun entry hentry => (h sect hsect entry hentry).1

/-! ## symbols -/

/-- The label of a line can be listed. -/
theorem listable_of_draft {registry : Registry} {number : Nat} {text : String}
    {statement : Statement} (htext : '\n' ∉ text.toList)
    (h : Layout.draft registry number text = .ok (some statement)) :
    ∀ label ∈ statement.label, Listable label := by
  intro label hlabel
  obtain ⟨fields, hread, hfields⟩ := Layout.exists_fields_of_draft h
  have hsame : statement.label = fields.label := Layout.label_draftFields hfields
  rw [hsame] at hlabel
  exact ⟨LineFields.tab_notMem_label_of_read hread label hlabel,
    ((LineFields.plain_of_read htext hread).1 label hlabel).oneLine⟩

/-- **Symbols can be listed**: they are located labels. -/
theorem listable_of_mem_symbols {registry : Registry} {source : String} {sect : Section}
    (h : sect ∈ (assemble registry source).sections) :
    ∀ entry ∈ sect.symbols.entries, entry.2.isSome ∧ Listable entry.1 := by
  obtain ⟨lines, hlines, rfl⟩ := exists_lines_of_mem_sections h
  rw [assembleSection_fst]
  refine Layout.forall_symbols_addLines fun line hline statement hdraft label hlabel => ?_
  have hlistable := listable_of_draft (feed_notMem_of_mem_section hlines hline) hdraft label hlabel
  exact ⟨fun _ _ => ⟨rfl, hlistable⟩, fun _ _ _ _ _ => ⟨rfl, hlistable⟩⟩

/-- **Symbol listings read back.**  Whatever is assembled, cutting its symbol listing into lines,
ending a section at each empty line and cutting every other line at its tab into a name and a number
in capital hexadecimal digits gives the symbol tables of all sections, in order: every entry with
its address, in the order the names were defined, and none left out. -/
theorem symbol_listing_reads_back (registry : Registry) (source : String) :
    readSymbolListing? (assemble registry source).symbolListing =
      some ((assemble registry source).sections.map Section.symbols) :=
  readSymbolListing?_symbolListing fun _ hsect => listable_of_mem_symbols hsect

end Program

end SicXe
