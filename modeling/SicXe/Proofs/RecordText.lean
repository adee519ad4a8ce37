import Mathlib.Algebra.Group.Nat.Defs
import Mathlib.Data.List.DropRight
import SicXe.Listing
import SicXe.Proofs.HexNumeral
import SicXe.Proofs.SectionIndependence

/-!
# SicXe.Proofs.RecordText

Reading an object file back.

A line is read by the columns of its kind: names stand in six columns, addresses and lengths in
six, counts in two.  Neither names nor numbers are cut when they are printed, so a record reads
back if its numbers fit their columns and its names have at most six characters (`read?_line`);
with a longer name it does not (`fit_of_read?`).  A file reads back if its records do
(`readFile?_objectText_iff`).
-/

namespace SicXe

namespace Text

/-! ## fields of fixed width -/

/-- Read a field of hexadecimal digits. -/
def readHexField? (width : Nat) (field : List Char) : Option Nat :=
  if field.length = width then (readNumeral 16 (16 ^ width) field).toOption else none

/-- Read a name in a field, without the spaces that fill it up. -/
def readNameField? (width : Nat) (field : List Char) : Option String :=
  if field.length = width then some (String.ofList (field.rdropWhile (· == ' '))) else none

/-- Read a text that consists of so many fields of one width. -/
def readFields? (width : Nat) (read : List Char → Option α) :
    (count : Nat) → List Char → Option (List α)
  | 0, [] => some []
  | 0, _ :: _ => none
  | count + 1, cs => do
    let first ← read (cs.take width)
    let rest ← readFields? width read count (cs.drop width)
    return first :: rest

/-- A number below a power of 16 has no more digits than the exponent says. -/
theorem length_hexDigits_le {n width : Nat} (h : n < 16 ^ (width + 1)) :
    (hexDigits n).length ≤ width + 1 := by
  induction width generalizing n with
  | zero => rw [hexDigits_of_lt (by simpa using h)]; rfl
  | succ width ih =>
      by_cases hlt : n < 16
      · rw [hexDigits_of_lt hlt]
        simp
      · have hfirst : n / 16 < 16 ^ (width + 1) :=
          Nat.div_lt_of_lt_mul (by rwa [Nat.mul_comm, ← Nat.pow_succ])
        rw [hexDigits_of_le (by omega), List.length_append, List.length_singleton]
        exact Nat.succ_le_succ (ih hfirst)

/-- A number that fits its field fills it. -/
theorem length_hexPadded {n width : Nat} (h : n < 16 ^ (width + 1)) :
    (hexPadded (width + 1) n).toList.length = width + 1 := by
  have hle := length_hexDigits_le h
  rw [hexPadded, String.toList_ofList, List.length_append, List.length_replicate]
  omega

/-- Leading zeros count for nothing. -/
theorem readDigits_replicate_zero {bound : Nat} (hbound : 0 < bound) (count : Nat) :
    readDigits 16 bound 0 (List.replicate count '0') = .ok 0 := by
  have hzero : digitValue? 16 '0' = some 0 := by decide
  induction count with
  | zero => rfl
  | succ count ih => simp [List.replicate_succ, readDigits, hzero, hbound, ih]

/-- **Numbers read back** from fields they fit. -/
theorem readHexField?_hexPadded {n width : Nat} (h : n < 16 ^ (width + 1)) :
    readHexField? (width + 1) (hexPadded (width + 1) n).toList = some n := by
  have hlength := length_hexPadded h
  have hne : (hexPadded (width + 1) n).toList ≠ [] := by
    intro hnil
    rw [hnil] at hlength
    cases hlength
  rw [readHexField?, if_pos hlength, readNumeral, if_neg hne, hexPadded, String.toList_ofList,
    readDigits_append, readDigits_replicate_zero (by omega)]
  simp only [Except.bind, readDigits_hexDigits h, Except.toOption]

/-- A name that fits its field fills it. -/
theorem length_padRight {name : String} {width : Nat} (h : name.toList.length ≤ width) :
    (padRight width name).toList.length = width := by
  rw [padRight, String.toList_ofList, List.length_append, List.length_replicate]
  omega

/-- **Names read back** from fields they fit, if they do not end with a space themselves. -/
theorem readNameField?_padRight {name : String} {width : Nat} (h : name.toList.length ≤ width)
    (hlast : name.toList.getLast? ≠ some ' ') :
    readNameField? width (padRight width name).toList = some name := by
  have hstripped : ∀ count, (name.toList ++ List.replicate count ' ').rdropWhile (· == ' ') =
      name.toList := by
    -- One space after the other is stripped, down to the name, which ends with something else.
    intro count
    induction count with
    | zero =>
        rw [List.replicate_zero, List.append_nil, List.rdropWhile_eq_self_iff]
        intro hne hspace
        exact hlast (by simpa [List.getLast?_eq_some_getLast hne] using hspace)
    | succ count ih =>
        rw [List.replicate_succ', ← List.append_assoc, List.rdropWhile_concat_pos _ _ _ (by simp)]
        exact ih
  rw [readNameField?, if_pos (length_padRight h), padRight, String.toList_ofList, hstripped,
    String.ofList_toList]

/-- A name that was read fits its field. -/
theorem length_of_readNameField? {field : List Char} {width : Nat} {name : String}
    (h : readNameField? width field = some name) : name.toList.length ≤ width := by
  unfold readNameField? at h
  split at h
  · next hlength =>
      cases h
      rw [String.toList_ofList, ← hlength]
      exact (List.rdropWhile_prefix _ _).length_le
  · cases h

/-- Fields of one width side by side. -/
theorem length_flatMap_of_width {width : Nat} {write : α → List Char} {values : List α}
    (hwidth : ∀ value ∈ values, (write value).length = width) :
    (values.flatMap write).length = values.length * width := by
  induction values with
  | nil => simp
  | cons first rest ih =>
      rw [List.flatMap_cons, List.length_append, hwidth first List.mem_cons_self,
        ih fun value hmem => hwidth value (List.mem_cons_of_mem _ hmem), List.length_cons,
        Nat.succ_mul, Nat.add_comm]

/-- **Fields read back** one after another, if each of them has the width and reads back. -/
theorem readFields?_flatMap {width : Nat} {read : List Char → Option α} {write : α → List Char}
    {values : List α} (hpos : 0 < width)
    (hwidth : ∀ value ∈ values, (write value).length = width)
    (hread : ∀ value ∈ values, read (write value) = some value) :
    readFields? width read ((values.flatMap write).length / width) (values.flatMap write) =
      some values := by
  rw [length_flatMap_of_width hwidth, Nat.mul_div_cancel _ hpos]
  induction values with
  | nil => rfl
  | cons first rest ih =>
      have hfirst := hwidth first List.mem_cons_self
      have hrest := ih (fun value hmem => hwidth value (List.mem_cons_of_mem _ hmem))
        (fun value hmem => hread value (List.mem_cons_of_mem _ hmem))
      rw [List.flatMap_cons, List.length_cons, readFields?, List.take_left' hfirst,
        List.drop_left' hfirst, hread first List.mem_cons_self, hrest]
      rfl

/-- Whatever is among the values was read from a field. -/
theorem exists_of_mem_readFields? {width count : Nat} {read : List Char → Option α}
    {cs : List Char} {values : List α} (h : readFields? width read count cs = some values)
    {value : α} (hmem : value ∈ values) : ∃ field, read field = some value := by
  fun_induction readFields? width read count cs generalizing values with
  | case1 =>
      cases h
      cases hmem
  | case2 => cases h
  | case3 count cs ih =>
      simp only [Option.bind_eq_bind, Option.bind_eq_some_iff, Option.pure_def,
        Option.some.injEq] at h
      obtain ⟨first, hfirst, rest, hrest, rfl⟩ := h
      rcases List.mem_cons.mp hmem with rfl | hlater
      · exact ⟨_, hfirst⟩
      · exact ih hrest hlater

/-! ## texts that stand in a line -/

/-- What names have in common: there is no line feed in them, and no blank at their end. -/
structure Plain (name : List Char) : Prop where
  oneLine : '\n' ∉ name
  trimmed : ∀ c ∈ name.getLast?, isBlank c = false

/-- A plain name does not end with a blank. -/
theorem Plain.getLast?_ne {name : List Char} (h : Plain name) {c : Char}
    (hblank : isBlank c = true) : name.getLast? ≠ some c := by
  intro hlast
  rw [h.trimmed c hlast] at hblank
  cases hblank

/-- What a text has to be to come back as a line: no line feed in it, and no carriage return at
its end. -/
structure IsLine (text : List Char) : Prop where
  oneLine : '\n' ∉ text
  noReturn : text.getLast? ≠ some '\r'

/-- A plain name can stand in a line. -/
theorem Plain.isLine {name : List Char} (h : Plain name) : IsLine name :=
  ⟨h.oneLine, h.getLast?_ne (by decide)⟩

theorem IsLine.nil : IsLine [] := ⟨by simp, by simp⟩

/-- Texts that can stand in a line can do so side by side. -/
theorem IsLine.append {first second : List Char} (hfirst : IsLine first)
    (hsecond : IsLine second) : IsLine (first ++ second) := by
  refine ⟨by simp [hfirst.oneLine, hsecond.oneLine], ?_⟩
  have hlast := hsecond.noReturn
  rw [List.getLast?_append]
  cases hend : second.getLast? with
  | none => exact hfirst.noReturn
  | some last => rwa [hend] at hlast

theorem IsLine.flatMap {f : α → List Char} {xs : List α} (h : ∀ x ∈ xs, IsLine (f x)) :
    IsLine (xs.flatMap f) := by
  induction xs with
  | nil => exact .nil
  | cons x rest ih =>
      rw [List.flatMap_cons]
      exact (h x List.mem_cons_self).append (ih fun y hy => h y (List.mem_cons_of_mem _ hy))

/-- A text without the characters that end lines can stand in a line. -/
theorem IsLine.of_forall {text : List Char} (h : ∀ c ∈ text, c ≠ '\n' ∧ c ≠ '\r') :
    IsLine text :=
  ⟨fun hmem => (h _ hmem).1 rfl, fun hlast => (h _ (List.mem_of_getLast? hlast)).2 rfl⟩

theorem isLine_hexDigits (n : Nat) : IsLine (hexDigits n) := by
  have hdigit : ∀ d < 16, hexDigit d ≠ '\n' ∧ hexDigit d ≠ '\r' := by decide
  apply IsLine.of_forall
  intro c hmem
  obtain ⟨d, hd, rfl⟩ := exists_hexDigit_of_mem hmem
  exact hdigit d hd

/-- Numbers stand in a line. -/
theorem isLine_hexPadded (width n : Nat) : IsLine (hexPadded width n).toList := by
  rw [hexPadded, String.toList_ofList]
  refine IsLine.append (.of_forall ?_) (isLine_hexDigits n)
  intro c hmem
  rw [List.eq_of_mem_replicate hmem]
  decide

/-- A text without the separator is one piece. -/
theorem pieces_of_notMem {separator : Char} {cs : List Char} (h : separator ∉ cs) :
    pieces separator cs = [cs] := by
  induction cs with
  | nil => rfl
  | cons c rest ih =>
      obtain ⟨hc, hrest⟩ := not_or.mp (mt List.mem_cons.mpr h)
      rw [pieces_cons, if_neg (Ne.symm hc), ih hrest]

/-- A line comes back from a text that ends it. -/
theorem lines_of_isLine {line : String} (h : IsLine line.toList) :
    lines (line ++ "\n") = [line] := by
  have hpieces : pieces '\n' line.toList = [line.toList] := pieces_of_notMem h.oneLine
  have hend : (line ++ "\n").toList = line.toList ++ ['\n'] := String.toList_append
  rw [lines, hend, pieces_append_separator, hpieces]
  simp [linesOfPieces, pieces, dropReturn, h.noReturn]

/-! ## groups of lines -/

/-- Read lines in groups; an empty line ends a group. -/
def readGroups? (read : String → Option α) : List String → Option (List (List α))
  | [] => some []
  | line :: rest => do
    let groups ← readGroups? read rest
    if line = "" then some ([] :: groups)
    else
      -- The value goes in front of those of its group that have been read behind it.
      let value ← read line
      match groups with
      | [] => none
      | group :: more => some ((value :: group) :: more)

/-- A group reads back in front of others. -/
theorem readGroups?_append {read : String → Option α} {write : α → String} {group : List α}
    (h : ∀ value ∈ group, write value ≠ "" ∧ read (write value) = some value)
    (rest : List String) :
    readGroups? read (group.map write ++ "" :: rest) =
      (readGroups? read rest).map (group :: ·) := by
  induction group with
  | nil =>
      cases hrest : readGroups? read rest <;> simp [readGroups?, hrest]
  | cons value more ih =>
      obtain ⟨hne, hread⟩ := h value List.mem_cons_self
      have hmore := ih fun other hmem => h other (List.mem_cons_of_mem _ hmem)
      rw [List.map_cons, List.cons_append, readGroups?, hmore]
      cases hrest : readGroups? read rest <;> simp [hne, hread]

/-- **Groups read back** from their lines, if each line is not empty and reads back. -/
theorem readGroups?_flatMap {read : String → Option α} {write : α → String}
    {groups : List (List α)}
    (h : ∀ group ∈ groups, ∀ value ∈ group,
      write value ≠ "" ∧ read (write value) = some value) :
    readGroups? read (groups.flatMap fun group => group.map write ++ [""]) = some groups := by
  induction groups with
  | nil => rfl
  | cons group rest ih =>
      have hrest := ih fun other hmem => h other (List.mem_cons_of_mem _ hmem)
      rw [List.flatMap_cons, List.append_assoc, List.singleton_append,
        readGroups?_append (h group List.mem_cons_self), hrest, Option.map_some]

/-- Whatever is in a group was read from a line. -/
theorem exists_of_mem_readGroups? {read : String → Option α} {lines : List String}
    {groups : List (List α)} (h : readGroups? read lines = some groups) {group : List α}
    (hgroup : group ∈ groups) {value : α} (hvalue : value ∈ group) :
    ∃ line, read line = some value := by
  induction lines generalizing groups group with
  | nil =>
      cases h
      cases hgroup
  | cons line rest ih =>
      simp only [readGroups?, Option.bind_eq_bind, Option.bind_eq_some_iff] at h
      obtain ⟨others, hothers, hline⟩ := h
      split at hline
      · cases hline
        rcases List.mem_cons.mp hgroup with rfl | hlater
        · cases hvalue
        · exact ih hothers hlater hvalue
      · obtain ⟨found, hread, hfound⟩ := Option.bind_eq_some_iff.mp hline
        split at hfound
        · cases hfound
        · next first more =>
            cases hfound
            rcases List.mem_cons.mp hgroup with rfl | hlater
            · rcases List.mem_cons.mp hvalue with rfl | hold
              · exact ⟨line, hread⟩
              · exact ih hothers List.mem_cons_self hold
            · exact ih hothers (List.mem_cons_of_mem _ hlater) hvalue

end Text

namespace ObjectRecord

/-! ## reading -/

/-- Read a name and an address that stand side by side. -/
def readSymbol? (field : List Char) : Option (String × Nat) := do
  let name ← Text.readNameField? 6 (field.take 6)
  let address ← Text.readHexField? 6 (field.drop 6)
  return (name, address)

/-- Read a sign. -/
def readSign? : Char → Option Sign
  | '+' => some .plus
  | '-' => some .minus
  | _ => none

/-- Read a line of an object file by the columns of its kind. -/
def read? (line : String) : Option ObjectRecord :=
  match line.toList with
  | 'H' :: columns => (readSymbol? columns).map fun symbol => .header symbol.1 symbol.2
  | 'D' :: columns =>
    (Text.readFields? 12 readSymbol? (columns.length / 12) columns).map .define
  | 'R' :: columns =>
    (Text.readFields? 6 (Text.readNameField? 6) (columns.length / 6) columns).map .refer
  | 'T' :: columns => do
    let start ← Text.readHexField? 6 (columns.take 6)
    let count ← Text.readHexField? 2 ((columns.drop 6).take 2)
    let code ← Bytes.ofHexDigits? (columns.drop 8)
    if code.length = count then some (.text start code) else none
  | 'M' :: columns => do
    let address ← Text.readHexField? 6 (columns.take 6)
    let halfBytes ← Text.readHexField? 2 ((columns.drop 6).take 2)
    match columns.drop 8 with
    | [] => none
    | c :: symbol =>
      let sign ← readSign? c
      return .modification ⟨address, halfBytes, sign, String.ofList symbol⟩
  | ['E'] => some (.endSection none)
  | 'E' :: columns => (Text.readHexField? 6 columns).map fun entry => .endSection (some entry)
  | _ => none

/-- Read the lines of an object file; an empty line ends the records of a section. -/
def readSections? : List String → Option (List (List ObjectRecord)) :=
  Text.readGroups? read?

/-- Read an object file. -/
def readFile? (text : String) : Option (List (List ObjectRecord)) :=
  readSections? (Text.lines text)

/-! ## records that can be read -/

/-- Whether the numbers of a record fit their columns. -/
def NumbersFit : ObjectRecord → Prop
  | header _ length => length < 16 ^ 6
  | define symbols => ∀ symbol ∈ symbols, symbol.2 < 16 ^ 6
  | refer _ => True
  | text start code => start < 16 ^ 6 ∧ code.length < 16 ^ 2
  | modification relocation => relocation.address < 16 ^ 6 ∧ relocation.halfBytes < 16 ^ 2
  | endSection entry => ∀ address ∈ entry, address < 16 ^ 6

/-- The names of a record that stand in columns. -/
def columnNames : ObjectRecord → List String
  | header name _ => [name]
  | define symbols => symbols.map Prod.fst
  | refer symbols => symbols
  | _ => []

/-- The name of a record that stands behind its columns, if there is one. -/
def lastName? : ObjectRecord → Option String
  | modification relocation => some relocation.symbol
  | _ => none

/-- Whether the names of a record fit their columns. -/
def NamesFit (record : ObjectRecord) : Prop :=
  ∀ name ∈ record.columnNames, name.toList.length ≤ 6

instance (record : ObjectRecord) : Decidable record.NamesFit :=
  inferInstanceAs (Decidable (∀ name ∈ record.columnNames, name.toList.length ≤ 6))

/-- What the records of assembled programs have in common: their numbers fit their columns, and
their names are plain. -/
structure Writable (record : ObjectRecord) : Prop where
  numbers : record.NumbersFit
  columns : ∀ name ∈ record.columnNames, Text.Plain name.toList
  last : ∀ name ∈ record.lastName?, Text.Plain name.toList

theorem length_nameField {name : String} (h : name.toList.length ≤ 6) :
    (nameField name).toList.length = 6 := Text.length_padRight h

theorem length_addressField {address : Nat} (h : address < 16 ^ 6) :
    (addressField address).toList.length = 6 := Text.length_hexPadded h

theorem length_countField {count : Nat} (h : count < 16 ^ 2) :
    (countField count).toList.length = 2 := Text.length_hexPadded h

theorem readHexField?_addressField {address : Nat} (h : address < 16 ^ 6) :
    Text.readHexField? 6 (addressField address).toList = some address :=
  Text.readHexField?_hexPadded h

theorem readHexField?_countField {count : Nat} (h : count < 16 ^ 2) :
    Text.readHexField? 2 (countField count).toList = some count :=
  Text.readHexField?_hexPadded h

/-- A name and an address side by side. -/
def symbolFields (symbol : String × Nat) : List Char :=
  (nameField symbol.1).toList ++ (addressField symbol.2).toList

/-- A name and an address that fit their columns take twelve. -/
theorem length_symbolFields {symbol : String × Nat} (hname : symbol.1.toList.length ≤ 6)
    (haddress : symbol.2 < 16 ^ 6) : (symbolFields symbol).length = 12 := by
  rw [symbolFields, List.length_append, length_nameField hname, length_addressField haddress]

/-- Plain names read back from their six columns. -/
theorem readNameField?_nameField {name : String} (h : name.toList.length ≤ 6)
    (hplain : Text.Plain name.toList) :
    Text.readNameField? 6 (nameField name).toList = some name :=
  Text.readNameField?_padRight h (hplain.getLast?_ne (by decide))

/-- A symbol reads back from its columns. -/
theorem readSymbol?_symbolFields {symbol : String × Nat} (hname : symbol.1.toList.length ≤ 6)
    (hplain : Text.Plain symbol.1.toList) (haddress : symbol.2 < 16 ^ 6) :
    readSymbol? (symbolFields symbol) = some symbol := by
  have hlength := length_nameField hname
  rw [readSymbol?, symbolFields, List.take_left' hlength, List.drop_left' hlength,
    readNameField?_nameField hname hplain, readHexField?_addressField haddress]
  rfl

/-- The name of a symbol that was read has at most six characters. -/
theorem length_of_readSymbol? {field : List Char} {symbol : String × Nat}
    (h : readSymbol? field = some symbol) : symbol.1.toList.length ≤ 6 := by
  simp only [readSymbol?, Option.bind_eq_bind, Option.bind_eq_some_iff, Option.pure_def,
    Option.some.injEq] at h
  obtain ⟨name, hname, address, -, rfl⟩ := h
  exact Text.length_of_readNameField? hname

/-! ## the lines of records -/

/-- The line of a header: a name and a length. -/
theorem toList_line_header (name : String) (length : Nat) :
    (header name length).line.toList = 'H' :: symbolFields (name, length) := by
  simp [line, symbolFields]

/-- The line of exported symbols: names and addresses in turn. -/
theorem toList_line_define (symbols : List (String × Nat)) :
    (define symbols).line.toList = 'D' :: symbols.flatMap symbolFields := by
  simp only [line, String.toList_append, String.toList_join, List.flatMap_map]
  rfl

/-- The line of imported symbols: their names. -/
theorem toList_line_refer (symbols : List String) :
    (refer symbols).line.toList = 'R' :: symbols.flatMap fun name => (nameField name).toList := by
  simp [line, String.toList_join, List.flatMap_map]

/-- The line of a text record: where it starts, how many bytes it has, and the bytes. -/
theorem toList_line_text (start : Nat) (code : List UInt8) :
    (text start code).line.toList = 'T' :: ((addressField start).toList ++
      ((countField code.length).toList ++ code.flatMap Bytes.hexPair)) := by
  simp [line, Bytes.toHex]

/-- The line of a relocation, whose name stands last and without a width. -/
theorem toList_line_modification (relocation : Relocation) :
    (modification relocation).line.toList = 'M' :: ((addressField relocation.address).toList ++
      ((countField relocation.halfBytes).toList ++
        (relocation.sign.text.toList ++ relocation.symbol.toList))) := by
  simp [line]

/-- The last line of a section, with or without an entry address. -/
theorem toList_line_endSection (entry : Option Nat) :
    (endSection entry).line.toList =
      'E' :: (entry.map fun address => (addressField address).toList).getD [] := by
  cases entry <;> simp [line]

/-- The columns that text and modification records have in common: an address, a count, and all
that follows. -/
theorem columns_eq {address count : Nat} (haddress : address < 16 ^ 6) (hcount : count < 16 ^ 2)
    (rest : List Char) {columns : List Char}
    (h : columns = (addressField address).toList ++ ((countField count).toList ++ rest)) :
    Text.readHexField? 6 (columns.take 6) = some address ∧
    Text.readHexField? 2 ((columns.drop 6).take 2) = some count ∧
    columns.drop 8 = rest := by
  have hsix := length_addressField haddress
  have htwo := length_countField hcount
  have hdrop : columns.drop 6 = (countField count).toList ++ rest := by
    rw [h, List.drop_left' hsix]
  refine ⟨?_, ?_, ?_⟩
  · rw [h, List.take_left' hsix, readHexField?_addressField haddress]
  · rw [hdrop, List.take_left' htwo, readHexField?_countField hcount]
  · rw [show 8 = 6 + 2 from rfl, ← List.drop_drop, hdrop, List.drop_left' htwo]

/-- Signs read back from the one character they are written with. -/
theorem readSign?_text (sign : Sign) :
    ∃ c, sign.text.toList = [c] ∧ readSign? c = some sign := by
  cases sign
  · exact ⟨'+', rfl, rfl⟩
  · exact ⟨'-', rfl, rfl⟩

/-- **Records read back** from their lines, if their names fit. -/
theorem read?_line {record : ObjectRecord} (h : record.Writable) (hfit : record.NamesFit) :
    read? record.line = some record := by
  obtain ⟨hnumbers, hcolumns, -⟩ := h
  cases record with
  | header name length =>
      have hname : name ∈ (header name length).columnNames := List.mem_singleton_self name
      have hread : readSymbol? (symbolFields (name, length)) = some (name, length) :=
        readSymbol?_symbolFields (hfit name hname) (hcolumns name hname) hnumbers
      simp only [read?, toList_line_header, hread, Option.map_some]
  | define symbols =>
      have hname : ∀ symbol ∈ symbols, symbol.1 ∈ (define symbols).columnNames :=
        fun symbol hmem => List.mem_map_of_mem hmem
      have hread : Text.readFields? 12 readSymbol? ((symbols.flatMap symbolFields).length / 12)
          (symbols.flatMap symbolFields) = some symbols := by
        refine Text.readFields?_flatMap (by decide) ?_ ?_
        · intro symbol hmem
          exact length_symbolFields (hfit _ (hname symbol hmem)) (hnumbers symbol hmem)
        · intro symbol hmem
          exact readSymbol?_symbolFields (hfit _ (hname symbol hmem))
            (hcolumns _ (hname symbol hmem)) (hnumbers symbol hmem)
      simp only [read?, toList_line_define, hread, Option.map_some]
  | refer symbols =>
      have hread : Text.readFields? 6 (Text.readNameField? 6)
          ((symbols.flatMap fun name => (nameField name).toList).length / 6)
          (symbols.flatMap fun name => (nameField name).toList) = some symbols := by
        refine Text.readFields?_flatMap (by decide) ?_ ?_
        · exact fun name hmem => length_nameField (hfit name hmem)
        · exact fun name hmem => readNameField?_nameField (hfit name hmem) (hcolumns name hmem)
      simp only [read?, toList_line_refer, hread, Option.map_some]
  | text start code =>
      obtain ⟨hstart, hcount, hrest⟩ :=
        columns_eq hnumbers.1 hnumbers.2 (code.flatMap Bytes.hexPair) rfl
      simp only [read?, toList_line_text, hstart, hcount, hrest,
        Bytes.ofHexDigits?_flatMap_hexPair, Option.bind_eq_bind, Option.bind_some, if_true]
  | modification relocation =>
      obtain ⟨sign, hsign, hread⟩ := readSign?_text relocation.sign
      obtain ⟨haddress, hcount, hrest⟩ := columns_eq hnumbers.1 hnumbers.2
        (sign :: relocation.symbol.toList) rfl
      simp only [read?, toList_line_modification, haddress, hcount, hrest, hsign, hread,
        List.singleton_append, Option.bind_eq_bind, Option.bind_some, Option.pure_def,
        String.ofList_toList]
  | endSection entry =>
      cases entry with
      | none => rfl
      | some address =>
          have hread := readHexField?_addressField (hnumbers address rfl)
          have hlength := length_addressField (hnumbers address rfl)
          obtain ⟨c, rest, hdigits⟩ : ∃ c rest, (addressField address).toList = c :: rest :=
            List.exists_cons_of_length_pos (by omega)
          rw [hdigits] at hread
          simp only [read?, toList_line_endSection, Option.map_some, Option.getD_some, hdigits,
            hread]

/-- **Long names are lost**: whatever is read has names that fit. -/
theorem fit_of_read? {line : String} {record : ObjectRecord} (h : read? line = some record) :
    record.NamesFit := by
  unfold read? at h
  split at h
  · obtain ⟨symbol, hread, rfl⟩ := Option.map_eq_some_iff.mp h
    intro name hname
    rw [List.mem_singleton.mp hname]
    exact length_of_readSymbol? hread
  · obtain ⟨symbols, hread, rfl⟩ := Option.map_eq_some_iff.mp h
    intro name hname
    obtain ⟨symbol, hmem, rfl⟩ := List.mem_map.mp hname
    obtain ⟨field, hfield⟩ := Text.exists_of_mem_readFields? hread hmem
    exact length_of_readSymbol? hfield
  · obtain ⟨symbols, hread, rfl⟩ := Option.map_eq_some_iff.mp h
    intro name hname
    obtain ⟨field, hfield⟩ := Text.exists_of_mem_readFields? hread hname
    exact Text.length_of_readNameField? hfield
  · simp only [Option.bind_eq_bind, Option.bind_eq_some_iff] at h
    obtain ⟨start, -, count, -, code, -, hcode⟩ := h
    split at hcode
    · cases hcode
      simp [NamesFit, columnNames]
    · cases hcode
  · simp only [Option.bind_eq_bind, Option.bind_eq_some_iff] at h
    obtain ⟨address, -, halfBytes, -, hrest⟩ := h
    split at hrest
    · cases hrest
    · obtain ⟨sign, -, hsign⟩ := Option.bind_eq_some_iff.mp hrest
      cases hsign
      simp [NamesFit, columnNames]
  · cases h
    simp [NamesFit, columnNames]
  · obtain ⟨entry, -, rfl⟩ := Option.map_eq_some_iff.mp h
    simp [NamesFit, columnNames]
  · cases h

/-! ## files -/

/-- Names stand in a line with the spaces behind them. -/
theorem isLine_nameField {name : String} (h : Text.Plain name.toList) :
    Text.IsLine (nameField name).toList := by
  rw [nameField, Text.padRight, String.toList_ofList]
  refine h.isLine.append (.of_forall ?_)
  intro c hmem
  rw [List.eq_of_mem_replicate hmem]
  decide

theorem isLine_symbolFields {symbol : String × Nat} (h : Text.Plain symbol.1.toList) :
    Text.IsLine (symbolFields symbol) :=
  (isLine_nameField h).append (Text.isLine_hexPadded ..)

/-- A letter in front of a line. -/
theorem isLine_cons {c : Char} {rest : List Char} (hc : c ≠ '\n' ∧ c ≠ '\r')
    (h : Text.IsLine rest) : Text.IsLine (c :: rest) := by
  have hfirst : Text.IsLine [c] := .of_forall (by simpa using hc)
  exact hfirst.append h

/-- Records stand in a line. -/
theorem isLine_line {record : ObjectRecord} (h : record.Writable) :
    Text.IsLine record.line.toList := by
  obtain ⟨-, hcolumns, hlast⟩ := h
  cases record with
  | header name length =>
      rw [toList_line_header]
      exact isLine_cons (by decide)
        (isLine_symbolFields (hcolumns name (List.mem_singleton_self name)))
  | define symbols =>
      rw [toList_line_define]
      refine isLine_cons (by decide) (.flatMap fun symbol hmem => ?_)
      exact isLine_symbolFields (hcolumns symbol.1 (List.mem_map_of_mem hmem))
  | refer symbols =>
      rw [toList_line_refer]
      refine isLine_cons (by decide) (.flatMap fun name hmem => ?_)
      exact isLine_nameField (hcolumns name hmem)
  | text start code =>
      rw [toList_line_text]
      refine isLine_cons (by decide) ((Text.isLine_hexPadded ..).append
        ((Text.isLine_hexPadded ..).append (.flatMap fun byte _ => ?_)))
      exact Text.isLine_hexPadded ..
  | modification relocation =>
      have hsign : Text.IsLine relocation.sign.text.toList :=
        .of_forall (by cases relocation.sign <;> simp [Sign.text])
      rw [toList_line_modification]
      exact isLine_cons (by decide) ((Text.isLine_hexPadded ..).append
        ((Text.isLine_hexPadded ..).append (hsign.append (hlast relocation.symbol rfl).isLine)))
  | endSection entry =>
      rw [toList_line_endSection]
      cases entry with
      | none => exact isLine_cons (by decide) .nil
      | some address => exact isLine_cons (by decide) (Text.isLine_hexPadded ..)

/-- A line that reads back is not an empty one, which would end a section. -/
theorem ne_empty_line {record : ObjectRecord} (h : read? record.line = some record) :
    record.line ≠ "" := by
  intro hempty
  rw [hempty] at h
  cases h

/-- What is read from lines has names that fit. -/
theorem fit_of_readSections? {lines : List String} {sections : List (List ObjectRecord)}
    (h : readSections? lines = some sections) :
    ∀ records ∈ sections, ∀ record ∈ records, record.NamesFit := by
  intro records hrecords record hrecord
  obtain ⟨line, hread⟩ := Text.exists_of_mem_readGroups? h hrecords hrecord
  exact fit_of_read? hread

end ObjectRecord

namespace Program

/-- Lines come back from the text they make. -/
theorem lines_unlines {lines : List String} (h : ∀ line ∈ lines, Text.IsLine line.toList) :
    Text.lines (unlines lines) = lines := by
  induction lines with
  | nil => rfl
  | cons line rest ih =>
      have hwhole : Text.WholeLines (line ++ "\n") := Or.inr (by simp)
      have htext : unlines (line :: rest) = (line ++ "\n") ++ unlines rest := String.join_cons
      rw [htext, Text.lines_append hwhole, Text.lines_of_isLine (h line List.mem_cons_self),
        ih fun other hmem => h other (List.mem_cons_of_mem _ hmem), List.singleton_append]

/-- Groups of lines are printed one after another, with an empty line behind each. -/
theorem join_groups (write : α → String) (groups : List (List α)) :
    String.join (groups.map fun group => unlines (group.map write) ++ "\n") =
      unlines (groups.flatMap fun group => group.map write ++ [""]) := by
  induction groups with
  | nil => rfl
  | cons group rest ih =>
      rw [List.map_cons, String.join_cons, ih, List.flatMap_cons]
      simp [unlines, String.join_append, String.append_assoc]

/-- A text of groups of lines has an empty line behind each group. -/
theorem lines_groups {write : α → String} {groups : List (List α)}
    (h : ∀ group ∈ groups, ∀ value ∈ group, Text.IsLine (write value).toList) :
    Text.lines (String.join (groups.map fun group => unlines (group.map write) ++ "\n")) =
      groups.flatMap fun group => group.map write ++ [""] := by
  rw [join_groups]
  apply lines_unlines
  intro line hline
  obtain ⟨group, hgroup, hmem⟩ := List.mem_flatMap.mp hline
  rcases List.mem_append.mp hmem with hvalue | hempty
  · obtain ⟨value, hin, rfl⟩ := List.mem_map.mp hvalue
    exact h group hgroup value hin
  · rw [List.mem_singleton.mp hempty]
    exact .nil

/-- The lines of an object file: those of the records, and an empty one behind each section. -/
def recordLines (sections : List (List ObjectRecord)) : List String :=
  sections.flatMap fun records => records.map ObjectRecord.line ++ [""]

/-- An object file is made of the lines of its records. -/
theorem objectText_eq (program : Program) :
    program.objectText = unlines (recordLines program.objectRecords) :=
  join_groups ..

/-- Sections read back from their lines if their records do. -/
theorem readSections?_recordLines {sections : List (List ObjectRecord)}
    (h : ∀ records ∈ sections, ∀ record ∈ records,
      ObjectRecord.read? record.line = some record) :
    ObjectRecord.readSections? (recordLines sections) = some sections := by
  apply Text.readGroups?_flatMap
  intro records hrecords record hmem
  have hread := h records hrecords record hmem
  exact ⟨ObjectRecord.ne_empty_line hread, hread⟩

/-- **Object files read back** exactly if the names in their records fit. -/
theorem readFile?_objectText_iff {program : Program}
    (h : ∀ records ∈ program.objectRecords, ∀ record ∈ records, record.Writable) :
    ObjectRecord.readFile? program.objectText = some program.objectRecords ↔
      ∀ records ∈ program.objectRecords, ∀ record ∈ records, record.NamesFit := by
  have hlines : Text.lines program.objectText = recordLines program.objectRecords :=
    lines_groups fun records hrecords record hmem =>
      ObjectRecord.isLine_line (h records hrecords record hmem)
  rw [ObjectRecord.readFile?, hlines]
  constructor
  · exact ObjectRecord.fit_of_readSections?
  · intro hfit
    apply readSections?_recordLines
    intro records hrecords record hmem
    exact ObjectRecord.read?_line (h records hrecords record hmem)
      (hfit records hrecords record hmem)

end Program

end SicXe
