import SicXe.Proofs.SectionRecords
import SicXe.Proofs.SourceBytes

/-!
# SicXe.Proofs.ArithmeticBounds

Everything that is added up on the way from a source text to its records stays below 2³².

Numbers are read with 24 bits.  Kept statements lie within memory, but three sums are not held
there by any check: the length that a line asks for, the addresses given to pending literals before
the length of their pool is looked at, and the addresses of object code that is longer than its
statement, as that of a pool can be when an earlier one was lost.  All three are bounded by the
bytes of the source (`Proofs.SourceBytes`), so a source below 2³¹ bytes keeps every one of them far
from 2³² (`arithmetic_fits`).
-/

namespace SicXe

open Encoding (literalContents poolContents)

/-! ## the bytes of some literals -/

/-- Picking bytes of literals from a table gives no more than there are. -/
theorem length_flatMap_le_literalBytes {pick : String × Option Nat → List UInt8}
    (hpick : ∀ entry, (pick entry).length ≤ (literalContents entry.1).length)
    (entries : List (String × Option Nat)) :
    (entries.flatMap pick).length ≤ literalBytes entries := by
  induction entries with
  | nil => exact Nat.le_refl _
  | cons entry rest ih =>
      have hentry := hpick entry
      simp only [literalBytes, List.flatMap_cons, List.length_append] at ih ⊢
      omega

/-- Literals without a place have no more bytes than all literals. -/
theorem length_pendingContents_le (entries : List (String × Option Nat)) :
    (pendingContents entries).length ≤ literalBytes entries := by
  refine length_flatMap_le_literalBytes (fun entry => ?_) entries
  split
  · exact Nat.le_refl _
  · exact Nat.zero_le _

/-- A pool has no more bytes than all literals. -/
theorem length_poolContents_le (sect : Section) (start stop : Nat) :
    (poolContents sect start stop).length ≤ literalBytes sect.literals.entries := by
  rw [poolContents_eq]
  refine length_flatMap_le_literalBytes (fun entry => ?_) sect.literals.entries
  obtain ⟨name, _ | address⟩ := entry
  · exact Nat.zero_le _
  · dsimp only [entryContents]
    split
    · exact Nat.le_refl _
    · exact Nat.zero_le _

/-- The sizes of the first pending literals take no more bytes than the literals have. -/
theorem AddressTable.sum_pending_le (table : AddressTable) (count : Nat) :
    ((table.pending.take count).map Layout.literalSize).sum ≤ literalBytes table.entries := by
  have htake := ((List.take_sublist count table.pending).map Layout.literalSize).sum_le_sum
    fun _ _ => Nat.zero_le _
  have hplaced := table.snd_placePending Layout.literalSize 0
  have hpending := length_pendingContents_le table.entries
  rw [placePending, placeFrom_snd] at hplaced
  omega

/-! ## placing literals -/

namespace Layout

/-- The literals that are pending where a statement has its place, its own included. -/
def pendingAt (layout : Layout) (statement : Statement) (length : Nat) : List String :=
  ((layout.openSection statement).defined (layout.placed statement length)).literals.pending

/-- **Literals are placed within memory and the bytes of the source**, whether or not they fit. -/
theorem address_add_pending_le {registry : Registry} {before : List (Nat × String)}
    {line : Nat × String} {statement : Statement} {length : Nat}
    (h : HasPlace registry (addLines registry {} before).1 line statement length) (count : Nat) :
    ((addLines registry {} before).1.placed statement length).address +
        ((((addLines registry {} before).1.pendingAt statement length).take count).map
          literalSize).sum ≤
      memorySize + (lineBytes before + line.2.utf8ByteSize) := by
  have hbefore := literalBytes_addLines_le registry before
  have hdefined := literalBytes_defined_le h
  have haddress := of_decide_eq_true h.fitting
  have hsum := AddressTable.sum_pending_le (((addLines registry {} before).1.openSection
    statement).defined ((addLines registry {} before).1.placed statement length)).literals count
  rw [← pendingAt] at hsum
  omega

end Layout

/-! ## chunks and records -/

namespace ObjectRecord

/-- A chunk lies where it was cut from its code. -/
theorem getElem?_chunksFrom {capacity fuel address : Nat} {code : List UInt8} {i : Nat}
    {chunk : Nat × List UInt8} (h : (chunksFrom capacity fuel address code)[i]? = some chunk) :
    chunk = (address + capacity * i, (code.drop (capacity * i)).take capacity) := by
  fun_induction chunksFrom capacity fuel address code generalizing i with
  | case1 => simp at h
  | case2 => simp at h
  | case3 fuel address code hne ih =>
      cases i with
      | zero => simpa using h.symm
      | succ i =>
          rw [ih (by simpa using h), List.drop_drop, Nat.mul_succ]
          congr 1
          · omega
          · congr 2
            omega

/-- **Chunks follow one another** at a distance of thirty bytes, and end where their code does. -/
theorem chunk_bounds {address : Nat} {code : List UInt8} {i : Nat} {chunk : Nat × List UInt8}
    (h : (chunks address code)[i]? = some chunk) :
    chunk.1 = address + 30 * i ∧ chunk.1 + chunk.2.length ≤ address + code.length := by
  have hpacked := (isPacked_of_mem_chunks (List.mem_of_getElem? h)).1
  have hchunk := getElem?_chunksFrom h
  have hcapacity : textCapacity = 30 := rfl
  subst hchunk
  rw [List.length_take, List.length_drop] at hpacked ⊢
  rw [hcapacity] at hpacked ⊢
  dsimp only
  omega

/-- A text record ends where the code of some statement lies. -/
theorem text_stop_lt {sect : Section} {entry : Option Nat} {bound : Nat}
    (hcode : ∀ statement ∈ sect.statements, statement.address + statement.code.length < bound)
    {start : Nat} {code : List UInt8} (h : text start code ∈ ofSection sect entry) :
    start + code.length < bound := by
  obtain ⟨hpos, -⟩ := isPacked_of_text_mem_ofSection h
  -- The last byte of the record comes from a statement.
  have hlast : (start + (code.length - 1), code[code.length - 1]) ∈ Bytes.cells start code :=
    Bytes.mem_cells_iff.mpr ⟨code.length - 1, by simp, rfl⟩
  have hcell : (start + (code.length - 1), code[code.length - 1]) ∈
      textCells (ofSection sect entry) := List.mem_flatMap.mpr ⟨_, h, hlast⟩
  rw [textCells_ofSection] at hcell
  obtain ⟨statement, hmem, hin⟩ := List.mem_flatMap.mp hcell
  unfold Statement.cells at hin
  split at hin
  · obtain ⟨k, hbyte, haddress⟩ := Bytes.mem_cells_iff.mp hin
    have hk : k < statement.code.length := (List.getElem?_eq_some_iff.mp hbyte).1
    have hstatement := hcode statement hmem
    dsimp only at haddress
    omega
  · cases hin

end ObjectRecord

namespace Program

/-- Object code ends within memory and the bytes of the literals, whether or not it fills its
statement. -/
theorem code_stop_le {registry : Registry} {lines : List (Nat × String)} (honce : OpenedOnce lines)
    {statement : Statement} (h : statement ∈ (assembleSection registry lines).1.statements) :
    statement.address + statement.code.length ≤ memorySize + lineBytes lines := by
  have hstop := ((tile_assembleSection honce).bounds h).2
  have hlength : (assembleSection registry lines).1.length ≤ memorySize :=
    length_assembleSection_le honce
  rw [Statement.stop] at hstop
  obtain ⟨laid, hlaid, base, rfl⟩ := exists_laidOut_of_mem h
  cases hplaces : laid.placesLiterals with
  | true =>
      have hpool :=
        length_poolContents_le (layoutOf registry lines).toSection laid.address laid.stop
      have hbytes := Layout.literalBytes_addLines_le registry lines
      rw [Encoding.code_of_placesLiterals registry _ base hplaces]
      rw [← layoutOf] at hbytes
      omega
  | false =>
      have hlaidOut := Layout.laidOut_of_mem honce laid hlaid
      cases hreserves : laid.reserves with
      | true =>
          rw [Encoding.code_of_reserves _ base hlaidOut hreserves, List.length_nil]
          omega
      | false =>
          have hcode := Encoding.length_code_ofStatement (layoutOf registry lines).toSection base
            hlaidOut (by simp [hplaces]) hreserves
          rw [Encoding.length_ofStatement] at hstop
          omega

/-- No sum of 32 bits outgrows its bits on the way from a source text to its records.  The
difference of two symbols in `EQU` is not among the sums: `Layout.equatedValue` takes it modulo the
size of a word on purpose, so that it wraps around where the second symbol is the larger one. -/
structure ArithmeticFits (registry : Registry) (source : String) : Prop where
  /-- A number of an operand field can be negated. -/
  numbers : ∀ line ∈ numberedLines source, ∀ fields, LineFields.read line.2 = .ok (some fields) →
    ∀ field ∈ fields.operands, ∀ lexeme ∈ Lexeme.scan field.toList, ∀ value,
      lexeme.reading = .ok (.number value) →
        (value : Int) < 2 ^ 31 ∧ -(2 : Int) ^ 31 ≤ -(value : Int)
  /-- A number can be tripled, as `RESW` does, and counted down, as shifts do, and a statement asks
  for less than 2³² bytes. -/
  lengths : ∀ line ∈ numberedLines source, ∀ statement,
    Layout.draft registry line.1 line.2 = .ok (some statement) →
      (∀ value, .number value ∈ statement.operands →
        3 * value < 2 ^ 32 ∧ -(2 : Int) ^ 31 ≤ value - 1) ∧
      ∀ length, Layout.lengthOf registry statement = .ok length → length < 2 ^ 32
  /-- Where literals are placed, the address of the statement and the length of the pool so far are
  below 2³² together, also if the pool is then found to be too long for the memory. -/
  pools : ∀ lines ∈ (cutSections (numberedLines source)).2, ∀ before line after statement length,
    lines = before ++ line :: after →
    Layout.HasPlace registry (Layout.addLines registry {} before).1 line statement length →
      ∀ count, ((Layout.addLines registry {} before).1.placed statement length).address +
        ((((Layout.addLines registry {} before).1.pendingAt statement length).take count).map
          Layout.literalSize).sum < 2 ^ 32
  /-- Kept statements end below 2³², and so does the byte behind their first one. -/
  statements : ∀ sect ∈ (assemble registry source).sections, ∀ statement ∈ sect.statements,
    statement.stop < 2 ^ 32 ∧ statement.address + 1 < 2 ^ 32
  /-- So does every sum of the lengths of statements from the first one on. -/
  totals : ∀ sect ∈ (assemble registry source).sections, ∀ count,
    ((sect.statements.take count).map Statement.length).sum < 2 ^ 32
  /-- Each chunk of object code lies thirty bytes behind the one before it and ends below 2³². -/
  chunks : ∀ sect ∈ (assemble registry source).sections, ∀ statement ∈ sect.statements,
    ∀ i chunk, (ObjectRecord.chunks statement.address statement.code)[i]? = some chunk →
      chunk.1 = statement.address + 30 * i ∧ statement.address + 30 * i < 2 ^ 32 ∧
        chunk.1 + chunk.2.length < 2 ^ 32
  /-- Text records end below 2³². -/
  records : ∀ records ∈ (assemble registry source).objectRecords, ∀ start code,
    .text start code ∈ records → start + code.length < 2 ^ 32

section
variable {registry : Registry} {source : String}

/-- A line has no more bytes than its source. -/
theorem utf8ByteSize_of_mem_numberedLines {line : Nat × String}
    (h : line ∈ numberedLines source) : line.2.utf8ByteSize ≤ source.utf8ByteSize := by
  have hsum : line.2.utf8ByteSize ≤ lineBytes (numberedLines source) :=
    List.single_le_sum (fun _ _ => Nat.zero_le _) _ (List.mem_map_of_mem h)
  exact Nat.le_trans hsum (lineBytes_numberedLines_le source)

/-- The code of a statement ends below 2³². -/
theorem code_stop_lt (hsize : source.utf8ByteSize < 2 ^ 31) {sect : Section}
    (hsect : sect ∈ (assemble registry source).sections) {statement : Statement}
    (hmem : statement ∈ sect.statements) :
    statement.address + statement.code.length < 2 ^ 32 := by
  obtain ⟨lines, hlines, rfl⟩ := exists_lines_of_mem_sections hsect
  have hcode := code_stop_le (openedOnce_of_mem_cutSections _ lines hlines) hmem
  have hbytes := lineBytes_section_le hlines
  have hmemory : memorySize < 2 ^ 31 := by decide
  omega

/-- **No sum outgrows its bits.**  If a source text has less than 2³¹ bytes, then whatever the
registry is, all that is added up in laying out, encoding and packing it stays below 2³², also
where a literal pool does not fit into memory. -/
theorem arithmetic_fits (registry : Registry) (source : String)
    (hsize : source.utf8ByteSize < 2 ^ 31) : ArithmeticFits registry source where
  numbers := by
    intro line _ fields _ field _ lexeme hlexeme value hreading
    obtain ⟨c, rest, -, htake⟩ := Lexeme.exists_take_of_mem_scanFrom hlexeme
    have hreadable : (Token.number value).Readable :=
      Lexeme.readable_of_take (htake.symm.trans hreading)
    have hlt : value < wordSize := hreadable
    have hword : wordSize < 2 ^ 31 := by decide
    omega
  lengths := by
    intro line hline statement hdraft
    have hword : wordSize = 2 ^ 24 := rfl
    constructor
    · intro value hvalue
      have hlt := Layout.natAbs_lt_of_draft hdraft hvalue
      omega
    · intro length hlength
      have hle := Layout.lengthOf_le_of_draft hdraft hlength
      have hbytes := utf8ByteSize_of_mem_numberedLines hline
      omega
  pools := by
    intro lines hlines before line after statement length hsplit hplace count
    have hflush := Layout.address_add_pending_le hplace count
    have hbytes := lineBytes_section_le hlines
    rw [hsplit, lineBytes_append, lineBytes_cons] at hbytes
    have hmemory : memorySize < 2 ^ 31 := by decide
    omega
  statements := by
    intro sect hsect statement hmem
    obtain ⟨lines, hlines, rfl⟩ := exists_lines_of_mem_sections hsect
    have honce := openedOnce_of_mem_cutSections _ lines hlines
    have hstop := ((tile_assembleSection honce).bounds hmem).2
    have hlength : (assembleSection registry lines).1.length ≤ memorySize :=
      length_assembleSection_le honce
    have hmemory : memorySize < 2 ^ 31 := by decide
    have haddress : statement.address ≤ statement.stop := Nat.le_add_right ..
    omega
  totals := by
    intro sect hsect count
    obtain ⟨lines, hlines, rfl⟩ := exists_lines_of_mem_sections hsect
    have hsub := (List.take_sublist count (assembleSection registry lines).1.statements).map
      Statement.length
    have hle := hsub.sum_le_sum fun _ _ => Nat.zero_le _
    have htotal : (assembleSection registry lines).1.length =
        ((assembleSection registry lines).1.statements.map Statement.length).sum :=
      Statement.totalLength_eq_sum _
    have hlength : (assembleSection registry lines).1.length ≤ memorySize :=
      length_assembleSection_le (openedOnce_of_mem_cutSections _ lines hlines)
    have hmemory : memorySize < 2 ^ 32 := by decide
    omega
  chunks := by
    intro sect hsect statement hmem i chunk hchunk
    obtain ⟨haddress, hstop⟩ := ObjectRecord.chunk_bounds hchunk
    have hcode := code_stop_lt hsize hsect hmem
    omega
  records := by
    intro records hrecords start code htext
    obtain ⟨⟨sect, index⟩, hindexed, rfl⟩ := List.mem_map.mp hrecords
    exact ObjectRecord.text_stop_lt
      (fun statement => code_stop_lt hsize (List.fst_mem_of_mem_zipIdx hindexed)) htext

end

/-- A program that fills the memory before its literal is placed. -/
def lostPool : String := "P\tSTART\t0\n\tLDA\t=C'EOF'\n\tRESB\t1048573\n\tLTORG\n"

/-- The lines of `lostPool` before the one that places the literal. -/
def lostPoolLines : List (Nat × String) :=
  [(1, "P\tSTART\t0"), (2, "\tLDA\t=C'EOF'"), (3, "\tRESB\t1048573")]

theorem lostPool_facts :
    lostPool.utf8ByteSize < 2 ^ 31 ∧
    lostPoolLines ++ (4, "\tLTORG") :: [] ∈ (cutSections (numberedLines lostPool)).2 ∧
    ⟨4, .addressOverflow⟩ ∈ (assemble loadRegistry lostPool).diagnostics ∧
    ((Layout.addLines loadRegistry {} lostPoolLines).1.placed
      { line := 4, operator := .directive .ltorg } 0).address = memorySize ∧
    (Layout.addLines loadRegistry {} lostPoolLines).1.pendingAt
      { line := 4, operator := .directive .ltorg } 0 = ["=C'EOF'"] := by
  decide +kernel

theorem hasPlace_lostPool :
    Layout.HasPlace loadRegistry (Layout.addLines loadRegistry {} lostPoolLines).1 (4, "\tLTORG")
      { line := 4, operator := .directive .ltorg } 0 :=
  ⟨rfl, rfl, by decide +kernel⟩

/-- In `lostPool`, the literal is placed behind the end of memory, and still below 2³². -/
theorem arithmetic_fits_lostPool :
    ArithmeticFits loadRegistry lostPool ∧
    ⟨4, .addressOverflow⟩ ∈ (assemble loadRegistry lostPool).diagnostics ∧
    memorySize + (["=C'EOF'"].map Layout.literalSize).sum < 2 ^ 32 := by
  obtain ⟨hsize, hlines, hreported, haddress, hpending⟩ := lostPool_facts
  have hfits := arithmetic_fits loadRegistry lostPool hsize
  have hpool := hfits.pools _ hlines _ _ _ _ _ rfl hasPlace_lostPool 1
  rw [haddress, hpending] at hpool
  exact ⟨hfits, hreported, hpool⟩

end Program

end SicXe
