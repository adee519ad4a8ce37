import SicXe.Proofs.TextImage

/-!
# SicXe.Proofs.WholeCode

Which text record holds the code of a statement.

Packing puts a chunk behind the text record in hand or opens another with it, and from then on the
record only grows at its end.  So a chunk is never cut again, and code that makes up one chunk
stands whole in one text record (`held_ofSection`).  There is no second such record as long as the
records put no more than one byte at its first address (`filter_spans_eq_singleton`).
-/

namespace SicXe

namespace ObjectRecord

/-! ## records that hold code -/

/-- Whether a text record holds all of the `count` bytes from an address on. -/
def spans (address count : Nat) : ObjectRecord → Bool
  | text start code => start ≤ address && address + count ≤ start + code.length
  | _ => false

/-- Some record holds code at an address, whatever else it holds before and behind it. -/
def Held (address : Nat) (code : List UInt8) (records : List ObjectRecord) : Prop :=
  ∃ start before after, text start (before ++ code ++ after) ∈ records ∧
    start + before.length = address

section
variable {address : Nat} {code : List UInt8}

/-- Code is held by one of two lists of records or by the other. -/
theorem held_append {first second : List ObjectRecord} :
    Held address code (first ++ second) ↔ Held address code first ∨ Held address code second := by
  constructor
  · rintro ⟨start, before, after, hmem, hstart⟩
    rcases List.mem_append.mp hmem with hfirst | hsecond
    · exact Or.inl ⟨start, before, after, hfirst, hstart⟩
    · exact Or.inr ⟨start, before, after, hsecond, hstart⟩
  · rintro (⟨start, before, after, hmem, hstart⟩ | ⟨start, before, after, hmem, hstart⟩)
    · exact ⟨start, before, after, List.mem_append_left _ hmem, hstart⟩
    · exact ⟨start, before, after, List.mem_append_right _ hmem, hstart⟩

theorem Held.append_right {records : List ObjectRecord} (h : Held address code records)
    (more : List ObjectRecord) : Held address code (records ++ more) :=
  held_append.mpr (Or.inl h)

theorem Held.append_left {records : List ObjectRecord} (h : Held address code records)
    (more : List ObjectRecord) : Held address code (more ++ records) :=
  held_append.mpr (Or.inr h)

/-! ## packing -/

/- What the text record in hand holds is still held once another chunk, chunks or a statement have
been pushed, by a record that is complete or by the one then in hand. -/

/-- Code that the open record holds is still held when a chunk is put down. -/
theorem Held.pushChunk {current : OpenText} (h : Held address code (close current))
    (chunk : Nat × List UInt8) :
    Held address code ((pushChunk current chunk).1 ++ close (pushChunk current chunk).2) := by
  obtain ⟨start, before, after, hmem, hstart⟩ := h
  cases current with
  | none => simp [close] at hmem
  | some text =>
      obtain ⟨first, bytes⟩ := text
      simp only [close, List.mem_singleton, ObjectRecord.text.injEq] at hmem
      obtain ⟨rfl, rfl⟩ := hmem
      unfold ObjectRecord.pushChunk
      dsimp only
      split
      · exact ⟨start, before, after ++ chunk.2, by simp [close], hstart⟩
      · exact ⟨start, before, after, by simp, hstart⟩

/-- A chunk stands whole in the text record in hand after it. -/
theorem held_pushChunk (current : OpenText) (chunk : Nat × List UInt8) :
    Held chunk.1 chunk.2 (close (pushChunk current chunk).2) := by
  unfold pushChunk
  split
  · exact ⟨chunk.1, [], [], by simp [close], rfl⟩
  · next start bytes =>
      split
      · next hjoins =>
          have hend : start + bytes.length = chunk.1 := by
            simp only [joins, Bool.and_eq_true, decide_eq_true_eq] at hjoins
            exact hjoins.1
          exact ⟨start, bytes, [], by simp [close], hend⟩
      · exact ⟨chunk.1, [], [], by simp [close], rfl⟩

/-- Chunks put down one after the other keep what the open record holds. -/
theorem Held.pushChunks {current : OpenText} (h : Held address code (close current))
    (chunks : List (Nat × List UInt8)) :
    Held address code ((pushChunks current chunks).1 ++ close (pushChunks current chunks).2) := by
  induction chunks generalizing current with
  | nil => exact h
  | cons chunk rest ih =>
      simp only [ObjectRecord.pushChunks]
      rw [List.append_assoc]
      rcases held_append.mp (h.pushChunk chunk) with hdone | hopen
      · exact hdone.append_right _
      · exact (ih hopen).append_left _

/-- A statement keeps what the open record holds, even if it closes the record. -/
theorem Held.pushStatement {current : OpenText} (h : Held address code (close current))
    (length : Nat) (statement : Statement) :
    Held address code ((pushStatement length current statement).1 ++
      close (pushStatement length current statement).2) := by
  unfold ObjectRecord.pushStatement
  split
  · exact (h.append_right _).append_right _
  · exact (h.append_right _).append_right _
  · exact (h.append_right _).append_right _
  · split
    · dsimp only
      split
      · exact (h.append_right _).append_right _
      · exact h.pushChunks _
    · split
      · exact h.append_right _
      · exact h

/-- Whatever statements follow, the records hold what the open one holds. -/
theorem Held.pushStatements {current : OpenText} (h : Held address code (close current))
    (length : Nat) (statements : List Statement) :
    Held address code (pushStatements length current statements) := by
  induction statements generalizing current with
  | nil => exact h
  | cons statement rest ih =>
      simp only [ObjectRecord.pushStatements]
      rcases held_append.mp (h.pushStatement length statement) with hdone | hopen
      · exact hdone.append_right _
      · exact (ih hopen).append_left _

end

/-! ## the code of a statement -/

/-- Code that fits a text record is one chunk. -/
theorem chunks_of_le {code : List UInt8} (address : Nat) (hne : code ≠ [])
    (hle : code.length ≤ textCapacity) : chunks address code = [(address, code)] := by
  obtain ⟨byte, rest, rfl⟩ := List.exists_cons_of_ne_nil hne
  simp only [chunks, List.length_cons, chunksFrom]
  rw [List.take_of_length_le hle, List.drop_of_length_le hle]
  cases rest.length <;> rfl

/-- **One statement**: code that fits into a record is put into one record whole. -/
theorem held_pushStatement (length : Nat) (current : OpenText) {statement : Statement}
    (htext : statement.contribution = some .text) (hne : statement.code ≠ [])
    (hle : statement.code.length ≤ textCapacity) :
    Held statement.address statement.code ((pushStatement length current statement).1 ++
      close (pushStatement length current statement).2) := by
  have hself := held_pushChunk none (statement.address, statement.code)
  have hjoined := held_pushChunk current (statement.address, statement.code)
  simp only [pushStatement, htext, hne, chunks_of_le statement.address hne hle, pushChunks, ne_eq,
    not_false_eq_true, and_self, if_true]
  split
  · exact hself.append_left _
  · exact hjoined.append_left _

/-- **All statements**: code that fits into a record stands in one record of the section whole. -/
theorem held_pushStatements (length : Nat) (current : OpenText) {statements : List Statement}
    {statement : Statement} (hmem : statement ∈ statements)
    (htext : statement.contribution = some .text) (hne : statement.code ≠ [])
    (hle : statement.code.length ≤ textCapacity) :
    Held statement.address statement.code (pushStatements length current statements) := by
  induction statements generalizing current with
  | nil => simp at hmem
  | cons first rest ih =>
      simp only [pushStatements]
      rcases List.mem_cons.mp hmem with rfl | hrest
      · rcases held_append.mp (held_pushStatement length current htext hne hle) with hdone | hopen
        · exact hdone.append_right _
        · exact (hopen.pushStatements ..).append_left _
      · exact (ih _ hrest).append_left _

/-- **Short code is not cut**: the code of a statement that fits a text record stands whole in one
record of its section. -/
theorem held_ofSection {sect : Section} (entry : Option Nat) {statement : Statement}
    (hmem : statement ∈ sect.statements) (htext : statement.contribution = some .text)
    (hne : statement.code ≠ []) (hle : statement.code.length ≤ textCapacity) :
    Held statement.address statement.code (ofSection sect entry) :=
  ((held_pushStatements sect.length none hmem htext hne hle).append_right _).append_right _

/-! ## no second record -/

/-- Every record that spans some bytes puts one at the first of their addresses. -/
theorem length_filter_spans_le (records : List ObjectRecord) (address : Nat) {count : Nat}
    (hcount : 0 < count) :
    (records.filter (spans address count)).length ≤ (bytesAt records address).length := by
  induction records with
  | nil => exact Nat.le_refl _
  | cons record rest ih =>
      have hbytes : bytesAt (record :: rest) address =
          Bytes.bytesAt record.cells address ++ bytesAt rest address := by
        rw [bytesAt, textCells_cons, Bytes.bytesAt_append]
        rfl
      rw [hbytes, List.length_append]
      by_cases hspans : spans address count record = true
      · have hone : (Bytes.bytesAt record.cells address).length = 1 := by
          cases record with
          | text start code =>
              simp only [spans, Bool.and_eq_true, decide_eq_true_eq] at hspans
              obtain ⟨k, rfl⟩ := Nat.exists_eq_add_of_le hspans.1
              have hk : k < code.length := by omega
              rw [cells, Bytes.bytesAt_cells, List.getElem?_eq_getElem hk]
              rfl
          | _ => cases hspans
        rw [List.filter_cons_of_pos hspans, List.length_cons]
        omega
      · rw [List.filter_cons_of_neg hspans]
        omega

/-- **One record spans the bytes** if one does and no two bytes are put at their first address. -/
theorem filter_spans_eq_singleton {records : List ObjectRecord} {record : ObjectRecord}
    {address count : Nat} (hmem : record ∈ records) (hspans : spans address count record = true)
    (hcount : 0 < count) (hone : (bytesAt records address).length ≤ 1) :
    records.filter (spans address count) = [record] := by
  have hin : record ∈ records.filter (spans address count) := List.mem_filter.mpr ⟨hmem, hspans⟩
  have hle := length_filter_spans_le records address hcount
  have hpos := List.length_pos_of_mem hin
  obtain ⟨only, honly⟩ := List.length_eq_one_iff.mp
    (show (records.filter (spans address count)).length = 1 by omega)
  rw [honly] at hin ⊢
  rw [List.mem_singleton.mp hin]

end ObjectRecord

end SicXe
