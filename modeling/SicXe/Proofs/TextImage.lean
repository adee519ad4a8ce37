import SicXe.ObjectRecord.Packing

/-!
# SicXe.Proofs.TextImage

What text records put into memory.

A *cell* is a byte together with its address.  Every list of object records has a list of cells,
those of its text records in order, and every statement that contributes object code has one as
well.  Packing cuts code into chunks and joins chunks to records, but the cells stay what they
were: `textCells_ofSection` says that the records of a section hold the cells of its statements,
in the order of the statements.
-/

namespace SicXe

/-! ## cells -/

namespace Bytes

/-- Bytes with their addresses, the first byte at `address`. -/
def cells : (address : Nat) → List UInt8 → List (Nat × UInt8)
  | _, [] => []
  | address, byte :: rest => (address, byte) :: cells (address + 1) rest

/-- Code behind other code lies behind it in memory. -/
theorem cells_append (address : Nat) (xs ys : List UInt8) :
    cells address (xs ++ ys) = cells address xs ++ cells (address + xs.length) ys := by
  induction xs generalizing address with
  | nil => rfl
  | cons x xs ih =>
      have hstart : address + 1 + xs.length = address + (x :: xs).length := by
        simp only [List.length_cons]; omega
      simp only [List.cons_append, cells]
      rw [ih, hstart]

/-- A cell lies as far from the first address as its byte lies behind the first byte. -/
theorem mem_cells_iff {cell : Nat × UInt8} {address : Nat} {bytes : List UInt8} :
    cell ∈ cells address bytes ↔ ∃ k, bytes[k]? = some cell.2 ∧ cell.1 = address + k := by
  induction bytes generalizing address with
  | nil => simp [cells]
  | cons byte rest ih =>
      simp only [cells, List.mem_cons]
      rw [ih]
      constructor
      · rintro (rfl | ⟨k, hk, haddr⟩)
        · exact ⟨0, rfl, rfl⟩
        · exact ⟨k + 1, by simpa using hk, by omega⟩
      · rintro ⟨k, hk, haddr⟩
        cases k with
        | zero =>
            have hbyte : byte = cell.2 := by simpa using hk
            exact Or.inl (Prod.ext haddr hbyte.symm)
        | succ k => exact Or.inr ⟨k, by simpa using hk, by omega⟩

/-- The bytes that cells hold at an address, in order: none where nothing is placed, and more
than one where cells collide. -/
def bytesAt (cells : List (Nat × UInt8)) (address : Nat) : List UInt8 :=
  (cells.filter fun cell => cell.1 = address).map Prod.snd

@[simp] theorem bytesAt_nil (address : Nat) : bytesAt [] address = [] := rfl

/-- What two lists of cells hold at an address is what each of them holds there. -/
@[simp] theorem bytesAt_append (xs ys : List (Nat × UInt8)) (address : Nat) :
    bytesAt (xs ++ ys) address = bytesAt xs address ++ bytesAt ys address := by
  simp [bytesAt]

/-- No byte is at an address that no cell has. -/
theorem bytesAt_eq_nil {cells : List (Nat × UInt8)} {address : Nat}
    (h : ∀ cell ∈ cells, cell.1 ≠ address) : bytesAt cells address = [] := by
  simp only [bytesAt, List.map_eq_nil_iff, List.filter_eq_nil_iff, decide_eq_true_eq]
  exact h

/-- Bytes in a row hold one byte at each address from the first to the last. -/
theorem bytesAt_cells (start : Nat) (bytes : List UInt8) (k : Nat) :
    bytesAt (cells start bytes) (start + k) = bytes[k]?.toList := by
  induction bytes generalizing start k with
  | nil => rfl
  | cons byte rest ih =>
      have hcons : cells start (byte :: rest) = [(start, byte)] ++ cells (start + 1) rest := rfl
      rw [hcons, bytesAt_append]
      cases k with
      | zero =>
          have hrest : bytesAt (cells (start + 1) rest) (start + 0) = [] := by
            apply bytesAt_eq_nil
            intro cell hcell
            obtain ⟨k, -, haddr⟩ := mem_cells_iff.mp hcell
            omega
          rw [hrest]
          simp [bytesAt]
      | succ k =>
          have hfirst : bytesAt [(start, byte)] (start + (k + 1)) = [] := by
            apply bytesAt_eq_nil
            intro cell hcell
            rw [List.mem_singleton.mp hcell]
            show start ≠ start + (k + 1)
            omega
          have haddr : start + (k + 1) = start + 1 + k := by omega
          rw [hfirst, List.nil_append, haddr, ih, List.getElem?_cons_succ]

end Bytes

/-- The cells a statement contributes to the text records. -/
def Statement.cells (statement : Statement) : List (Nat × UInt8) :=
  if statement.contribution = some .text then Bytes.cells statement.address statement.code else []

/-- All code of a statement reaches memory, if the statement goes into text records. -/
theorem Statement.cells_eq {statement : Statement}
    (h : statement.code ≠ [] → statement.contribution = some .text) :
    statement.cells = Bytes.cells statement.address statement.code := by
  by_cases hcode : statement.code = []
  · rw [hcode, Statement.cells, hcode]
    split <;> rfl
  · exact if_pos (h hcode)

namespace ObjectRecord

/-- The cells of a record; only text records have any. -/
def cells : ObjectRecord → List (Nat × UInt8)
  | text start code => Bytes.cells start code
  | _ => []

/-- The cells of records, in order. -/
def textCells (records : List ObjectRecord) : List (Nat × UInt8) :=
  records.flatMap cells

/-- The bytes that records put at an address, in order. -/
def bytesAt (records : List ObjectRecord) (address : Nat) : List UInt8 :=
  Bytes.bytesAt (textCells records) address

@[simp] theorem textCells_nil : textCells [] = [] := rfl

@[simp] theorem textCells_cons (record : ObjectRecord) (records : List ObjectRecord) :
    textCells (record :: records) = record.cells ++ textCells records := rfl

@[simp] theorem textCells_append (xs ys : List ObjectRecord) :
    textCells (xs ++ ys) = textCells xs ++ textCells ys := by
  simp [textCells]

/-! ## chunks -/

/-- Cutting code into chunks moves no byte. -/
theorem cells_chunksFrom (capacity : Nat) (hpos : 0 < capacity) (fuel address : Nat)
    (code : List UInt8) (hfuel : code.length ≤ fuel) :
    (chunksFrom capacity fuel address code).flatMap (fun chunk => Bytes.cells chunk.1 chunk.2) =
      Bytes.cells address code := by
  induction fuel generalizing address code with
  | zero =>
      have hnil : code = [] := List.length_eq_zero_iff.mp (by omega)
      subst hnil
      rfl
  | succ fuel ih =>
      cases code with
      | nil => rfl
      | cons byte rest =>
          have hdrop : ((byte :: rest).drop capacity).length ≤ fuel := by
            rw [List.length_drop]; omega
          simp only [chunksFrom, List.flatMap_cons]
          rw [ih (address + capacity) _ hdrop]
          by_cases hlong : capacity ≤ (byte :: rest).length
          · have htake : ((byte :: rest).take capacity).length = capacity :=
              List.length_take_of_le hlong
            have hsplit := Bytes.cells_append address ((byte :: rest).take capacity)
              ((byte :: rest).drop capacity)
            rw [List.take_append_drop, htake] at hsplit
            exact hsplit.symm
          · have hle : (byte :: rest).length ≤ capacity := by omega
            rw [List.take_of_length_le hle, List.drop_of_length_le hle]
            exact List.append_nil _

/-- Cutting code into chunks moves no byte of it. -/
theorem cells_chunks (address : Nat) (code : List UInt8) :
    (chunks address code).flatMap (fun chunk => Bytes.cells chunk.1 chunk.2) =
      Bytes.cells address code :=
  cells_chunksFrom textCapacity (by decide) code.length address code (Nat.le_refl _)

/-! ## packing -/

/- At every point of packing, the cells of the records that are complete, followed by those of
the text record in hand, are the cells pushed so far.  Each lemma below says of one step that it
adds the cells of what it pushes behind those in hand. -/

/-- A chunk goes into the open record or starts the next one; either way it is put down behind what
was there, and nothing is lost. -/
theorem textCells_pushChunk (current : OpenText) (chunk : Nat × List UInt8) :
    textCells (pushChunk current chunk).1 ++ textCells (close (pushChunk current chunk).2) =
      textCells (close current) ++ Bytes.cells chunk.1 chunk.2 := by
  cases current with
  | none => simp [pushChunk, close, cells]
  | some text =>
      obtain ⟨start, code⟩ := text
      by_cases hjoins : joins start code chunk
      · have hend : start + code.length = chunk.1 := by
          simp only [joins, Bool.and_eq_true, decide_eq_true_eq] at hjoins
          exact hjoins.1
        simp [pushChunk, hjoins, close, cells, Bytes.cells_append, hend]
      · simp [pushChunk, hjoins, close, cells]

/-- The same for the chunks of a statement, one after the other. -/
theorem textCells_pushChunks (current : OpenText) (chunks : List (Nat × List UInt8)) :
    textCells (pushChunks current chunks).1 ++ textCells (close (pushChunks current chunks).2) =
      textCells (close current) ++ chunks.flatMap fun chunk => Bytes.cells chunk.1 chunk.2 := by
  induction chunks generalizing current with
  | nil => simp [pushChunks]
  | cons chunk rest ih =>
      simp only [pushChunks, textCells_append, List.flatMap_cons]
      rw [List.append_assoc, ih, ← List.append_assoc, textCells_pushChunk, List.append_assoc]

/-- **One statement** adds its own cells behind those of the open record, whether it closes the
record or not. -/
theorem textCells_pushStatement (length : Nat) (current : OpenText) (statement : Statement) :
    textCells (pushStatement length current statement).1 ++
        textCells (close (pushStatement length current statement).2) =
      textCells (close current) ++ statement.cells := by
  unfold pushStatement
  split
  · next h => simp [Statement.cells, h, close, cells]
  · next h => simp [Statement.cells, h, close, cells]
  · next h => simp [Statement.cells, h, close, cells]
  · split
    · next h =>
        have hcells : statement.cells = Bytes.cells statement.address statement.code :=
          if_pos h.1
        split
        · dsimp only
          rw [textCells_append, List.append_assoc, textCells_pushChunks, cells_chunks, hcells]
          rfl
        · rw [textCells_pushChunks, cells_chunks, hcells]
    · next h =>
        have hcells : statement.cells = [] := by
          unfold Statement.cells
          split
          · next htext =>
              have hcode : statement.code = [] :=
                Decidable.byContradiction fun hne => h ⟨htext, hne⟩
              rw [hcode]
              rfl
          · rfl
        rw [hcells]
        split <;> simp [close]

/-- **All statements**: the records hold what was open, and behind it the cells of each statement in
turn. -/
theorem textCells_pushStatements (length : Nat) (current : OpenText)
    (statements : List Statement) :
    textCells (pushStatements length current statements) =
      textCells (close current) ++ statements.flatMap Statement.cells := by
  induction statements generalizing current with
  | nil => simp [pushStatements]
  | cons statement rest ih =>
      simp only [pushStatements, textCells_append, List.flatMap_cons]
      rw [ih, ← List.append_assoc, textCells_pushStatement, List.append_assoc]

/-- **Packing keeps the image**: the text records of a section hold the cells of its statements,
one statement after another. -/
theorem textCells_ofSection (sect : Section) (entry : Option Nat) :
    textCells (ofSection sect entry) = sect.statements.flatMap Statement.cells := by
  have hmods : textCells (sect.relocations.map .modification) = [] := by
    simp [textCells, cells]
  simp [ofSection, textCells_pushStatements, hmods, close, cells]

end ObjectRecord

end SicXe
