import Mathlib.Data.List.Chain
import SicXe.Proofs.RecordOrder

/-!
# SicXe.Proofs.RecordBreaks

Where one text record ends and the next one begins.

Each chunk of code is numbered by the statements before it that force a break (`chunksOf`).  A text
record holds a run of chunks, and `runsFrom` is the greedy way to cut chunks into runs: a chunk goes
into the run before it unless a break is forced between them, there is a gap, or the record is full.
The text records of a section are the runs of its chunks (`filter_isText_pushStatements`), so they
break where they must and nowhere else (`text_records_break_where_they_must`).
-/

namespace SicXe

namespace Statement

/-- The code that a statement puts into text records. -/
def textCode (statement : Statement) : List UInt8 :=
  if statement.contribution = some .text then statement.code else []

/-- Whether a text record that was begun before a statement has to end before it: the statement adds
a header or symbols, it takes room without code, or it is a literal pool with code. -/
def forcesBreak (statement : Statement) : Bool :=
  statement.contribution.any (· != .text) ||
    (statement.textCode = [] && 0 < statement.length) ||
    (statement.textCode ≠ [] && statement.directive? = some .ltorg)

/-- A statement has a record of its own exactly if it contributes something other than text. -/
theorem mark?_eq_none_iff {length : Nat} {statement : Statement} :
    statement.mark? length = none ↔ statement.contribution.any (· != .text) = false := by
  unfold mark?
  cases statement.contribution with
  | none => simp
  | some own => cases own <;> simp

end Statement

namespace ObjectRecord

/-- Whether a record holds code. -/
def isText : ObjectRecord → Bool
  | text _ _ => true
  | _ => false

/-! ## chunks and runs of chunks -/

/-- A chunk of code. -/
structure Chunk where
  /-- How many breaks are forced before it. -/
  breaks : Nat
  /-- The address of its first byte. -/
  address : Nat
  bytes : List UInt8
  deriving Repr, DecidableEq

/-- The bytes of a chunk, each with its address. -/
def Chunk.cells (chunk : Chunk) : List (Nat × UInt8) :=
  Bytes.cells chunk.address chunk.bytes

/-- How many breaks are forced once a statement has begun. -/
def breaksAt (breaks : Nat) (statement : Statement) : Nat :=
  if statement.forcesBreak then breaks + 1 else breaks

/-- Pieces of code as chunks with one number. -/
def numbered (breaks : Nat) (pieces : List (Nat × List UInt8)) : List Chunk :=
  pieces.map fun piece => ⟨breaks, piece.1, piece.2⟩

/-- The chunks of statements, in their order; `breaks` are forced before the first statement. -/
def chunksOf : (breaks : Nat) → List Statement → List Chunk
  | _, [] => []
  | breaks, statement :: rest =>
    numbered (breaksAt breaks statement) (chunks statement.address statement.textCode) ++
      chunksOf (breaksAt breaks statement) rest

theorem le_breaks_of_mem_numbered_append {breaks : Nat} {pieces : List (Nat × List UInt8)}
    {later : List Chunk} (h : ∀ chunk ∈ later, breaks ≤ chunk.breaks) :
    ∀ chunk ∈ numbered breaks pieces ++ later, breaks ≤ chunk.breaks := by
  intro chunk hmem
  rcases List.mem_append.mp hmem with hown | hlater
  · obtain ⟨_, -, rfl⟩ := List.mem_map.mp hown
    exact Nat.le_refl _
  · exact h chunk hlater

/-- Breaks are counted upwards: no chunk has fewer before it than the count starts at. -/
theorem le_breaks_of_mem_chunksOf {breaks : Nat} {statements : List Statement} :
    ∀ chunk ∈ chunksOf breaks statements, breaks ≤ chunk.breaks := by
  induction statements generalizing breaks with
  | nil => simp [chunksOf]
  | cons statement rest ih =>
      have hle : breaks ≤ breaksAt breaks statement := by
        unfold breaksAt
        split <;> omega
      intro chunk hmem
      exact Nat.le_trans hle (le_breaks_of_mem_numbered_append ih chunk hmem)

/-- Chunks that stand in one text record; there is at least one. -/
structure Run where
  first : Chunk
  more : List Chunk
  deriving Repr, DecidableEq

namespace Run

/-- The chunks of a run. -/
def chunks (run : Run) : List Chunk :=
  run.first :: run.more

/-- The last chunk of a run. -/
def last (run : Run) : Chunk :=
  run.more.getLastD run.first

/-- The code of a run. -/
def code (run : Run) : List UInt8 :=
  run.chunks.flatMap Chunk.bytes

/-- The text record of a run. -/
def record (run : Run) : ObjectRecord :=
  .text run.first.address run.code

/-- The run `next` has a record of its own for a reason: a break is forced before it, it does not
follow without a gap, or there is no room for its first chunk. -/
def EndsBefore (run next : Run) : Prop :=
  run.last.breaks = next.first.breaks →
    next.first.address ≠ run.first.address + run.code.length ∨
      30 < run.code.length + next.first.bytes.length

/-- Whether a chunk can go on a run. -/
def takes (run : Run) (chunk : Chunk) : Bool :=
  run.last.breaks = chunk.breaks && joins run.first.address run.code (chunk.address, chunk.bytes)

/-- A run with one more chunk. -/
def extend (run : Run) (chunk : Chunk) : Run :=
  { run with more := run.more ++ [chunk] }

@[simp] theorem first_extend (run : Run) (chunk : Chunk) :
    (run.extend chunk).first = run.first := rfl

@[simp] theorem chunks_extend (run : Run) (chunk : Chunk) :
    (run.extend chunk).chunks = run.chunks ++ [chunk] := rfl

@[simp] theorem last_extend (run : Run) (chunk : Chunk) : (run.extend chunk).last = chunk := by
  simp [last, extend, List.getLastD_eq_getLast?]

@[simp] theorem code_extend (run : Run) (chunk : Chunk) :
    (run.extend chunk).code = run.code ++ chunk.bytes := by
  simp [code]

theorem last_mem_chunks (run : Run) : run.last ∈ run.chunks := by
  unfold last chunks
  cases h : run.more.getLast? with
  | none => simp [List.getLastD_eq_getLast?, h]
  | some chunk =>
      simp only [List.getLastD_eq_getLast?, h, Option.getD_some]
      exact List.mem_cons_of_mem _ (List.mem_of_getLast? h)

/-- A run ends before a chunk that it does not take. -/
theorem endsBefore_of_takes {run : Run} {chunk : Chunk} (h : run.takes chunk = false)
    (more : List Chunk) : run.EndsBefore ⟨chunk, more⟩ := by
  intro hbreaks
  dsimp only at hbreaks ⊢
  have hjoins : ¬(run.first.address + run.code.length = chunk.address ∧
      run.code.length + chunk.bytes.length ≤ textCapacity) := by
    simpa [takes, hbreaks, joins] using h
  rw [textCapacity] at hjoins
  omega

/-- What makes chunks fit to be one text record: no break is forced among them, the record holds
their bytes at their addresses, and it is not empty and not too long. -/
structure Fits (run : Run) : Prop where
  unbroken : ∀ chunk ∈ run.chunks, chunk.breaks = run.first.breaks
  placed : run.record.cells = run.chunks.flatMap Chunk.cells
  packed : run.record.IsPacked

/-- A chunk that fits into a record is a run. -/
theorem Fits.single {chunk : Chunk} (h : IsPacked (.text chunk.address chunk.bytes)) :
    Fits ⟨chunk, []⟩ where
  unbroken := by simp [chunks]
  placed := by simp [record, code, chunks, cells, Chunk.cells]
  packed := by simpa [record, code, chunks] using h

/-- A run with a chunk that it takes is a run again. -/
theorem Fits.extend {run : Run} {chunk : Chunk} (h : run.Fits) (htakes : run.takes chunk = true) :
    (run.extend chunk).Fits := by
  simp only [takes, joins, Bool.and_eq_true, decide_eq_true_eq] at htakes
  obtain ⟨hbreaks, hnext, hroom⟩ := htakes
  have hpacked : 0 < run.code.length ∧ run.code.length ≤ textCapacity := h.packed
  constructor
  · intro other hmem
    rw [chunks_extend] at hmem
    rcases List.mem_append.mp hmem with hold | hnew
    · exact h.unbroken other hold
    · rw [List.mem_singleton.mp hnew, first_extend, ← hbreaks]
      exact h.unbroken _ run.last_mem_chunks
  · have hplaced : Bytes.cells run.first.address run.code = run.chunks.flatMap Chunk.cells :=
      h.placed
    rw [record, cells, code_extend, first_extend, Bytes.cells_append, hplaced, hnext,
      chunks_extend, List.flatMap_append, List.flatMap_singleton, Chunk.cells]
  · simp only [record, IsPacked, code_extend, List.length_append]
    omega

end Run

/-! ## the greedy cut -/

/-- Chunks cut into runs behind a run that was begun. -/
def runsFrom : Run → List Chunk → List Run
  | run, [] => [run]
  | run, chunk :: rest =>
    if run.takes chunk then runsFrom (run.extend chunk) rest
    else run :: runsFrom ⟨chunk, []⟩ rest

/-- Chunks cut into runs, the first of which may have been begun. -/
def runs : Option Run → List Chunk → List Run
  | some run, chunks => runsFrom run chunks
  | none, [] => []
  | none, chunk :: rest => runsFrom ⟨chunk, []⟩ rest

/-- Runs hold the chunks in their order, each of them once. -/
theorem flatMap_chunks_runsFrom (run : Run) (chunks : List Chunk) :
    (runsFrom run chunks).flatMap Run.chunks = run.chunks ++ chunks := by
  fun_induction runsFrom run chunks with
  | case1 run => simp
  | case2 run chunk rest htakes ih => simp [ih]
  | case3 run chunk rest htakes ih => simp [ih, Run.chunks]

/-- Each run fits into a record, if the first one and every chunk does. -/
theorem fits_of_mem_runsFrom {run : Run} {chunks : List Chunk} (hrun : run.Fits)
    (hchunks : ∀ chunk ∈ chunks, IsPacked (.text chunk.address chunk.bytes)) :
    ∀ other ∈ runsFrom run chunks, other.Fits := by
  fun_induction runsFrom run chunks with
  | case1 run => simpa using hrun
  | case2 run chunk rest htakes ih =>
      exact ih (hrun.extend htakes) fun other hmem => hchunks other (List.mem_cons_of_mem _ hmem)
  | case3 run chunk rest htakes ih =>
      have hlater := ih (.single (hchunks chunk List.mem_cons_self)) fun other hmem =>
        hchunks other (List.mem_cons_of_mem _ hmem)
      exact List.forall_mem_cons.mpr ⟨hrun, hlater⟩

/-- The run that was begun comes first. -/
theorem exists_runsFrom_eq (run : Run) (chunks : List Chunk) :
    ∃ more rest, runsFrom run chunks = ⟨run.first, more⟩ :: rest := by
  fun_induction runsFrom run chunks with
  | case1 run => exact ⟨run.more, [], rfl⟩
  | case2 run chunk rest htakes ih => exact ih
  | case3 run chunk rest htakes ih => exact ⟨run.more, _, rfl⟩

/-- A run ends only where the next chunk cannot go on it. -/
theorem isChain_runsFrom (run : Run) (chunks : List Chunk) :
    (runsFrom run chunks).IsChain Run.EndsBefore := by
  fun_induction runsFrom run chunks with
  | case1 run => exact .singleton run
  | case2 run chunk rest htakes ih => exact ih
  | case3 run chunk rest htakes ih =>
      obtain ⟨more, later, heq⟩ := exists_runsFrom_eq ⟨chunk, []⟩ rest
      rw [heq] at ih ⊢
      exact .cons_cons (Run.endsBefore_of_takes (by simpa using htakes) more) ih

/-- Behind a forced break the cut starts anew. -/
theorem runs_of_break {current : Option Run} {chunks : List Chunk}
    (h : ∀ run ∈ current, ∀ chunk ∈ chunks, run.last.breaks ≠ chunk.breaks) :
    runs current chunks = current.toList ++ runs none chunks := by
  cases current with
  | none => rfl
  | some run =>
      cases chunks with
      | nil => rfl
      | cons chunk rest =>
          have htakes : run.takes chunk = false := by
            simp [Run.takes, h run rfl chunk List.mem_cons_self]
          simp [runs, runsFrom, htakes]

/-! ## text records are runs -/

/-- The text record in hand, of a run that was begun. -/
def openText (current : Option Run) : OpenText :=
  current.map fun run => (run.first.address, run.code)

/-- Closing the open record gives the record of its run. -/
theorem close_openText (current : Option Run) :
    close (openText current) = current.toList.map Run.record := by
  cases current <;> rfl

/-- What has been put into records so far, told by runs: those that are complete and the one that
was begun, which has no break behind it. -/
structure Cut (breaks : Nat) (current : Option Run) (chunks : List Chunk) (done : List Run)
    (now : Option Run) : Prop where
  unbroken : ∀ run ∈ now, run.last.breaks = breaks
  runs_append : ∀ later, (∀ chunk ∈ later, breaks ≤ chunk.breaks) →
    runs current (chunks ++ later) = done ++ runs now later

/-- **One chunk** is put where the runs have it: in the run that is open, or in the next one. -/
theorem exists_cut_pushChunk {breaks : Nat} {current : Option Run}
    (hcurrent : ∀ run ∈ current, run.last.breaks = breaks) (chunk : Nat × List UInt8) :
    ∃ done now, pushChunk (openText current) chunk = (done.map Run.record, openText now) ∧
      Cut breaks current [⟨breaks, chunk.1, chunk.2⟩] done now := by
  cases current with
  | none =>
      refine ⟨[], some ⟨⟨breaks, chunk.1, chunk.2⟩, []⟩, ?_, ?_, ?_⟩
      · simp [openText, pushChunk, Run.code, Run.chunks]
      · simp [Run.last]
      · intro later _
        rfl
  | some run =>
      have hbreaks : run.last.breaks = breaks := hcurrent run rfl
      by_cases hjoins : joins run.first.address run.code chunk = true
      · refine ⟨[], some (run.extend ⟨breaks, chunk.1, chunk.2⟩), ?_, ?_, ?_⟩
        · simp [openText, pushChunk, hjoins]
        · simp
        · intro later _
          simp [runs, runsFrom, Run.takes, hbreaks, hjoins]
      · refine ⟨[run], some ⟨⟨breaks, chunk.1, chunk.2⟩, []⟩, ?_, ?_, ?_⟩
        · simp only [openText, Option.map_some, pushChunk, hjoins]
          simp [Run.record, Run.code, Run.chunks]
        · simp [Run.last]
        · intro later _
          simp [runs, runsFrom, Run.takes, hbreaks, hjoins]

/-- The same for the chunks of a statement, between which there is no break. -/
theorem exists_cut_pushChunks {breaks : Nat} {current : Option Run}
    (hcurrent : ∀ run ∈ current, run.last.breaks = breaks) (chunks : List (Nat × List UInt8)) :
    ∃ done now, pushChunks (openText current) chunks = (done.map Run.record, openText now) ∧
      Cut breaks current (numbered breaks chunks) done now := by
  induction chunks generalizing current with
  | nil => exact ⟨[], current, rfl, hcurrent, fun later _ => rfl⟩
  | cons chunk rest ih =>
      obtain ⟨done, now, hpushed, hnow, hruns⟩ := exists_cut_pushChunk hcurrent chunk
      obtain ⟨more, last, hrest, hlast, hlater⟩ := ih hnow
      refine ⟨done ++ more, last, ?_, hlast, ?_⟩
      · simp only [pushChunks, hpushed, hrest, List.map_append]
      · intro later hge
        have hfirst := hruns (numbered breaks rest ++ later) (le_breaks_of_mem_numbered_append hge)
        rw [hlater later hge] at hfirst
        rw [List.append_assoc]
        exact hfirst

/-- **What a statement does to the records**: if it forces a break, the record in hand is closed and
the statement's own record follows; then its chunks are pushed. -/
theorem pushStatement_eq (length : Nat) (current : OpenText) (statement : Statement) :
    pushStatement length current statement =
      if statement.forcesBreak then
        let pushed := pushChunks none (chunks statement.address statement.textCode)
        (close current ++ (statement.mark? length).toList ++ pushed.1, pushed.2)
      else pushChunks current (chunks statement.address statement.textCode) := by
  have hnil : ∀ hand address, pushChunks hand (chunks address []) = ([], hand) := fun _ _ => rfl
  unfold pushStatement
  split
  · next hheader => simp [Statement.forcesBreak, Statement.textCode, Statement.mark?, hheader, hnil]
  · next hdefine => simp [Statement.forcesBreak, Statement.textCode, Statement.mark?, hdefine, hnil]
  · next hrefer => simp [Statement.forcesBreak, Statement.textCode, Statement.mark?, hrefer, hnil]
  · next hheader hdefine hrefer =>
      have hmark : statement.mark? length = none := by
        unfold Statement.mark?
        split <;> simp_all
      have hplain := Statement.mark?_eq_none_iff.mp hmark
      by_cases hcode : statement.contribution = some .text ∧ statement.code ≠ []
      · have htext : statement.textCode = statement.code := if_pos hcode.1
        simp [Statement.forcesBreak, hcode, htext, hmark]
      · have htext : statement.textCode = [] := by
          unfold Statement.textCode
          split
          · next hown => exact Decidable.byContradiction fun hne => hcode ⟨hown, hne⟩
          · rfl
        simp [Statement.forcesBreak, hplain, hcode, htext, hmark, hnil]

theorem filter_isText_mark? (length : Nat) (statement : Statement) :
    (statement.mark? length).toList.filter isText = [] := by
  unfold Statement.mark?
  split <;> rfl

theorem filter_isText_record (runs : List Run) :
    (runs.map Run.record).filter isText = runs.map Run.record :=
  List.filter_eq_self.mpr fun _ hmem => by
    obtain ⟨run, -, rfl⟩ := List.mem_map.mp hmem
    rfl

/-- A statement puts its chunks into runs, behind a break if it forces one. -/
theorem exists_cut_pushStatement {breaks : Nat} {current : Option Run}
    (hcurrent : ∀ run ∈ current, run.last.breaks = breaks) (length : Nat) (statement : Statement) :
    ∃ done now,
      (pushStatement length (openText current) statement).1.filter isText = done.map Run.record ∧
      (pushStatement length (openText current) statement).2 = openText now ∧
      Cut (breaksAt breaks statement) current
        (numbered (breaksAt breaks statement) (chunks statement.address statement.textCode))
        done now := by
  rw [pushStatement_eq]
  unfold breaksAt
  split
  · next hbreak =>
      have hnone : ∀ run ∈ (none : Option Run), run.last.breaks = breaks + 1 := by simp
      obtain ⟨done, now, hpushed, hnow, hruns⟩ :=
        exists_cut_pushChunks hnone (chunks statement.address statement.textCode)
      rw [show openText none = none from rfl] at hpushed
      refine ⟨current.toList ++ done, now, ?_, ?_, hnow, ?_⟩
      · simp only [hpushed, List.filter_append, filter_isText_mark?, close_openText,
          filter_isText_record, List.append_nil, List.map_append]
      · simp only [hpushed]
      · intro later hge
        rw [runs_of_break, hruns later hge, List.append_assoc]
        intro run hrun chunk hmem
        have hearly := hcurrent run hrun
        have hlate := le_breaks_of_mem_numbered_append hge chunk hmem
        omega
  · next hbreak =>
      obtain ⟨done, now, hpushed, hcut⟩ :=
        exists_cut_pushChunks hcurrent (chunks statement.address statement.textCode)
      exact ⟨done, now, by rw [hpushed, filter_isText_record], by rw [hpushed], hcut⟩

/-- **Text records are runs**: the text records that statements are put into are the runs of their
chunks. -/
theorem filter_isText_pushStatements (length : Nat) {breaks : Nat} {current : Option Run}
    (hcurrent : ∀ run ∈ current, run.last.breaks = breaks) (statements : List Statement) :
    (pushStatements length (openText current) statements).filter isText =
      (runs current (chunksOf breaks statements)).map Run.record := by
  induction statements generalizing breaks current with
  | nil =>
      rw [pushStatements, close_openText, filter_isText_record]
      cases current <;> rfl
  | cons statement rest ih =>
      obtain ⟨done, now, hdone, hhand, hnow, hruns⟩ :=
        exists_cut_pushStatement hcurrent length statement
      simp only [pushStatements, chunksOf, List.filter_append]
      rw [hdone, hhand, ih hnow, hruns _ le_breaks_of_mem_chunksOf, List.map_append]

/-! ## sections -/

/-- Every chunk of a statement fits into a text record. -/
theorem isPacked_of_mem_chunksOf (breaks : Nat) (statements : List Statement) :
    ∀ chunk ∈ chunksOf breaks statements, IsPacked (.text chunk.address chunk.bytes) := by
  induction statements generalizing breaks with
  | nil => simp [chunksOf]
  | cons statement rest ih =>
      intro chunk hmem
      rcases List.mem_append.mp hmem with hown | hlater
      · obtain ⟨piece, hpiece, rfl⟩ := List.mem_map.mp hown
        exact isPacked_of_mem_chunks hpiece
      · exact ih _ chunk hlater

/-- **Text records are runs**: those of a section are the longest runs of its chunks, in order. -/
theorem filter_isText_ofSection (sect : Section) (entry : Option Nat) :
    (ofSection sect entry).filter isText =
      (runs none (chunksOf 0 sect.statements)).map Run.record := by
  have hlast : (sect.relocations.map modification ++ [endSection entry]).filter isText = [] := by
    simp [isText]
  rw [ofSection_eq, List.filter_append, hlast, List.append_nil]
  have hnone : ∀ run ∈ (none : Option Run), run.last.breaks = 0 := by simp
  exact filter_isText_pushStatements sect.length hnone sect.statements

/-- A statement without a record, code and length leaves the records as they are. -/
theorem pushStatement_idle {length : Nat} {statement : Statement}
    (hmark : statement.mark? length = none) (hcode : statement.textCode = [])
    (hlength : statement.length = 0) (current : OpenText) :
    pushStatement length current statement = ([], current) := by
  have hbreak : statement.forcesBreak = false := by
    simp [Statement.forcesBreak, Statement.mark?_eq_none_iff.mp hmark, hcode, hlength]
  simp only [pushStatement_eq, hbreak, hcode]
  rfl

/-- A statement that neither takes room nor has anything to record changes no record. -/
theorem pushStatements_idle {length : Nat} {idle : Statement}
    (hmark : idle.mark? length = none) (hcode : idle.textCode = []) (hlength : idle.length = 0)
    (current : OpenText) (before after : List Statement) :
    pushStatements length current (before ++ idle :: after) =
      pushStatements length current (before ++ after) := by
  induction before generalizing current with
  | nil => simp [pushStatements, pushStatement_idle hmark hcode hlength]
  | cons statement rest ih => simp only [List.cons_append, pushStatements, ih]

/-- **Text records break where they must.**  For every section, the chunks of its code are cut into
runs, one for each text record, in order.  No record holds bytes from both sides of a forced break,
and it holds those of its chunks, one behind the other, from 1 to 30 in all.  Where one record ends
and the next begins without a forced break between the chunks at the seam, there is a gap in the
addresses or the first chunk of the next record does not fit into the one before.  And a statement
that has no record of its own, no code and no length makes no difference to the records. -/
theorem text_records_break_where_they_must (sect : Section) (entry : Option Nat) :
    (∃ runs : List Run,
      (ofSection sect entry).filter isText = runs.map Run.record ∧
      runs.flatMap Run.chunks = chunksOf 0 sect.statements ∧
      (∀ run ∈ runs, (∀ chunk ∈ run.chunks, chunk.breaks = run.first.breaks) ∧
        run.record.cells = run.chunks.flatMap Chunk.cells ∧
        1 ≤ run.code.length ∧ run.code.length ≤ 30) ∧
      runs.IsChain Run.EndsBefore) ∧
    ∀ before idle after, sect.statements = before ++ idle :: after →
      idle.mark? sect.length = none → idle.textCode = [] → idle.length = 0 →
      ofSection { sect with statements := before ++ after } entry = ofSection sect entry := by
  constructor
  · refine ⟨runs none (chunksOf 0 sect.statements), filter_isText_ofSection sect entry, ?_⟩
    have hpacked := isPacked_of_mem_chunksOf 0 sect.statements
    cases hchunks : chunksOf 0 sect.statements with
    | nil => exact ⟨rfl, by simp [runs], .nil⟩
    | cons chunk rest =>
        rw [hchunks] at hpacked
        refine ⟨flatMap_chunks_runsFrom .., ?_, isChain_runsFrom ..⟩
        intro run hrun
        have hfits := fits_of_mem_runsFrom (.single (hpacked chunk List.mem_cons_self))
          (fun other hmem => hpacked other (List.mem_cons_of_mem _ hmem)) run hrun
        exact ⟨hfits.unbroken, hfits.placed, hfits.packed⟩
  · intro before idle after hsplit hmark hcode hlength
    rw [ofSection, ofSection, hsplit, pushStatements_idle hmark hcode hlength]

/-- A section made by hand with each reason for a record to end: the third piece of code finds its
record full, a literal pool follows, then reserved room, then imported symbols.  Its third statement
has nothing to add. -/
def everyBreak : Section where
  statements :=
    [{ line := 1, operator := .directive .start, contribution := some (.header "P" 0) },
      { line := 2, operator := .unknown "A", length := 20, code := List.replicate 20 1,
        contribution := some .text },
      { line := 3, operator := .directive .equ, address := 20 },
      { line := 4, operator := .unknown "B", address := 20, length := 10,
        code := List.replicate 10 1, contribution := some .text },
      { line := 5, operator := .unknown "C", address := 30, length := 1, code := [2],
        contribution := some .text },
      { line := 6, operator := .directive .ltorg, address := 31, length := 3, code := [3, 3, 3],
        contribution := some .text },
      { line := 7, operator := .directive .resb, address := 34, length := 4 },
      { line := 8, operator := .unknown "D", address := 38, length := 1, code := [4],
        contribution := some .text },
      { line := 9, operator := .directive .extref, address := 39,
        contribution := some (.refer ["Q"]) },
      { line := 10, operator := .unknown "E", address := 39, length := 1, code := [5],
        contribution := some .text }]
  length := 40

/-- In `everyBreak` the code on both sides of the idle statement shares a record, every other seam
has its reason, and without the idle statement the records are the same. -/
theorem text_records_break_everyBreak :
    (ofSection everyBreak none).filter isText =
      [.text 0 (List.replicate 30 1), .text 30 [2], .text 31 [3, 3, 3], .text 38 [4],
        .text 39 [5]] ∧
    (chunksOf 0 everyBreak.statements).map Chunk.breaks = [1, 1, 1, 2, 3, 4] ∧
    (∃ runs : List Run, (ofSection everyBreak none).filter isText = runs.map Run.record ∧
      runs.flatMap Run.chunks = chunksOf 0 everyBreak.statements ∧
      runs.IsChain Run.EndsBefore) ∧
    ofSection { everyBreak with statements := everyBreak.statements.eraseIdx 2 } none =
      ofSection everyBreak none := by
  obtain ⟨⟨runs, hrecords, hchunks, -, hchain⟩, hidle⟩ :=
    text_records_break_where_they_must everyBreak none
  refine ⟨by decide, by decide, ⟨runs, hrecords, hchunks, hchain⟩, ?_⟩
  exact hidle (everyBreak.statements.take 2) _ (everyBreak.statements.drop 3) rfl rfl rfl rfl

end ObjectRecord

end SicXe
