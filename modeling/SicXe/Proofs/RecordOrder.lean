import SicXe.Proofs.WholeCode

/-!
# SicXe.Proofs.RecordOrder

In what order the records of a section stand.

`Pushed` lists what a statement can do to the records: it adds a record of its own behind the code
so far, it puts its code into text records, or it adds nothing.  From that the records of a section
are put in their places: a text record holds as much as one record may, code that fits one stands
whole in the record that comes next (`exists_record_of_split`), and a record without code stands
between the code of the statements before its own and that of the statements behind it
(`exists_split_of_isMark`).
-/

namespace SicXe

/-- The record that a statement adds by itself: a header, or the symbols it exports or imports.
`length` is that of the section. -/
def Statement.mark? (length : Nat) (statement : Statement) : Option ObjectRecord :=
  match statement.contribution with
  | some (.header name _) => some (.header name length)
  | some (.define symbols) => some (.define symbols)
  | some (.refer symbols) => some (.refer symbols)
  | _ => none

namespace ObjectRecord

/-- Whether a record is a header or a list of exported or imported symbols. -/
def isMark : ObjectRecord → Bool
  | header _ _ | define _ | refer _ => true
  | _ => false

theorem isMark_of_mark? {length : Nat} {statement : Statement} {record : ObjectRecord}
    (h : statement.mark? length = some record) : record.isMark = true := by
  unfold Statement.mark? at h
  split at h <;> cases h <;> rfl

theorem isMark_of_mem_close {current : OpenText} {record : ObjectRecord}
    (h : record ∈ close current) : record.isMark = false := by
  unfold close at h
  split at h
  · simp at h
  · rw [List.mem_singleton.mp h]
    rfl

/-! ## the outcomes of a statement -/

/-- What putting a statement into the records can come to.  Unless it has a record of its own, the
text record in hand is closed or stays in hand: `done` and `hand` are what becomes of it before any
code is pushed. -/
inductive Pushed (length : Nat) (current : OpenText) (statement : Statement) :
    List ObjectRecord × OpenText → Prop
  /-- The statement has a record of its own. -/
  | mark (record : ObjectRecord) (hmark : statement.mark? length = some record) :
      Pushed length current statement (close current ++ [record], none)
  /-- The statement has code. -/
  | code (done : List ObjectRecord) (hand : OpenText)
      (hhand : done ++ close hand = close current)
      (htext : statement.contribution = some .text) (hne : statement.code ≠ []) :
      Pushed length current statement
        (done ++ (pushChunks hand (chunks statement.address statement.code)).1,
          (pushChunks hand (chunks statement.address statement.code)).2)
  /-- The statement has neither. -/
  | nothing (done : List ObjectRecord) (hand : OpenText)
      (hhand : done ++ close hand = close current) (hcells : statement.cells = []) :
      Pushed length current statement (done, hand)

/-- **Inversion of a statement**: pushing a statement has one of the outcomes of `Pushed`. -/
theorem pushed_pushStatement (length : Nat) (current : OpenText) (statement : Statement) :
    Pushed length current statement (pushStatement length current statement) := by
  have hclosed : close current ++ close none = close current := List.append_nil _
  unfold pushStatement
  split
  · next hheader => exact .mark _ (by simp [Statement.mark?, hheader])
  · next hdefine => exact .mark _ (by simp [Statement.mark?, hdefine])
  · next hrefer => exact .mark _ (by simp [Statement.mark?, hrefer])
  · split
    · next hcode =>
        dsimp only
        split
        · exact .code (close current) none hclosed hcode.1 hcode.2
        · exact .code [] current rfl hcode.1 hcode.2
    · next hcode =>
        have hcells : statement.cells = [] := by
          unfold Statement.cells
          split
          · next htext =>
              have hnil : statement.code = [] :=
                Decidable.byContradiction fun hne => hcode ⟨htext, hne⟩
              rw [hnil]
              rfl
          · rfl
        split
        · exact .nothing (close current) none hclosed hcells
        · exact .nothing [] current rfl hcells

/-! ## the size of text records -/

/-- A text record that holds something, and no more than one record may. -/
def IsPacked : ObjectRecord → Prop
  | text _ code => 0 < code.length ∧ code.length ≤ textCapacity
  | _ => False

theorem isPacked_of_mem_chunksFrom {capacity fuel address : Nat} {code : List UInt8}
    {chunk : Nat × List UInt8} (hpos : 0 < capacity) (hle : capacity ≤ textCapacity)
    (hmem : chunk ∈ chunksFrom capacity fuel address code) :
    IsPacked (.text chunk.1 chunk.2) := by
  induction fuel generalizing address code with
  | zero => simp [chunksFrom] at hmem
  | succ fuel ih =>
      cases code with
      | nil => simp [chunksFrom] at hmem
      | cons byte rest =>
          rcases List.mem_cons.mp hmem with rfl | hlater
          · simp only [IsPacked, List.length_take, List.length_cons]
            omega
          · exact ih hlater

/-- Code is cut into chunks that fit into a record. -/
theorem isPacked_of_mem_chunks {address : Nat} {code : List UInt8} {chunk : Nat × List UInt8}
    (hmem : chunk ∈ chunks address code) : IsPacked (.text chunk.1 chunk.2) :=
  isPacked_of_mem_chunksFrom (by decide) (Nat.le_refl _) hmem

/-- A chunk joins the open record only if both fit into one, so records stay packed. -/
theorem isPacked_pushChunk {current : OpenText} {chunk : Nat × List UInt8}
    (hcurrent : ∀ record ∈ close current, record.IsPacked)
    (hchunk : IsPacked (.text chunk.1 chunk.2)) :
    ∀ record ∈ (pushChunk current chunk).1 ++ close (pushChunk current chunk).2,
      record.IsPacked := by
  cases current with
  | none => simpa [pushChunk, close] using hchunk
  | some inHand =>
      obtain ⟨start, code⟩ := inHand
      have hcode : IsPacked (.text start code) := hcurrent _ (by simp [close])
      by_cases hjoins : joins start code chunk = true
      · have hfits : code.length + chunk.2.length ≤ textCapacity := by
          simp only [joins, Bool.and_eq_true, decide_eq_true_eq] at hjoins
          exact hjoins.2
        have hgrown : IsPacked (.text start (code ++ chunk.2)) := by
          simp only [IsPacked, List.length_append] at hcode ⊢
          omega
        simpa [pushChunk, hjoins, close] using hgrown
      · simpa [pushChunk, hjoins, close] using And.intro hcode hchunk

/-- So they do over all chunks of a statement. -/
theorem isPacked_pushChunks {current : OpenText} {chunks : List (Nat × List UInt8)}
    (hcurrent : ∀ record ∈ close current, record.IsPacked)
    (hchunks : ∀ chunk ∈ chunks, IsPacked (.text chunk.1 chunk.2)) :
    ∀ record ∈ (pushChunks current chunks).1 ++ close (pushChunks current chunks).2,
      record.IsPacked := by
  induction chunks generalizing current with
  | nil => simpa [pushChunks] using hcurrent
  | cons chunk rest ih =>
      have hfirst := isPacked_pushChunk hcurrent (hchunks chunk List.mem_cons_self)
      have hrest := ih (fun record hmem => hfirst record (List.mem_append_right _ hmem))
        (fun other hother => hchunks other (List.mem_cons_of_mem _ hother))
      simp only [pushChunks, List.append_assoc]
      intro record hmem
      rcases List.mem_append.mp hmem with hdone | hlater
      · exact hfirst record (List.mem_append_left _ hdone)
      · exact hrest record hlater

/-- A statement adds text records and at most a record of its own. -/
theorem isPacked_pushStatement (length : Nat) {current : OpenText} (statement : Statement)
    (hcurrent : ∀ record ∈ close current, record.IsPacked) :
    ∀ record ∈ (pushStatement length current statement).1 ++
        close (pushStatement length current statement).2,
      record.IsPacked ∨ statement.mark? length = some record := by
  have hpushed := pushed_pushStatement length current statement
  generalize pushStatement length current statement = result at hpushed
  cases hpushed with
  | mark own hmark =>
      intro record hmem
      have hmem : record ∈ close current ∨ record = own := by simpa [close] using hmem
      rcases hmem with hdone | rfl
      · exact Or.inl (hcurrent record hdone)
      · exact Or.inr hmark
  | code done hand hhand htext hne =>
      have hin : ∀ record ∈ done ++ close hand, record.IsPacked := by rwa [hhand]
      have hchunks : ∀ chunk ∈ chunks statement.address statement.code,
          IsPacked (.text chunk.1 chunk.2) := fun chunk => isPacked_of_mem_chunks
      have hpacked := isPacked_pushChunks
        (fun record hmem => hin record (List.mem_append_right _ hmem)) hchunks
      intro record hmem
      rw [List.append_assoc] at hmem
      rcases List.mem_append.mp hmem with hdone | hnew
      · exact Or.inl (hin record (List.mem_append_left _ hdone))
      · exact Or.inl (hpacked record hnew)
  | nothing done hand hhand hcells =>
      intro record hmem
      rw [hhand] at hmem
      exact Or.inl (hcurrent record hmem)

/-- **The kinds of record**: every record that statements are put into is a text record of a fit
size, or the record of one of the statements. -/
theorem isPacked_or_mark_of_mem {length : Nat} {current : OpenText}
    {statements : List Statement} (hcurrent : ∀ record ∈ close current, record.IsPacked) :
    ∀ record ∈ pushStatements length current statements,
      record.IsPacked ∨ ∃ statement ∈ statements, statement.mark? length = some record := by
  induction statements generalizing current with
  | nil => exact fun record hmem => Or.inl (hcurrent record hmem)
  | cons statement rest ih =>
      have hstep := isPacked_pushStatement length statement hcurrent
      have hin : ∀ record ∈ close (pushStatement length current statement).2,
          record.IsPacked := by
        intro record hmem
        rcases hstep record (List.mem_append_right _ hmem) with hpacked | hmark
        · exact hpacked
        · -- The record in hand is a text record, so it is not the statement's own.
          have hself := isMark_of_mark? hmark
          rw [isMark_of_mem_close hmem] at hself
          cases hself
      simp only [pushStatements]
      intro record hmem
      rcases List.mem_append.mp hmem with hdone | hlater
      · rcases hstep record (List.mem_append_left _ hdone) with hpacked | hmark
        · exact Or.inl hpacked
        · exact Or.inr ⟨statement, List.mem_cons_self, hmark⟩
      · rcases ih hin record hlater with hpacked | ⟨other, hother, hmark⟩
        · exact Or.inl hpacked
        · exact Or.inr ⟨other, List.mem_cons_of_mem _ hother, hmark⟩

/-! ## the record in hand -/

/- The text record in hand is the next record to be complete, and until then it only grows at its
end.  So code that is put into it whole stands whole in that record. -/

/-- The text record that was in hand is the first one complete, or still in hand; either way there
may be more code at its end. -/
def Continues (start : Nat) (code : List UInt8) (pushed : List ObjectRecord × OpenText) : Prop :=
  ∃ more, (∃ rest, pushed.1 = text start (code ++ more) :: rest) ∨
    (pushed.1 = [] ∧ pushed.2 = some (start, code ++ more))

/-- Chunks go on with the open record or close it as it is. -/
theorem continues_pushChunks (start : Nat) (code : List UInt8)
    (chunks : List (Nat × List UInt8)) :
    Continues start code (pushChunks (some (start, code)) chunks) := by
  induction chunks generalizing code with
  | nil => exact ⟨[], Or.inr ⟨rfl, by simp [pushChunks]⟩⟩
  | cons chunk rest ih =>
      by_cases hjoins : joins start code chunk = true
      · obtain ⟨more, hmore⟩ := ih (code ++ chunk.2)
        exact ⟨chunk.2 ++ more, by simpa [pushChunks, pushChunk, hjoins] using hmore⟩
      · refine ⟨[], Or.inl ⟨(pushChunks (some chunk) rest).1, ?_⟩⟩
        simp [pushChunks, pushChunk, hjoins]

/-- What is in hand after closing it or not. -/
theorem hand_cases {start : Nat} {code : List UInt8} {done : List ObjectRecord} {hand : OpenText}
    (h : done ++ close hand = close (some (start, code))) :
    (done = [text start code] ∧ hand = none) ∨ (done = [] ∧ hand = some (start, code)) := by
  cases hand with
  | none => exact Or.inl ⟨by simpa [close] using h, rfl⟩
  | some inHand =>
      obtain ⟨first, bytes⟩ := inHand
      rcases List.append_eq_singleton_iff.mp h with ⟨rfl, hsame⟩ | ⟨-, hnil⟩
      · obtain ⟨rfl, rfl⟩ : first = start ∧ bytes = code := by simpa [close] using hsame
        exact Or.inr ⟨rfl, rfl⟩
      · simp [close] at hnil

/-- A statement goes on with the open record or closes it as it is. -/
theorem continues_pushStatement (length start : Nat) (code : List UInt8) (statement : Statement) :
    Continues start code (pushStatement length (some (start, code)) statement) := by
  have hpushed := pushed_pushStatement length (some (start, code)) statement
  generalize pushStatement length (some (start, code)) statement = result at hpushed
  cases hpushed with
  | mark own hmark => exact ⟨[], Or.inl ⟨[own], by simp [close]⟩⟩
  | code done hand hhand htext hne =>
      rcases hand_cases hhand with ⟨rfl, rfl⟩ | ⟨rfl, rfl⟩
      · exact ⟨[], Or.inl ⟨_, by rw [List.append_nil, List.singleton_append]⟩⟩
      · exact continues_pushChunks ..
  | nothing done hand hhand hcells =>
      rcases hand_cases hhand with ⟨rfl, rfl⟩ | ⟨rfl, rfl⟩
      · exact ⟨[], Or.inl ⟨[], by simp⟩⟩
      · exact ⟨[], Or.inr ⟨rfl, by simp⟩⟩

/-- **The record in hand comes next**, with more code at its end. -/
theorem exists_next_pushStatements (length start : Nat) (code : List UInt8)
    (statements : List Statement) :
    ∃ more rest, pushStatements length (some (start, code)) statements =
      text start (code ++ more) :: rest := by
  induction statements generalizing code with
  | nil => exact ⟨[], [], by simp [pushStatements, close]⟩
  | cons statement later ih =>
      simp only [pushStatements]
      obtain ⟨more, ⟨rest, hdone⟩ | ⟨hnone, hhand⟩⟩ :=
        continues_pushStatement length start code statement
      · rw [hdone]
        exact ⟨more, _, rfl⟩
      · obtain ⟨further, rest, hnext⟩ := ih (code ++ more)
        rw [hnone, hhand, hnext]
        exact ⟨more ++ further, rest, by simp⟩

/-! ## the code of a statement among the records -/

/-- Statements that come first are put into records and a record in hand, whatever follows. -/
theorem exists_pushed_first (length : Nat) (current : OpenText) (before : List Statement) :
    ∃ done hand, (∀ after, pushStatements length current (before ++ after) =
        done ++ pushStatements length hand after) ∧
      textCells done ++ textCells (close hand) =
        textCells (close current) ++ before.flatMap Statement.cells := by
  induction before generalizing current with
  | nil => exact ⟨[], current, fun _ => rfl, by simp⟩
  | cons statement rest ih =>
      obtain ⟨done, hand, hall, hcells⟩ := ih (pushStatement length current statement).2
      refine ⟨(pushStatement length current statement).1 ++ done, hand, ?_, ?_⟩
      · intro after
        rw [List.cons_append, pushStatements, hall, List.append_assoc]
      · rw [textCells_append, List.append_assoc, hcells, ← List.append_assoc,
          textCells_pushStatement, List.flatMap_cons, List.append_assoc]

/-- A chunk is the end of the record in hand after it, behind the code that was there. -/
theorem exists_hand_pushChunk (current : OpenText) (chunk : Nat × List UInt8) :
    ∃ start front, (pushChunk current chunk).2 = some (start, front ++ chunk.2) ∧
      start + front.length = chunk.1 ∧
      textCells (pushChunk current chunk).1 ++ Bytes.cells start front =
        textCells (close current) := by
  cases current with
  | none => exact ⟨chunk.1, [], rfl, rfl, rfl⟩
  | some inHand =>
      obtain ⟨start, code⟩ := inHand
      by_cases hjoins : joins start code chunk = true
      · have hend : start + code.length = chunk.1 := by
          simp only [joins, Bool.and_eq_true, decide_eq_true_eq] at hjoins
          exact hjoins.1
        exact ⟨start, code, by simp [pushChunk, hjoins], hend,
          by simp [pushChunk, hjoins, close, cells]⟩
      · exact ⟨chunk.1, [], by simp [pushChunk, hjoins], rfl,
          by simp [pushChunk, hjoins, close, cells, Bytes.cells]⟩

/-- Code that fits a text record is the end of the record in hand after its statement. -/
theorem exists_hand_pushStatement (length : Nat) (current : OpenText) {statement : Statement}
    (htext : statement.contribution = some .text) (hne : statement.code ≠ [])
    (hle : statement.code.length ≤ textCapacity) :
    ∃ start front,
      (pushStatement length current statement).2 = some (start, front ++ statement.code) ∧
      start + front.length = statement.address ∧
      textCells (pushStatement length current statement).1 ++ Bytes.cells start front =
        textCells (close current) := by
  have hpushed := pushed_pushStatement length current statement
  generalize pushStatement length current statement = result at hpushed
  cases hpushed with
  | mark own hmark => simp [Statement.mark?, htext] at hmark
  | code done hand hhand _ _ =>
      rw [chunks_of_le statement.address hne hle]
      obtain ⟨start, front, hin, hstart, hcells⟩ :=
        exists_hand_pushChunk hand (statement.address, statement.code)
      refine ⟨start, front, hin, hstart, ?_⟩
      simp only [pushChunks, List.append_nil]
      rw [textCells_append, List.append_assoc, hcells, ← hhand, textCells_append]
  | nothing done hand hhand hcells =>
      obtain ⟨byte, rest, hcode⟩ := List.exists_cons_of_ne_nil hne
      simp [Statement.cells, htext, hcode, Bytes.cells] at hcells

/-- **Short code stands whole in the record that comes next**: the records before it and what
precedes it in its own record hold the code of the statements before it. -/
theorem exists_record_of_split (length : Nat) (before after : List Statement)
    {statement : Statement} (htext : statement.contribution = some .text)
    (hne : statement.code ≠ []) (hle : statement.code.length ≤ textCapacity) :
    ∃ earlier start front back later,
      pushStatements length none (before ++ statement :: after) =
        earlier ++ text start (front ++ statement.code ++ back) :: later ∧
      start + front.length = statement.address ∧
      textCells earlier ++ Bytes.cells start front = before.flatMap Statement.cells := by
  obtain ⟨done, hand, hall, hfirst⟩ := exists_pushed_first length none before
  obtain ⟨start, front, hin, hstart, hcells⟩ :=
    exists_hand_pushStatement length hand htext hne hle
  obtain ⟨back, later, hnext⟩ :=
    exists_next_pushStatements length start (front ++ statement.code) after
  refine ⟨done ++ (pushStatement length hand statement).1, start, front, back, later, ?_, hstart,
    ?_⟩
  · simp only [hall, pushStatements, hin, hnext, List.append_assoc]
  · rw [textCells_append, List.append_assoc, hcells, hfirst]
    rfl

/-! ## records without code -/

theorem isMark_of_mem_pushChunks (current : OpenText) (chunks : List (Nat × List UInt8)) :
    ∀ record ∈ (pushChunks current chunks).1, record.isMark = false := by
  induction chunks generalizing current with
  | nil => simp [pushChunks]
  | cons chunk rest ih =>
      intro record hmem
      rcases List.mem_append.mp hmem with hfirst | hlater
      · unfold pushChunk at hfirst
        split at hfirst
        · simp at hfirst
        · split at hfirst
          · simp at hfirst
          · rw [List.mem_singleton.mp hfirst]
            rfl
      · exact ih _ record hlater

/-- A record without code among those that a statement completes is its own, and the last. -/
theorem mark_of_pushStatement {length : Nat} {current : OpenText} {statement : Statement}
    {earlier later : List ObjectRecord} {record : ObjectRecord}
    (h : (pushStatement length current statement).1 = earlier ++ record :: later)
    (hmark : record.isMark = true) :
    statement.mark? length = some record ∧ earlier = close current ∧ later = [] ∧
      (pushStatement length current statement).2 = none := by
  have hpushed := pushed_pushStatement length current statement
  generalize pushStatement length current statement = result at hpushed h
  have hnot : ∀ records : List ObjectRecord, (∀ other ∈ records, other.isMark = false) →
      records ≠ earlier ++ record :: later := by
    rintro records hrecords rfl
    simp [hrecords record (by simp)] at hmark
  cases hpushed with
  | mark own hown =>
      rcases List.append_eq_append_iff.mp h with ⟨more, hearlier, hmore⟩ | ⟨more, hclose, hmore⟩
      · cases more with
        | nil =>
            obtain ⟨rfl, rfl⟩ : own = record ∧ [] = later := by simpa using hmore
            exact ⟨hown, by simpa using hearlier, rfl, rfl⟩
        | cons other others => simp at hmore
      · cases more with
        | nil =>
            obtain ⟨rfl, rfl⟩ : record = own ∧ later = [] := by simpa using hmore
            exact ⟨hown, by simpa using hclose.symm, rfl, rfl⟩
        | cons other others =>
            obtain ⟨rfl, -⟩ : record = other ∧ later = others ++ [own] := by simpa using hmore
            have hin : record ∈ close current := by rw [hclose]; simp
            simp [isMark_of_mem_close hin] at hmark
  | code done hand hhand htext hne =>
      refine absurd h (hnot _ ?_)
      intro other hother
      rcases List.mem_append.mp hother with hdone | hnew
      · have hin : other ∈ close current := by
          rw [← hhand]
          exact List.mem_append_left _ hdone
        exact isMark_of_mem_close hin
      · exact isMark_of_mem_pushChunks _ _ other hnew
  | nothing done hand hhand hcells =>
      refine absurd h (hnot _ ?_)
      intro other hother
      have hin : other ∈ close current := by
        rw [← hhand]
        exact List.mem_append_left _ hother
      exact isMark_of_mem_close hin

/-- **A record without code stands in its place**: before it there is the code of the statements
before its own, and behind it that of the statements behind. -/
theorem exists_split_of_isMark {length : Nat} {current : OpenText} {statements : List Statement}
    {earlier later : List ObjectRecord} {record : ObjectRecord}
    (h : pushStatements length current statements = earlier ++ record :: later)
    (hmark : record.isMark = true) :
    ∃ before statement after, statements = before ++ statement :: after ∧
      statement.mark? length = some record ∧
      textCells earlier = textCells (close current) ++ before.flatMap Statement.cells ∧
      textCells later = after.flatMap Statement.cells := by
  induction statements generalizing current earlier with
  | nil =>
      have hin : record ∈ close current := by
        rw [show close current = earlier ++ record :: later from h]
        simp
      simp [isMark_of_mem_close hin] at hmark
  | cons statement rest ih =>
      simp only [pushStatements] at h
      -- The record is among those the statement completes, or comes later.
      have hlater : ∀ more, earlier = (pushStatement length current statement).1 ++ more →
          pushStatements length (pushStatement length current statement).2 rest =
            more ++ record :: later →
          ∃ before statement' after, statement :: rest = before ++ statement' :: after ∧
            statement'.mark? length = some record ∧
            textCells earlier = textCells (close current) ++ before.flatMap Statement.cells ∧
            textCells later = after.flatMap Statement.cells := by
        rintro more rfl hmore
        obtain ⟨before, other, after, rfl, hown, hbefore, hafter⟩ := ih hmore
        refine ⟨statement :: before, other, after, rfl, hown, ?_, hafter⟩
        rw [textCells_append, hbefore, ← List.append_assoc, textCells_pushStatement,
          List.flatMap_cons, List.append_assoc]
      rcases List.append_eq_append_iff.mp h with ⟨more, hearlier, hmore⟩ | ⟨more, hdone, hmore⟩
      · exact hlater more hearlier hmore
      · cases more with
        | nil => exact hlater [] (by simpa using hdone.symm) (by simpa using hmore.symm)
        | cons other others =>
            obtain ⟨rfl, rfl⟩ : record = other ∧ later = others ++
                pushStatements length (pushStatement length current statement).2 rest := by
              simpa using hmore
            obtain ⟨hown, rfl, rfl, hnone⟩ := mark_of_pushStatement hdone hmark
            refine ⟨[], statement, rest, rfl, hown, by simp, ?_⟩
            rw [hnone, List.nil_append, textCells_pushStatements]
            rfl

/-! ## sections -/

/-- The records of a section are those of its statements, then the modifications, then the end. -/
theorem ofSection_eq (sect : Section) (entry : Option Nat) :
    ofSection sect entry = pushStatements sect.length none sect.statements ++
      (sect.relocations.map modification ++ [endSection entry]) := by
  rw [ofSection, List.append_assoc]

/-- The records behind the statements of a section hold no code. -/
theorem of_mem_last {relocations : List Relocation} {entry : Option Nat} {record : ObjectRecord}
    (h : record ∈ relocations.map modification ++ [endSection entry]) :
    record.isMark = false ∧ record.cells = [] := by
  rcases List.mem_append.mp h with hmodification | hend
  · obtain ⟨relocation, -, rfl⟩ := List.mem_map.mp hmodification
    exact ⟨rfl, rfl⟩
  · rw [List.mem_singleton.mp hend]
    exact ⟨rfl, rfl⟩

theorem textCells_last (relocations : List Relocation) (entry : Option Nat) :
    textCells (relocations.map modification ++ [endSection entry]) = [] :=
  List.flatMap_eq_nil_iff.mpr fun _ hmem => (of_mem_last hmem).2

/-- Every text record of a section holds from one to thirty bytes. -/
theorem isPacked_of_text_mem_ofSection {sect : Section} {entry : Option Nat} {start : Nat}
    {code : List UInt8} (h : text start code ∈ ofSection sect entry) :
    IsPacked (text start code) := by
  rw [ofSection_eq] at h
  rcases List.mem_append.mp h with hpushed | hlast
  · rcases isPacked_or_mark_of_mem (by simp [close]) _ hpushed with hpacked | ⟨statement, -, hmark⟩
    · exact hpacked
    · cases isMark_of_mark? hmark
  · simp at hlast

/-- **A mark among the records** belongs to a statement, and the text before and behind it is that
of the statements before and behind. -/
theorem exists_split_ofSection {sect : Section} {entry : Option Nat}
    {earlier later : List ObjectRecord} {record : ObjectRecord}
    (h : ofSection sect entry = earlier ++ record :: later) (hmark : record.isMark = true) :
    ∃ before statement after, sect.statements = before ++ statement :: after ∧
      statement.mark? sect.length = some record ∧
      textCells earlier = before.flatMap Statement.cells ∧
      textCells later = after.flatMap Statement.cells := by
  have hnot : record ∉ sect.relocations.map modification ++ [endSection entry] := by
    intro hmem
    simp [(of_mem_last hmem).1] at hmark
  rw [ofSection_eq] at h
  rcases List.append_eq_append_iff.mp h with ⟨more, -, hmore⟩ | ⟨more, hpushed, hmore⟩
  · exact absurd (by rw [hmore]; simp) hnot
  · cases more with
    | nil => exact absurd (by rw [← List.nil_append (_ ++ _), ← hmore]; simp) hnot
    | cons other others =>
        obtain ⟨rfl, rfl⟩ : record = other ∧ later = others ++
            (sect.relocations.map modification ++ [endSection entry]) := by simpa using hmore
        obtain ⟨before, statement, after, hsplit, hown, hbefore, hafter⟩ :=
          exists_split_of_isMark hpushed hmark
        refine ⟨before, statement, after, hsplit, hown, hbefore, ?_⟩
        rw [textCells_append, textCells_last, List.append_nil, hafter]

/-- **Packing keeps the order.**  For every section, the text records hold the bytes of its
statements that contribute code, each at its address and in the order of the statements.  Every
text record has from 1 to 30 bytes.  Code of at most 30 bytes stands whole in one record, behind
the code of the statements before it.  And a header or a list of symbols stands behind the code of
the statements before its own and before that of the statements behind. -/
theorem packing_keeps_order (sect : Section) (entry : Option Nat) :
    textCells (ofSection sect entry) = sect.statements.flatMap Statement.cells ∧
    (∀ start code, text start code ∈ ofSection sect entry →
      1 ≤ code.length ∧ code.length ≤ 30) ∧
    (∀ before statement after, sect.statements = before ++ statement :: after →
      statement.contribution = some .text → statement.code ≠ [] → statement.code.length ≤ 30 →
      ∃ earlier start front back later,
        ofSection sect entry =
          earlier ++ text start (front ++ statement.code ++ back) :: later ∧
        start + front.length = statement.address ∧
        textCells earlier ++ Bytes.cells start front = before.flatMap Statement.cells) ∧
    (∀ earlier record later, ofSection sect entry = earlier ++ record :: later →
      record.isMark = true →
      ∃ before statement after, sect.statements = before ++ statement :: after ∧
        statement.mark? sect.length = some record ∧
        textCells earlier = before.flatMap Statement.cells ∧
        textCells later = after.flatMap Statement.cells) := by
  refine ⟨textCells_ofSection sect entry, ?_, ?_, ?_⟩
  · exact fun start code hmem => isPacked_of_text_mem_ofSection hmem
  · intro before statement after hsplit htext hne hle
    obtain ⟨earlier, start, front, back, later, hrecords, hstart, hcells⟩ :=
      exists_record_of_split sect.length before after htext hne hle
    refine ⟨earlier, start, front, back,
      later ++ (sect.relocations.map modification ++ [endSection entry]), ?_, hstart, hcells⟩
    rw [ofSection_eq, hsplit, hrecords, List.append_assoc, List.cons_append]
  · exact fun earlier record later hsplit hmark => exists_split_ofSection hsplit hmark

/-- A section made by hand: a header, code, symbols, code that goes on at the next address, code of
35 bytes elsewhere, and code at an address that was used before. -/
def handMade : Section where
  statements :=
    [{ line := 1, operator := .directive .start, contribution := some (.header "P" 0) },
      { line := 2, operator := .unknown "A", code := [1, 2], length := 2,
        contribution := some .text },
      { line := 3, operator := .directive .extref, contribution := some (.refer ["Q"]) },
      { line := 4, operator := .unknown "B", address := 2, length := 3, code := [3, 4, 5],
        contribution := some .text },
      { line := 5, operator := .unknown "C", address := 100, length := 35,
        code := List.replicate 35 6, contribution := some .text },
      { line := 6, operator := .unknown "D", address := 2, length := 1, code := [7],
        contribution := some .text }]
  length := 41

theorem ofSection_handMade :
    ofSection handMade none =
      [.header "P" 41, .text 0 [1, 2], .refer ["Q"], .text 2 [3, 4, 5],
        .text 100 (List.replicate 30 6), .text 130 (List.replicate 5 6), .text 2 [7],
        .endSection none] := by
  decide

/-- In `handMade` the imported symbols stand between the first two pieces of code, and the piece
behind them has a record to itself although it goes on where the other ends. -/
theorem packing_keeps_order_handMade :
    (∃ before statement after, handMade.statements = before ++ statement :: after ∧
      statement.mark? 41 = some (.refer ["Q"]) ∧
      before.flatMap Statement.cells = [(0, 1), (1, 2)]) ∧
    (∃ earlier start front back later,
      ofSection handMade none = earlier ++ text start (front ++ [3, 4, 5] ++ back) :: later ∧
      start + front.length = 2 ∧
      textCells earlier ++ Bytes.cells start front = [(0, 1), (1, 2)]) ∧
    ∀ start code, text start code ∈ ofSection handMade none → code.length ≤ 30 := by
  obtain ⟨-, hsizes, hcode, hmarks⟩ := packing_keeps_order handMade none
  refine ⟨?_, ?_, fun start code hmem => (hsizes start code hmem).2⟩
  · obtain ⟨before, statement, after, hsplit, hown, hbefore, -⟩ :=
      hmarks [.header "P" 41, .text 0 [1, 2]] (.refer ["Q"]) _ ofSection_handMade rfl
    exact ⟨before, statement, after, hsplit, hown, hbefore.symm⟩
  · exact hcode (handMade.statements.take 3) _ _ rfl rfl (by decide) (by decide)

end ObjectRecord

end SicXe
