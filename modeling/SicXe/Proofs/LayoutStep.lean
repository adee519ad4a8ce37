import SicXe.Program

/-!
# SicXe.Proofs.LayoutStep

What one line can do to a section in the making.

`Added` lists the outcomes of adding a line, each with the layout and the journal it leaves, and
`added_addLine` says that there are no others; the invariants of a layout are proved by cases on
it.  A property that every line keeps holds of the layout of all lines (`addLines_invariant`), and
of a section cut from a source text the lines behind the first one never start it anew
(`layOut_invariant`).
-/

namespace SicXe

/-- No line is reported for not fitting into memory. -/
def StayInMemory (diagnostics : List Diagnostic) : Prop :=
  ∀ diagnostic ∈ diagnostics, diagnostic.fault ≠ .addressOverflow

/-- No report of two lists is about the memory exactly if none of either list is. -/
theorem stayInMemory_append {first second : List Diagnostic} :
    StayInMemory (first ++ second) ↔ StayInMemory first ∧ StayInMemory second :=
  List.forall_mem_append

/-! ## drafts -/

/-- The operators that can stand in a statement: an instruction is in the registry, and an
extended one is of format 3. -/
def Operator.Known (registry : Registry) : Operator → Prop
  | instruction mnemonic extended => ∃ found, registry.get? mnemonic = some found ∧
      (extended = true → found.format = .three)
  | directive _ | unknown _ => True

/-- An operator that is read as an instruction is one of the registry. -/
theorem Operator.known_ofMnemonic (registry : Registry) (text mnemonic : String)
    (extended : Bool) : (ofMnemonic registry text mnemonic extended).Known registry := by
  unfold ofMnemonic
  cases hget : registry.get? mnemonic with
  | none => trivial
  | some found =>
      dsimp only
      split
      · next hform => exact ⟨found, hget, fun hext => by simpa [hext] using hform⟩
      · trivial

theorem Operator.known_read (registry : Registry) (text : String) :
    (read registry text).Known registry := by
  unfold read
  split
  · trivial
  · split
    · exact known_ofMnemonic ..
    · exact known_ofMnemonic ..

theorem Operator.opensSection_ofMnemonic (registry : Registry) (text mnemonic : String)
    (extended : Bool) : (ofMnemonic registry text mnemonic extended).opensSection = false := by
  unfold ofMnemonic
  split
  · split <;> rfl
  · rfl

/-- Only a directive opens a section. -/
theorem Operator.opensSection_read (registry : Registry) (text : String) :
    (read registry text).opensSection = (Directive.ofName? text).any Directive.opensSection := by
  unfold read
  cases hname : Directive.ofName? text with
  | some kind => rfl
  | none =>
      dsimp only
      split <;> exact opensSection_ofMnemonic ..

/-- Whether a statement places the pending literals. -/
def Statement.placesLiterals (statement : Statement) : Bool :=
  statement.directive?.any Directive.placesLiterals

/-- What a statement is before it has its place: read off the line `number`, with an operator
that can stand in a statement, and without object code. -/
structure Statement.Drafted (registry : Registry) (number : Nat) (statement : Statement) :
    Prop where
  line : statement.line = number
  known : statement.operator.Known registry
  code : statement.code = []
  contribution : statement.contribution = none

namespace Layout

/-- The statement of a line has the number and the operator of the line, and no code yet. -/
theorem drafted_draftFields {registry : Registry} {number : Nat} {fields : LineFields}
    {statement : Statement} (h : draftFields registry number fields = .ok statement) :
    statement.Drafted registry number ∧
      statement.operator = Operator.read registry fields.operator := by
  have hknown := Operator.known_read registry fields.operator
  unfold draftFields at h
  dsimp only at h
  split at h
  · cases h
    exact ⟨⟨rfl, hknown, rfl, rfl⟩, rfl⟩
  · split at h
    · cases h
    · cases h
      exact ⟨⟨rfl, hknown, rfl, rfl⟩, rfl⟩

/-- The label of a statement is that of its line. -/
theorem label_draftFields {registry : Registry} {number : Nat} {fields : LineFields}
    {statement : Statement} (h : draftFields registry number fields = .ok statement) :
    statement.label = fields.label := by
  unfold draftFields at h
  dsimp only at h
  split at h
  · cases h
    rfl
  · split at h
    · cases h
    · cases h
      rfl

/-- A draft comes from the fields of its line. -/
theorem exists_fields_of_draft {registry : Registry} {number : Nat} {text : String}
    {statement : Statement} (h : draft registry number text = .ok (some statement)) :
    ∃ fields, LineFields.read text = .ok (some fields) ∧
      draftFields registry number fields = .ok statement := by
  unfold draft at h
  split at h
  · cases h
  · cases h
  · next fields hread =>
      cases hfields : draftFields registry number fields with
      | error fault => rw [hfields] at h; cases h
      | ok found =>
          rw [hfields] at h
          cases h
          exact ⟨fields, hread, hfields⟩

theorem drafted_draft {registry : Registry} {number : Nat} {text : String}
    {statement : Statement} (h : draft registry number text = .ok (some statement)) :
    statement.Drafted registry number := by
  obtain ⟨fields, -, hfields⟩ := exists_fields_of_draft h
  exact (drafted_draftFields hfields).1

/-- Cutting a text into sections and laying a section out agree on the lines that open one. -/
theorem opensSection_draft {registry : Registry} {number : Nat} {text : String}
    {statement : Statement} (h : draft registry number text = .ok (some statement)) :
    statement.operator.opensSection = Program.opensSection text := by
  obtain ⟨fields, hread, hfields⟩ := exists_fields_of_draft h
  rw [(drafted_draftFields hfields).2, Operator.opensSection_read, Program.opensSection, hread]

/-! ## the tables after a statement -/

/-- The layout with the label and the first literal of a statement entered. -/
def defined (layout : Layout) (statement : Statement) : Layout :=
  (layout.defineLabel statement).noteLiteral statement

/-- The layout with everything a statement does to the tables. -/
def obeyed (layout : Layout) (statement : Statement) : Layout :=
  (layout.defined statement).obeyDirective statement (layout.labelIsNew statement)

/-- A draft at its place in a layout, which it starts anew if it opens a section. -/
def placed (layout : Layout) (draft : Statement) (length : Nat) : Statement :=
  { draft with address := (layout.openSection draft).counter, length }

/-- A placed statement with the length of the literals it places. -/
def resized (layout : Layout) (statement : Statement) : Statement :=
  { statement with length := (layout.defined statement).finalLength statement }

/-- The layout with a statement entered and kept. -/
def keep (layout : Layout) (statement : Statement) : Layout :=
  { layout.obeyed statement with
    counter := (layout.resized statement).stop
    statements := (layout.obeyed statement).statements ++ [layout.resized statement] }

/-- What entering a statement reports, apart from its not fitting into memory. -/
def enterFaults (layout : Layout) (statement : Statement) : List Fault :=
  operatorFaults statement ++ layout.labelFaults statement ++
    (layout.defined statement).directiveFaults statement (layout.labelIsNew statement)

/-- **A statement that fits** is kept, with what its label and its operator have to report. -/
theorem enter_of_fits {layout : Layout} {statement : Statement}
    (h : fits statement.address (layout.resized statement).length = true) :
    layout.enter statement = (layout.keep statement,
      .ofLine statement.line (layout.enterFaults statement)
        (placementEvents statement (layout.resized statement).length ++
          [.located statement.operator.text statement.line statement.address
            (layout.resized statement).length])) :=
  if_pos h

/-- **A statement that does not fit** is left out and reported, but its label, its literal and its
directive have had their effect. -/
theorem enter_of_not_fits {layout : Layout} {statement : Statement}
    (h : fits statement.address (layout.resized statement).length = false) :
    layout.enter statement = (layout.obeyed statement,
      .ofLine statement.line (layout.enterFaults statement ++ [.addressOverflow])
        (placementEvents statement (layout.resized statement).length)) :=
  if_neg (by rw [Bool.not_eq_true]; exact h)

/-! ## what is left alone -/

/- The statements and the location counter change only where a statement is kept, and the
literals only where one is noted or placed. -/

@[simp] theorem statements_openSection (layout : Layout) (statement : Statement) :
    (layout.openSection statement).statements = layout.statements := by
  unfold openSection; split <;> rfl

@[simp] theorem literals_openSection (layout : Layout) (statement : Statement) :
    (layout.openSection statement).literals = layout.literals := by
  unfold openSection; split <;> rfl

/-- A section that starts at address 0 is not moved by being opened. -/
theorem counter_openSection {layout : Layout} {statement : Statement}
    (h : statement.operator.opensSection = true → layout.counter = 0) :
    (layout.openSection statement).counter = layout.counter := by
  unfold openSection
  split
  · next hopens => exact (h hopens).symm
  · rfl

/-- A label changes the symbols only. -/
theorem defineLabel_eq (layout : Layout) (statement : Statement) :
    ∃ symbols, layout.defineLabel statement = { layout with symbols } := by
  unfold defineLabel
  split
  · exact ⟨layout.symbols, rfl⟩
  · split
    · next symbols _ => exact ⟨symbols, rfl⟩
    · exact ⟨layout.symbols, rfl⟩

/-- A literal operand changes the literals and their first uses only. -/
theorem noteLiteral_eq (layout : Layout) (statement : Statement) :
    ∃ literals firstUses,
      layout.noteLiteral statement = { layout with literals, firstUses } := by
  unfold noteLiteral
  split
  · exact ⟨layout.literals, layout.firstUses, rfl⟩
  · split
    · next literals _ => exact ⟨literals, _, rfl⟩
    · exact ⟨layout.literals, layout.firstUses, rfl⟩

/-- `EQU` changes the symbols only. -/
theorem equate_eq (layout : Layout) (label : String) (operands : List Operand) :
    ∃ symbols, layout.equate label operands = { layout with symbols } := by
  unfold equate
  split
  · split
    · next symbols _ => exact ⟨symbols, rfl⟩
    · exact ⟨layout.symbols, rfl⟩
  · exact ⟨layout.symbols, rfl⟩

/-- A directive changes symbols, externals and, if it places literals, their addresses. -/
theorem obeyDirective_eq (layout : Layout) (statement : Statement) (labeled : Bool) :
    ∃ symbols externals, layout.obeyDirective statement labeled =
      { layout with
        symbols
        externals
        literals :=
          if statement.placesLiterals then
            (layout.literals.placePending literalSize statement.address).1
          else layout.literals } := by
  unfold obeyDirective Statement.placesLiterals
  cases statement.directive? with
  | none => exact ⟨layout.symbols, layout.externals, rfl⟩
  | some directive =>
      cases directive with
      | equ =>
          dsimp only
          split
          · next label _ =>
              obtain ⟨symbols, hequate⟩ := equate_eq layout label statement.operands
              exact ⟨symbols, layout.externals, hequate⟩
          · exact ⟨layout.symbols, layout.externals, rfl⟩
      | extref => exact ⟨layout.symbols, _, rfl⟩
      | _ => exact ⟨layout.symbols, layout.externals, rfl⟩

/-- A statement touches nothing but the tables. -/
theorem obeyed_eq (layout : Layout) (statement : Statement) :
    ∃ symbols externals literals firstUses, layout.obeyed statement =
      { layout with symbols, externals, literals, firstUses } := by
  obtain ⟨_, hlabel⟩ := defineLabel_eq layout statement
  obtain ⟨_, _, hnote⟩ := noteLiteral_eq (layout.defineLabel statement) statement
  obtain ⟨_, _, hobey⟩ :=
    obeyDirective_eq (layout.defined statement) statement (layout.labelIsNew statement)
  rw [obeyed, hobey, defined, hnote, hlabel]
  exact ⟨_, _, _, _, rfl⟩

/-- Noting the first literal of a statement leaves the literals as they are, or puts the literal
behind them. -/
theorem literals_defined (layout : Layout) (statement : Statement) :
    (layout.defined statement).literals = layout.literals ∨
      ∃ value, firstLiteral? statement.operands = some value ∧
        layout.literals.contains value.text = false ∧
        (layout.defined statement).literals =
          ⟨layout.literals.entries ++ [(value.text, none)]⟩ := by
  obtain ⟨symbols, hlabel⟩ := defineLabel_eq layout statement
  rw [defined, hlabel]
  unfold noteLiteral
  cases hfirst : firstLiteral? statement.operands with
  | none => exact Or.inl rfl
  | some value =>
      cases hknown : layout.literals.contains value.text with
      | true => simp [AddressTable.declare, AddressTable.add, hknown]
      | false => simp [AddressTable.declare, AddressTable.add, hknown]

/-- Literals get their addresses from the statement that places them, and from no other. -/
theorem literals_obeyed (layout : Layout) (statement : Statement) :
    (layout.obeyed statement).literals =
      if statement.placesLiterals then
        ((layout.defined statement).literals.placePending literalSize statement.address).1
      else (layout.defined statement).literals := by
  obtain ⟨_, _, hobey⟩ :=
    obeyDirective_eq (layout.defined statement) statement (layout.labelIsNew statement)
  rw [obeyed, hobey]

/-- Only the literals a statement places can change its length. -/
theorem length_resized (layout : Layout) (statement : Statement) :
    (layout.resized statement).length =
      if statement.placesLiterals then
        ((layout.defined statement).literals.placePending literalSize statement.address).2
      else statement.length := rfl

/-! ## the outcomes of a line -/

/-- What adding a line to a layout can come to. -/
inductive Added (registry : Registry) (layout : Layout) (line : Nat × String) :
    Layout × Journal → Prop
  /-- The line holds no statement. -/
  | blank (hdraft : draft registry line.1 line.2 = .ok none) :
      Added registry layout line (layout, ∅)
  /-- The line cannot be read. -/
  | unreadable (fault : Fault) (hdraft : draft registry line.1 line.2 = .error fault) :
      Added registry layout line (layout, .ofLine line.1 [fault] [])
  /-- The statement has no usable length. -/
  | unsized (statement : Statement) (fault : Fault) (events : List Event)
      (hdraft : draft registry line.1 line.2 = .ok (some statement))
      (hlength : lengthOf registry statement = .error fault) :
      Added registry layout line
        (layout.openSection statement, .ofLine line.1 [fault] events)
  /-- The statement does not fit into memory. -/
  | unfit (statement : Statement) (length : Nat) (events : List Event)
      (hdraft : draft registry line.1 line.2 = .ok (some statement))
      (hlength : lengthOf registry statement = .ok length)
      (hfits : fits (layout.placed statement length).address length = false) :
      Added registry layout line
        (layout.openSection statement, .ofLine line.1 [.addressOverflow] events)
  /-- The statement fits until the literals it places are counted. -/
  | overflowed (statement : Statement) (length : Nat) (events : List Event)
      (hdraft : draft registry line.1 line.2 = .ok (some statement))
      (hlength : lengthOf registry statement = .ok length)
      (hfits : fits (layout.placed statement length).address
        ((layout.openSection statement).resized (layout.placed statement length)).length = false)
      (hsized : fits (layout.placed statement length).address length = true) :
      Added registry layout line
        ((layout.openSection statement).obeyed (layout.placed statement length),
          .ofLine line.1
            ((layout.openSection statement).enterFaults (layout.placed statement length) ++
              [.addressOverflow]) events)
  /-- The statement is kept. -/
  | kept (statement : Statement) (length : Nat) (events : List Event)
      (hdraft : draft registry line.1 line.2 = .ok (some statement))
      (hlength : lengthOf registry statement = .ok length)
      (hfits : fits (layout.placed statement length).address
        ((layout.openSection statement).resized (layout.placed statement length)).length = true) :
      Added registry layout line
        ((layout.openSection statement).keep (layout.placed statement length),
          .ofLine line.1
            ((layout.openSection statement).enterFaults (layout.placed statement length)) events)

private theorem ofLine_append_ofLine (line : Nat) (faults : List Fault)
    (first second : List Event) :
    Journal.ofLine line [] first ++ Journal.ofLine line faults second =
      Journal.ofLine line faults (first ++ second) := rfl

/-- **Inversion of a line**: adding a line has one of the outcomes of `Added`. -/
theorem added_addLine (registry : Registry) (layout : Layout) (line : Nat × String) :
    Added registry layout line (layout.addLine registry line) := by
  unfold addLine
  cases hdraft : draft registry line.1 line.2 with
  | error fault => exact .unreadable fault hdraft
  | ok drafted =>
      cases drafted with
      | none => exact .blank hdraft
      | some statement =>
          have hline : statement.line = line.1 := (drafted_draft hdraft).line
          dsimp only
          unfold addStatement
          cases hlength : lengthOf registry statement with
          | error fault =>
              dsimp only
              rw [ofLine_append_ofLine, hline]
              exact .unsized statement fault _ hdraft hlength
          | ok length =>
              dsimp only
              split
              · next hsized =>
                  rw [show { statement with
                      address := (layout.openSection statement).counter, length }
                    = layout.placed statement length from rfl]
                  cases hfits : fits (layout.placed statement length).address
                      ((layout.openSection statement).resized
                        (layout.placed statement length)).length with
                  | true =>
                      rw [enter_of_fits hfits]
                      dsimp only
                      rw [show (layout.placed statement length).line = statement.line from rfl,
                        ofLine_append_ofLine, hline]
                      exact .kept statement length _ hdraft hlength hfits
                  | false =>
                      rw [enter_of_not_fits hfits]
                      dsimp only
                      rw [show (layout.placed statement length).line = statement.line from rfl,
                        ofLine_append_ofLine, hline]
                      exact .overflowed statement length _ hdraft hlength hfits hsized
              · next hfits =>
                  rw [ofLine_append_ofLine, hline]
                  exact .unfit statement length _ hdraft hlength (Bool.eq_false_iff.mpr hfits)

/-! ## kept statements -/

/-- A line leaves the statements of a layout alone. -/
structure Rests (layout next : Layout) : Prop where
  statements : next.statements = layout.statements
  counter : next.counter = layout.counter

/-- Opening a section moves nothing, since it comes before everything else. -/
theorem rests_openSection {layout : Layout} {statement : Statement}
    (h : statement.operator.opensSection = true → layout.counter = 0) :
    Rests layout (layout.openSection statement) :=
  ⟨statements_openSection .., counter_openSection h⟩

/-- The effects of a statement leave the statements and the counter as they are. -/
theorem rests_obeyed (layout : Layout) (statement : Statement) :
    Rests layout (layout.obeyed statement) := by
  obtain ⟨_, _, _, _, hobeyed⟩ := obeyed_eq layout statement
  rw [hobeyed]
  exact ⟨rfl, rfl⟩

/-- A layout grows by a kept statement: it takes the bytes behind the location counter, and its
first literal is `noted` before the pending ones are placed. -/
structure Grows (registry : Registry) (number : Nat) (layout next : Layout)
    (statement : Statement) (noted : AddressTable) : Prop where
  drafted : statement.Drafted registry number
  statements : next.statements = layout.statements ++ [statement]
  address : statement.address = layout.counter
  counter : next.counter = statement.stop
  bounded : statement.stop ≤ memorySize
  notes : noted = layout.literals ∨ ∃ name, noted = ⟨layout.literals.entries ++ [(name, none)]⟩
  literals : next.literals =
    if statement.placesLiterals then (noted.placePending literalSize statement.address).1
    else noted
  length : if statement.placesLiterals then
      statement.length = (noted.placePending literalSize statement.address).2
    else lengthOf registry statement = .ok statement.length

section
variable {registry : Registry} {number : Nat} {layout next : Layout} {statement : Statement}
  {noted : AddressTable}

/-- The counter never goes back. -/
theorem Grows.counter_le (h : Grows registry number layout next statement noted) :
    layout.counter ≤ next.counter := by
  rw [h.counter, ← h.address]
  exact Nat.le_add_right ..

theorem Grows.mem_statements (h : Grows registry number layout next statement noted)
    {other : Statement} :
    other ∈ next.statements ↔ other ∈ layout.statements ∨ other = statement := by
  rw [h.statements, List.mem_append, List.mem_singleton]

end

/-- Keeping a statement is a step of growth. -/
theorem grows_keep {registry : Registry} {number : Nat} {layout : Layout} {statement : Statement}
    {length : Nat} (hopen : statement.operator.opensSection = true → layout.counter = 0)
    (hdrafted : statement.Drafted registry number)
    (hlength : lengthOf registry statement = .ok length)
    (hfits : fits (layout.placed statement length).address
      ((layout.openSection statement).resized (layout.placed statement length)).length = true) :
    Grows registry number layout
      ((layout.openSection statement).keep (layout.placed statement length))
      ((layout.openSection statement).resized (layout.placed statement length))
      ((layout.openSection statement).defined (layout.placed statement length)).literals where
  drafted := ⟨hdrafted.line, hdrafted.known, hdrafted.code, hdrafted.contribution⟩
  statements := by
    rw [keep, (rests_obeyed ..).statements, statements_openSection]
  address := counter_openSection hopen
  counter := rfl
  bounded := of_decide_eq_true hfits
  notes := by
    rw [← literals_openSection layout statement]
    rcases literals_defined (layout.openSection statement) (layout.placed statement length) with
      hsame | ⟨value, -, -, hnew⟩
    · exact Or.inl hsame
    · exact Or.inr ⟨value.text, hnew⟩
  literals := literals_obeyed ..
  length := by
    have hsized := length_resized (layout.openSection statement) (layout.placed statement length)
    have hplaces : ((layout.openSection statement).resized
        (layout.placed statement length)).placesLiterals =
          (layout.placed statement length).placesLiterals := rfl
    rw [hplaces]
    cases hcase : (layout.placed statement length).placesLiterals with
    | true =>
        rw [hcase] at hsized
        exact hsized
    | false =>
        rw [hcase] at hsized
        rw [hsized]
        exact hlength

/-- **A line that does not start the section anew** leaves the statements alone or adds one to
them.  Where it leaves them alone, the literals change only if a literal pool does not fit into
memory. -/
theorem rests_or_grows {registry : Registry} {layout : Layout} {line : Nat × String}
    (hopen : Program.opensSection line.2 = true → layout.counter = 0) :
    (Rests layout (layout.addLine registry line).1 ∧
      (StayInMemory (layout.addLine registry line).2.diagnostics →
        (layout.addLine registry line).1.literals = layout.literals)) ∨
      ∃ statement noted,
        Grows registry line.1 layout (layout.addLine registry line).1 statement noted := by
  have hadded := added_addLine registry layout line
  generalize layout.addLine registry line = result at hadded
  cases hadded with
  | blank => exact Or.inl ⟨⟨rfl, rfl⟩, fun _ => rfl⟩
  | unreadable => exact Or.inl ⟨⟨rfl, rfl⟩, fun _ => rfl⟩
  | unsized statement fault events hdraft hlength =>
      rw [← opensSection_draft hdraft] at hopen
      exact Or.inl ⟨rests_openSection hopen, fun _ => literals_openSection ..⟩
  | unfit statement length events hdraft hlength hfits =>
      rw [← opensSection_draft hdraft] at hopen
      exact Or.inl ⟨rests_openSection hopen, fun _ => literals_openSection ..⟩
  | overflowed statement length events hdraft hlength hfits =>
      rw [← opensSection_draft hdraft] at hopen
      have hrests := rests_obeyed (layout.openSection statement) (layout.placed statement length)
      have hopens := rests_openSection hopen
      refine Or.inl ⟨⟨?_, ?_⟩, fun hstays => ?_⟩
      · rw [hrests.statements, hopens.statements]
      · rw [hrests.counter, hopens.counter]
      · exact absurd rfl (hstays ⟨line.1, .addressOverflow⟩ (by simp))
  | kept statement length events hdraft hlength hfits =>
      rw [← opensSection_draft hdraft] at hopen
      exact Or.inr ⟨_, _, grows_keep hopen (drafted_draft hdraft) hlength hfits⟩

/-! ## runs of lines -/

/-- What every line keeps, all lines keep; `stays` tells whether no line is too much for the
memory. -/
theorem addLines_invariant {P : Layout → Prop} {registry : Registry} {stays : Prop}
    {lines : List (Nat × String)}
    (hstep : ∀ layout, ∀ line ∈ lines,
      (stays → StayInMemory (layout.addLine registry line).2.diagnostics) → P layout →
        P (layout.addLine registry line).1) (layout : Layout)
    (hstays : stays → StayInMemory (layout.addLines registry lines).2.diagnostics)
    (h : P layout) : P (layout.addLines registry lines).1 := by
  induction lines generalizing layout with
  | nil => exact h
  | cons line rest ih =>
      refine ih (fun layout line hmem => hstep layout line (List.mem_cons_of_mem _ hmem)) _
        (fun hs => (stayInMemory_append.mp (hstays hs)).2) ?_
      exact hstep layout line List.mem_cons_self
        (fun hs => (stayInMemory_append.mp (hstays hs)).1) h

/-- **Statements are drafts of lines** that have their place. -/
theorem exists_draft_of_mem_addLines {registry : Registry} {lines : List (Nat × String)} :
    ∀ statement ∈ (addLines registry {} lines).1.statements, ∃ line ∈ lines,
      ∃ drafted address length, draft registry line.1 line.2 = .ok (some drafted) ∧
        statement = { drafted with address, length } := by
  refine addLines_invariant (P := fun layout => ∀ statement ∈ layout.statements, ∃ line ∈ lines,
      ∃ drafted address length, draft registry line.1 line.2 = .ok (some drafted) ∧
        statement = { drafted with address, length }) ?_ {} (fun h : False => h.elim) (by simp)
  intro layout line hmem _ h
  have hadded := added_addLine registry layout line
  generalize layout.addLine registry line = result at hadded
  cases hadded with
  | blank => exact h
  | unreadable => exact h
  | unsized statement => rwa [statements_openSection]
  | unfit statement => rwa [statements_openSection]
  | overflowed statement => rwa [(rests_obeyed ..).statements, statements_openSection]
  | kept statement length events hdraft =>
      rw [keep, (rests_obeyed ..).statements, statements_openSection, List.forall_mem_append]
      refine ⟨h, fun other hother => ?_⟩
      rw [List.mem_singleton.mp hother]
      exact ⟨line, hmem, statement, _, _, hdraft, rfl⟩

end Layout

/-- Lines of one section: only the first of them may open one. -/
def Program.OpenedOnce (lines : List (Nat × String)) : Prop :=
  ∀ line ∈ lines.tail, Program.opensSection line.2 = false

/-- **Invariants of a section**: what holds of the empty layout, of a layout whose statements are
left alone and of one that grows by a statement holds of a section once it is laid out.  If the
section stays in memory, the literals are left alone together with the statements. -/
theorem Layout.layOut_invariant {P : Layout → Prop} {registry : Registry}
    {lines : List (Nat × String)} (honce : Program.OpenedOnce lines) (hinit : P {})
    (hrests : ∀ layout next, Rests layout next →
      (StayInMemory (Layout.addLines registry {} lines).2.diagnostics →
        next.literals = layout.literals) → P layout → P next)
    (hgrows : ∀ layout next number statement noted,
      Grows registry number layout next statement noted → P layout → P next) :
    P (Layout.addLines registry {} lines).1 := by
  have hstep : ∀ layout line, (Program.opensSection line.2 = true → layout.counter = 0) →
      (StayInMemory (Layout.addLines registry {} lines).2.diagnostics →
        StayInMemory (layout.addLine registry line).2.diagnostics) → P layout →
        P (layout.addLine registry line).1 := by
    intro layout line hopen hstays h
    rcases rests_or_grows hopen with ⟨hrest, hliterals⟩ | ⟨statement, noted, hgrow⟩
    · exact hrests layout _ hrest (fun hall => hliterals (hstays hall)) h
    · exact hgrows layout _ line.1 statement noted hgrow h
  cases lines with
  | nil => exact hinit
  | cons first rest =>
      have hlater : ∀ layout, ∀ line ∈ rest,
          (StayInMemory (Layout.addLines registry {} (first :: rest)).2.diagnostics →
            StayInMemory (layout.addLine registry line).2.diagnostics) → P layout →
            P (layout.addLine registry line).1 := by
        intro layout line hmem
        have hcloses : Program.opensSection line.2 = false := honce line hmem
        exact hstep layout line (fun hopens => by simp [hcloses] at hopens)
      have hfirst := hstep {} first (fun _ => rfl)
        (fun hstays => (stayInMemory_append.mp hstays).1) hinit
      exact addLines_invariant hlater _ (fun hstays => (stayInMemory_append.mp hstays).2) hfirst

end SicXe
