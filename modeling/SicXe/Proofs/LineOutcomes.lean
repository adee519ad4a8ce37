import SicXe.Proofs.AddressTables
import SicXe.Proofs.Diagnostics

/-!
# SicXe.Proofs.LineOutcomes

What becomes of a line when its section is laid out and encoded.

A line is blank, or it is kept as a statement, or it is refused with an error
(`account_addLine`); lines of other numbers have no part in that, so the same holds of it among all
lines of its section (`account_addLines`).  What is reported later on is about the lines of
statements and of literals, and never that a line was left out (`whileEncoding_of_mem_ofStatement`,
`line_of_mem_unplaced`).
-/

namespace SicXe

/-- Whether a fault means that a line was left out: it stands outside sections, has a value that
cannot be used, or does not fit into memory. -/
def Fault.leavesOut : Fault → Bool
  | outsideSection | invalidValue _ | addressOverflow => true
  | _ => false

namespace Fault

/-- What a line is refused for is an error. -/
theorem severity_of_ofReading {fault : Fault} (h : fault.ofReading = true) :
    fault.severity = .error := by
  cases fault with
  | malformedLine error => rfl
  | invalidValue text => rfl
  | _ => cases h

/-- What is reported as a statement is entered leaves no line out. -/
theorem leavesOut_of_ofEntering {fault : Fault} (h : fault.ofEntering = true) :
    fault.leavesOut = false := by
  cases fault with
  | outsideSection => cases h
  | invalidValue text => cases h
  | addressOverflow => cases h
  | _ => rfl

end Fault

/-! ## lines of a section -/

namespace Layout

/-- Only a line without fields gives no statement. -/
theorem read_of_draft_none {registry : Registry} {number : Nat} {text : String}
    (h : draft registry number text = .ok none) : LineFields.read text = .ok none := by
  unfold draft at h
  split at h
  · cases h
  · next hread => exact hread
  · next fields hread =>
      cases hfields : draftFields registry number fields with
      | error fault => rw [hfields] at h; cases h
      | ok statement => rw [hfields] at h; cases h

theorem read_of_draft_error {registry : Registry} {number : Nat} {text : String} {fault : Fault}
    (h : draft registry number text = .error fault) : LineFields.read text ≠ .ok none := by
  intro hread
  simp [draft, hread] at h

theorem read_of_draft_some {registry : Registry} {number : Nat} {text : String}
    {statement : Statement} (h : draft registry number text = .ok (some statement)) :
    LineFields.read text ≠ .ok none := by
  intro hread
  simp [draft, hread] at h

/-- What becomes of a line among others, told by the numbers of the lines that are kept as
statements and by the diagnostics. -/
inductive Account (line : Nat × String) (kept : List Nat) (diagnostics : List Diagnostic) : Prop
  /-- The line holds no statement, and there is nothing to say about it. -/
  | blank (hread : LineFields.read line.2 = .ok none) (hkept : line.1 ∉ kept)
      (hsilent : ∀ diagnostic ∈ diagnostics, diagnostic.line ≠ line.1)
  /-- The line is refused, and there is an error that says so. -/
  | refused (hread : LineFields.read line.2 ≠ .ok none) (hkept : line.1 ∉ kept)
      (herror : ∃ diagnostic ∈ diagnostics, diagnostic.line = line.1 ∧ diagnostic.isError = true)
  /-- The line is kept as a statement, and nothing says that it was left out. -/
  | kept (hread : LineFields.read line.2 ≠ .ok none) (hkept : line.1 ∈ kept)
      (hin : ∀ diagnostic ∈ diagnostics, diagnostic.line = line.1 →
        diagnostic.fault.leavesOut = false)

/-- Lines of other numbers have no part in what becomes of a line. -/
theorem Account.of_others {line : Nat × String} {kept others : List Nat}
    {diagnostics more : List Diagnostic} (h : Account line kept diagnostics)
    (hkept : line.1 ∈ others ↔ line.1 ∈ kept)
    (hmore : ∀ diagnostic, diagnostic.line = line.1 →
      (diagnostic ∈ more ↔ diagnostic ∈ diagnostics)) : Account line others more := by
  cases h with
  | blank hread hnot hsilent =>
      refine .blank hread (by rwa [hkept]) ?_
      intro diagnostic hmem hline
      exact hsilent diagnostic ((hmore diagnostic hline).mp hmem) hline
  | refused hread hnot herror =>
      obtain ⟨diagnostic, hmem, hline, hserious⟩ := herror
      exact .refused hread (by rwa [hkept])
        ⟨diagnostic, (hmore diagnostic hline).mpr hmem, hline, hserious⟩
  | kept hread hin hfaults =>
      refine .kept hread (by rwa [hkept]) ?_
      intro diagnostic hmem hline
      exact hfaults diagnostic ((hmore diagnostic hline).mp hmem) hline

section
variable {registry : Registry}

/-- **What becomes of one line**: the account of a line when it is added. -/
theorem account_addLine {layout : Layout} {line : Nat × String}
    (hfresh : line.1 ∉ layout.statements.map Statement.line) :
    Account line ((layout.addLine registry line).1.statements.map Statement.line)
      (layout.addLine registry line).2.diagnostics := by
  have hadded := added_addLine registry layout line
  generalize layout.addLine registry line = result at hadded
  cases hadded with
  | blank hdraft => exact .blank (read_of_draft_none hdraft) hfresh (by simp)
  | unreadable fault hdraft =>
      refine .refused (read_of_draft_error hdraft) hfresh ⟨⟨line.1, fault⟩, by simp, rfl, ?_⟩
      exact decide_eq_true (Fault.severity_of_ofReading (ofReading_of_draft hdraft))
  | unsized statement fault events hdraft hlength =>
      rw [statements_openSection]
      refine .refused (read_of_draft_some hdraft) hfresh ⟨⟨line.1, fault⟩, by simp, rfl, ?_⟩
      exact decide_eq_true (Fault.severity_of_ofReading (ofReading_of_lengthOf hlength))
  | unfit statement length events hdraft hlength hfits =>
      rw [statements_openSection]
      exact .refused (read_of_draft_some hdraft) hfresh
        ⟨⟨line.1, .addressOverflow⟩, by simp, rfl, rfl⟩
  | overflowed statement length events hdraft hlength hfits hsized =>
      rw [(rests_obeyed ..).statements, statements_openSection]
      exact .refused (read_of_draft_some hdraft) hfresh
        ⟨⟨line.1, .addressOverflow⟩, by simp, rfl, rfl⟩
  | kept statement length events hdraft hlength hfits =>
      refine .kept (read_of_draft_some hdraft) ?_ ?_
      · rw [keep, (rests_obeyed ..).statements, statements_openSection, List.map_append,
          ← (drafted_draft hdraft).line]
        exact List.mem_append_right _ List.mem_cons_self
      · intro diagnostic hmem hline
        rw [Journal.diagnostics_ofLine] at hmem
        obtain ⟨fault, hfault, rfl⟩ := List.mem_map.mp hmem
        exact Fault.leavesOut_of_ofEntering (ofEntering_of_mem_enterFaults hfault)

/-- Statements are added on the lines that are added. -/
theorem mem_lines_addLines (layout : Layout) (lines : List (Nat × String)) (number : Nat)
    (h : number ∉ lines.map Prod.fst) :
    number ∈ (layout.addLines registry lines).1.statements.map Statement.line ↔
      number ∈ layout.statements.map Statement.line := by
  obtain ⟨added, hadded, hsub⟩ := sublist_lines_addLines registry layout lines
  rw [hadded, List.map_append, List.mem_append, or_iff_left]
  exact fun hmem => h (hsub.subset hmem)

/-- What is reported about added lines is about their numbers. -/
theorem line_of_mem_addLines {layout : Layout} {lines : List (Nat × String)}
    {diagnostic : Diagnostic}
    (h : diagnostic ∈ (layout.addLines registry lines).2.diagnostics) :
    diagnostic.line ∈ lines.map Prod.fst := by
  induction lines generalizing layout with
  | nil => simp [addLines] at h
  | cons line rest ih =>
      rw [addLines, Journal.diagnostics_append, List.mem_append] at h
      rcases h with hfirst | hrest
      · rw [(ofLayout_of_mem_addLine hfirst).1]
        exact List.mem_cons_self
      · exact List.mem_cons_of_mem _ (ih hrest)

/-- **What becomes of a line among lines**, if no other has its number. -/
theorem account_addLines {layout : Layout} {lines : List (Nat × String)}
    (hnodup : (lines.map Prod.fst).Nodup)
    (hfresh : ∀ number ∈ lines.map Prod.fst, number ∉ layout.statements.map Statement.line)
    {line : Nat × String} (hmem : line ∈ lines) :
    Account line ((layout.addLines registry lines).1.statements.map Statement.line)
      (layout.addLines registry lines).2.diagnostics := by
  induction lines generalizing layout with
  | nil => cases hmem
  | cons first rest ih =>
      obtain ⟨hnew, hrest⟩ := List.nodup_cons.mp (List.map_cons ▸ hnodup)
      rcases List.mem_cons.mp hmem with rfl | hlater
      · -- The lines behind it have other numbers.
        have hfirst : Account line
            ((layout.addLine registry line).1.statements.map Statement.line)
            (layout.addLine registry line).2.diagnostics :=
          account_addLine (hfresh line.1 List.mem_cons_self)
        refine hfirst.of_others (mem_lines_addLines _ rest line.1 hnew) ?_
        intro diagnostic hline
        rw [addLines, Journal.diagnostics_append, List.mem_append, or_iff_left]
        intro hreported
        exact hnew (hline ▸ line_of_mem_addLines hreported)
      · have hother : first.1 ≠ line.1 :=
          fun hsame => hnew (hsame ▸ List.mem_map_of_mem hlater)
        have hrests : ∀ number ∈ rest.map Prod.fst,
            number ∉ (layout.addLine registry first).1.statements.map Statement.line := by
          intro number hnumber
          have hold := hfresh number (List.mem_cons_of_mem _ hnumber)
          rcases statements_addLine registry layout first with hsame | ⟨statement, hline, hmore⟩
          · rwa [hsame]
          · rw [hmore, List.map_append, List.mem_append, not_or]
            refine ⟨hold, ?_⟩
            simp only [List.map_cons, List.map_nil, List.mem_singleton, hline]
            rintro rfl
            exact hnew hnumber
        refine (ih hrest hrests hlater).of_others Iff.rfl ?_
        intro diagnostic hline
        rw [addLines, Journal.diagnostics_append, List.mem_append, or_iff_right]
        intro hreported
        exact hother ((ofLayout_of_mem_addLine hreported).1.symm.trans hline)

end

/-! ## unplaced literals -/

/-- A statement adds at most one first use, and that is on its line. -/
theorem firstUses_obeyed (layout : Layout) (statement : Statement) :
    (layout.obeyed statement).firstUses = layout.firstUses ∨
      ∃ text, (layout.obeyed statement).firstUses =
        layout.firstUses ++ [(text, statement.line)] := by
  obtain ⟨_, hlabel⟩ := defineLabel_eq layout statement
  obtain ⟨_, _, hobey⟩ :=
    obeyDirective_eq (layout.defined statement) statement (layout.labelIsNew statement)
  rw [obeyed, hobey, defined, hlabel]
  unfold noteLiteral
  split
  · exact Or.inl rfl
  · next value _ =>
      split
      · exact Or.inr ⟨value.text, rfl⟩
      · exact Or.inl rfl

@[simp] theorem firstUses_openSection (layout : Layout) (statement : Statement) :
    (layout.openSection statement).firstUses = layout.firstUses := by
  unfold openSection; split <;> rfl

/-- A line changes the first uses of literals only if it holds a statement, and then by its own
number. -/
theorem firstUses_addLine (registry : Registry) (layout : Layout) (line : Nat × String) :
    (layout.addLine registry line).1.firstUses = layout.firstUses ∨
      (LineFields.read line.2 ≠ .ok none ∧ ∃ text,
        (layout.addLine registry line).1.firstUses = layout.firstUses ++ [(text, line.1)]) := by
  have hentered : ∀ statement length, draft registry line.1 line.2 = .ok (some statement) →
      ((layout.openSection statement).obeyed (layout.placed statement length)).firstUses =
          layout.firstUses ∨
        (LineFields.read line.2 ≠ .ok none ∧ ∃ text,
          ((layout.openSection statement).obeyed (layout.placed statement length)).firstUses =
            layout.firstUses ++ [(text, line.1)]) := by
    intro statement length hdraft
    rcases firstUses_obeyed (layout.openSection statement) (layout.placed statement length) with
      hsame | ⟨text, hmore⟩
    · exact Or.inl (hsame.trans (firstUses_openSection ..))
    · refine Or.inr ⟨read_of_draft_some hdraft, text, ?_⟩
      rw [hmore, firstUses_openSection, ← (drafted_draft hdraft).line]
      rfl
  have hadded := added_addLine registry layout line
  generalize layout.addLine registry line = result at hadded
  cases hadded with
  | blank => exact Or.inl rfl
  | unreadable => exact Or.inl rfl
  | unsized => exact Or.inl (firstUses_openSection ..)
  | unfit => exact Or.inl (firstUses_openSection ..)
  | overflowed statement length events hdraft => exact hentered statement length hdraft
  | kept statement length events hdraft => exact hentered statement length hdraft

/-- Literals are first used on lines that are not blank. -/
theorem exists_line_of_mem_firstUses {registry : Registry} {lines : List (Nat × String)} :
    ∀ use ∈ (addLines registry {} lines).1.firstUses,
      ∃ line ∈ lines, line.1 = use.2 ∧ LineFields.read line.2 ≠ .ok none := by
  refine addLines_invariant
    (P := fun layout => ∀ use ∈ layout.firstUses,
      ∃ line ∈ lines, line.1 = use.2 ∧ LineFields.read line.2 ≠ .ok none) ?_ {}
    (fun h : False => h.elim) (by simp)
  intro layout line hmem _ h
  rcases firstUses_addLine registry layout line with hsame | ⟨hread, text, hmore⟩
  · rwa [hsame]
  · rw [hmore]
    intro use huse
    rcases List.mem_append.mp huse with hold | hnew
    · exact h use hold
    · rw [List.mem_singleton.mp hnew]
      exact ⟨line, hmem, rfl, hread⟩

/-- The literals of a section are those whose first use is noted. -/
def UsesNoted (layout : Layout) : Prop :=
  layout.literals.names = layout.firstUses.map Prod.fst

/-- A literal that is new has its first use noted with it. -/
theorem usesNoted_defined {layout : Layout} (statement : Statement) (h : layout.UsesNoted) :
    (layout.defined statement).UsesNoted := by
  obtain ⟨_, hlabel⟩ := defineLabel_eq layout statement
  rw [UsesNoted] at h
  rw [defined, hlabel]
  unfold noteLiteral
  split
  · exact h
  · next value _ =>
      cases hknown : layout.literals.contains value.text with
      | true => simpa [AddressTable.declare, AddressTable.add, hknown, UsesNoted] using h
      | false =>
          simpa [AddressTable.declare, AddressTable.add, hknown, UsesNoted,
            AddressTable.names] using h

theorem usesNoted_obeyed {layout : Layout} (statement : Statement) (h : layout.UsesNoted) :
    (layout.obeyed statement).UsesNoted := by
  have hdefined := usesNoted_defined statement h
  obtain ⟨_, _, hobey⟩ :=
    obeyDirective_eq (layout.defined statement) statement (layout.labelIsNew statement)
  rw [obeyed, hobey]
  by_cases hplaces : statement.placesLiterals = true
  · rw [if_pos hplaces]
    exact (AddressTable.names_placeFrom ..).trans hdefined
  · rw [if_neg hplaces]
    exact hdefined

/-- **Every literal has a first use**, whatever lines a section is laid out from. -/
theorem usesNoted_addLines (registry : Registry) (lines : List (Nat × String)) :
    (addLines registry {} lines).1.UsesNoted := by
  refine addLines_invariant (P := UsesNoted) ?_ {} (fun h : False => h.elim) rfl
  intro layout line _ _ h
  have hopened : ∀ statement, (layout.openSection statement).UsesNoted := by
    intro statement
    rwa [UsesNoted, literals_openSection, firstUses_openSection]
  have hadded := added_addLine registry layout line
  generalize layout.addLine registry line = result at hadded
  cases hadded with
  | blank => exact h
  | unreadable => exact h
  | unsized statement => exact hopened statement
  | unfit statement => exact hopened statement
  | overflowed statement => exact usesNoted_obeyed _ (hopened statement)
  | kept statement => exact usesNoted_obeyed _ (hopened statement)

/-- A literal without a place has a line where it was first used. -/
theorem UsesNoted.exists_lookup {layout : Layout} (h : layout.UsesNoted) {text : String}
    (hpending : text ∈ layout.literals.pending) :
    ∃ number, layout.firstUses.lookup text = some number := by
  refine Option.ne_none_iff_exists'.mp fun hnone => ?_
  have hname : text ∈ layout.firstUses.map Prod.fst := by
    rw [← h]
    exact (List.filter_sublist.map Prod.fst).subset hpending
  obtain ⟨use, huse, rfl⟩ := List.mem_map.mp hname
  simpa using List.lookup_eq_none_iff.mp hnone use huse

/-- A literal that is not placed is reported on a line that is not blank. -/
theorem line_of_mem_unplaced {registry : Registry} {lines : List (Nat × String)}
    {diagnostic : Diagnostic} (h : diagnostic ∈ (addLines registry {} lines).1.unplaced) :
    diagnostic.fault.leavesOut = false ∧
      ∃ line ∈ lines, line.1 = diagnostic.line ∧ LineFields.read line.2 ≠ .ok none := by
  obtain ⟨text, hpending, rfl⟩ := List.mem_map.mp h
  refine ⟨rfl, ?_⟩
  obtain ⟨number, huse⟩ := (usesNoted_addLines registry lines).exists_lookup hpending
  obtain ⟨before, after, hsplit, -⟩ := List.lookup_eq_some_iff.mp huse
  rw [huse]
  exact exists_line_of_mem_firstUses (text, number) (by rw [hsplit]; simp)

end Layout

/-! ## the faults of encoding -/

/-- Whether a fault is one that encoding a statement can report. -/
def Fault.whileEncoding : Fault → Bool
  | malformedLine _ | unresolvedReference _ | externalInShortForm _ | displacementOutOfRange _
  | operandCount _ _ | valueOutOfRange _ => true
  | _ => false

/-- Encoding says of no line that it was left out. -/
theorem Fault.leavesOut_of_whileEncoding {fault : Fault} (h : fault.whileEncoding = true) :
    fault.leavesOut = false := by
  cases fault with
  | outsideSection => cases h
  | invalidValue text => cases h
  | addressOverflow => cases h
  | _ => rfl

namespace Encoding

/-- What is reported unless all is well. -/
theorem eq_of_mem_unless {well : Prop} [Decidable well] {fault reported : Fault}
    (h : fault ∈ if well then [] else [reported]) : fault = reported := by
  split at h
  · simp at h
  · exact List.mem_singleton.mp h

theorem whileEncoding_of_mem_countFaults {instruction : Instruction} {operands : List Operand}
    {fault : Fault} (h : fault ∈ countFaults instruction operands) :
    fault.whileEncoding = true := by
  rw [eq_of_mem_unless h]
  rfl

theorem whileEncoding_of_mem_registerField {shift : Bool} {operand : Operand} {fault : Fault}
    (h : fault ∈ (registerField shift operand).2) : fault.whileEncoding = true := by
  unfold registerField at h
  split at h
  · split at h
    · simp at h
    · rw [List.mem_singleton.mp h]
      rfl
  · rw [eq_of_mem_unless h]
    rfl
  · rw [List.mem_singleton.mp h]
    rfl

theorem whileEncoding_of_mem_format2 {instruction : Instruction} {shift : Bool}
    {operands : List Operand} {fault : Fault}
    (h : fault ∈ (format2 instruction shift operands).2) : fault.whileEncoding = true := by
  obtain ⟨field, hfield, hfault⟩ := List.mem_flatMap.mp h
  obtain ⟨operand, -, rfl⟩ := List.mem_map.mp hfield
  exact whileEncoding_of_mem_registerField hfault

/-- What a displacement has to report is reported while encoding. -/
theorem whileEncoding_of_mem_displacement {sect : Section} {base : Option Nat} {counter : Nat}
    {operands : List Operand} {fault : Fault}
    (h : fault ∈ (displacement sect base counter operands).faults) :
    fault.whileEncoding = true := by
  unfold displacement at h
  split at h
  · simp at h
  · split at h
    · rw [eq_of_mem_unless h]
      rfl
    · dsimp only at h
      split at h
      · rw [List.mem_singleton.mp h]
        rfl
      · split at h
        · unfold reach at h
          dsimp only at h
          split at h
          · simp at h
          · split at h
            · rw [List.mem_singleton.mp h]
              rfl
            · split at h
              · simp at h
              · rw [List.mem_singleton.mp h]
                rfl
        · rw [List.mem_singleton.mp h]
          rfl

/-- So is what an address of the extended form has to report. -/
theorem whileEncoding_of_mem_extendedAddress {sect : Section} {start : Nat}
    {operands : List Operand} {fault : Fault}
    (h : fault ∈ (extendedAddress sect start operands).2.2) :
    fault.whileEncoding = true := by
  unfold extendedAddress at h
  split at h
  · simp at h
  · split at h
    · simp at h
    · rw [eq_of_mem_unless h]
      rfl

/-- Whatever is reported about an instruction is reported while encoding. -/
theorem whileEncoding_of_mem_ofInstruction {sect : Section} {base : Option Nat}
    {statement : Statement} {instruction : Instruction} {extended : Bool} {fault : Fault}
    (h : fault ∈ (ofInstruction sect base statement instruction extended).faults) :
    fault.whileEncoding = true := by
  unfold ofInstruction at h
  dsimp only at h
  split at h
  · rcases List.mem_append.mp h with hcount | hnone
    · exact whileEncoding_of_mem_countFaults hcount
    · simp at hnone
  · rcases List.mem_append.mp h with hcount | hfields
    · exact whileEncoding_of_mem_countFaults hcount
    · exact whileEncoding_of_mem_format2 hfields
  · rcases List.mem_append.mp h with hcount | htarget
    · exact whileEncoding_of_mem_countFaults hcount
    · exact whileEncoding_of_mem_displacement htarget
  · split at h
    · rcases List.mem_append.mp h with hcount | haddress
      · exact whileEncoding_of_mem_countFaults hcount
      · exact whileEncoding_of_mem_extendedAddress haddress
    · rcases List.mem_append.mp h with hcount | hnone
      · exact whileEncoding_of_mem_countFaults hcount
      · simp at hnone

theorem whileEncoding_of_mem_wordValue {sect : Section} {start : Nat} {operands : List Operand}
    {fault : Fault} (h : fault ∈ (wordValue sect start operands).2.2) :
    fault.whileEncoding = true := by
  unfold wordValue at h
  split at h
  · simp at h
  · split at h
    · simp at h
    · split at h
      · simp at h
      · rw [List.mem_singleton.mp h]
        rfl
  · simp at h
  · simp at h

theorem whileEncoding_of_mem_announcedBase {sect : Section} {operands : List Operand}
    {fault : Fault} (h : fault ∈ (announcedBase sect operands).2) : fault.whileEncoding = true := by
  unfold announcedBase at h
  split at h
  · simp at h
  · simp at h
  · split at h
    · simp at h
    · rw [List.mem_singleton.mp h]
      rfl

/-- Whatever is reported about a directive by then is reported while encoding. -/
theorem whileEncoding_of_mem_ofDirective {sect : Section} {base : Option Nat}
    {statement : Statement} {directive : Directive} {fault : Fault}
    (h : fault ∈ (ofDirective sect base statement directive).faults) :
    fault.whileEncoding = true := by
  cases directive with
  | extdef =>
      obtain ⟨name, -, rfl⟩ := List.mem_map.mp h
      rfl
  | byte =>
      unfold ofDirective at h
      dsimp only at h
      split at h <;> simp at h
  | word => exact whileEncoding_of_mem_wordValue h
  | ltorg =>
      unfold ofDirective at h
      dsimp only at h
      split at h <;> simp at h
  | endProgram =>
      unfold ofDirective at h
      dsimp only at h
      split at h <;> simp at h
  | base => exact whileEncoding_of_mem_announcedBase h
  | _ => cases h

/-- **Encoding has its own faults**: what it reports is of the kinds of `Fault.whileEncoding`. -/
theorem whileEncoding_of_mem_ofStatement {registry : Registry} {sect : Section} {base : Option Nat}
    {statement : Statement} {fault : Fault}
    (h : fault ∈ (ofStatement registry sect base statement).faults) :
    fault.whileEncoding = true := by
  unfold ofStatement at h
  split at h
  · split at h
    · exact whileEncoding_of_mem_ofInstruction h
    · simp at h
  · exact whileEncoding_of_mem_ofDirective h
  · simp at h

end Encoding

end SicXe
