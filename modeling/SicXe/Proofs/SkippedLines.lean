import SicXe.Proofs.Diagnostics
import SicXe.Proofs.LiteralPool

/-!
# SicXe.Proofs.SkippedLines

What a line leaves behind that is not kept as a statement.

Almost every such line leaves nothing: it is given up before the tables are touched
(`addLine_of_skipped`).  The exception is a statement that places the pending literals, whose
length is known only once they are placed.  If they do not fit into memory the statement is given
up, but they keep the addresses past the end of memory, and its label stays defined.

So the lines that are not kept can be left out without changing the section exactly if no literal
pool is lost that way (`layOut_keptLines_iff`).  That a lost pool always shows is a matter of
accounting: every literal is pending, or in the pool of a statement, or lost, so the bytes that
are missing in a section tell what was lost (`Section.missingBytes`).
-/

namespace SicXe

open Layout (literalSize)
open Encoding (literalContents)

theorem Directive.takesValue_of_opensSection {directive : Directive}
    (h : directive.opensSection = true) : directive.takesValue = false := by
  cases directive with
  | start => rfl
  | csect => rfl
  | _ => cases h

theorem Directive.takesValue_of_placesLiterals {directive : Directive}
    (h : directive.placesLiterals = true) : directive.takesValue = false := by
  cases directive with
  | ltorg => rfl
  | endProgram => rfl
  | _ => cases h

namespace Layout

/-! ## kept lines -/

/-- Whether a line is kept as a statement when it is added to a layout. -/
def keepsLine (registry : Registry) (layout : Layout) (line : Nat × String) : Bool :=
  layout.statements.length < (layout.addLine registry line).1.statements.length

/-- The lines that are kept as statements when lines are added one after another. -/
def keptLines (registry : Registry) : Layout → List (Nat × String) → List (Nat × String)
  | _, [] => []
  | layout, line :: rest =>
    let others := keptLines registry (layout.addLine registry line).1 rest
    if layout.keepsLine registry line then line :: others else others

/-- Whether a line places the pending literals and is not kept. -/
def losesPool (registry : Registry) (layout : Layout) (line : Nat × String) : Bool :=
  match draft registry line.1 line.2 with
  | .ok (some statement) => statement.placesLiterals && !layout.keepsLine registry line
  | _ => false

/-- Whether a literal pool is lost when lines are added one after another. -/
def losesPools (registry : Registry) : Layout → List (Nat × String) → Bool
  | _, [] => false
  | layout, line :: rest =>
    layout.losesPool registry line || losesPools registry (layout.addLine registry line).1 rest

/-! ## lines that are not kept -/

section
variable {registry : Registry} {layout : Layout} {line : Nat × String} {statement : Statement}

/-- A line loses a pool if it holds a statement that places literals and is not kept. -/
theorem losesPool_iff :
    layout.losesPool registry line = true ↔
      ∃ statement, draft registry line.1 line.2 = .ok (some statement) ∧
        statement.placesLiterals = true ∧ layout.keepsLine registry line = false := by
  unfold losesPool
  split
  · next drafted hdraft => simp [hdraft]
  · next hother =>
      constructor
      · intro h
        cases h
      · rintro ⟨drafted, hdraft, -⟩
        exact absurd hdraft (hother drafted)

/-- Directives of a kind that has no value take no bytes, a literal pool apart. -/
theorem lengthOf_of_directive {kind : Directive → Bool}
    (hkind : ∀ directive, kind directive = true → directive.takesValue = false)
    (h : statement.directive?.any kind = true) : lengthOf registry statement = .ok 0 := by
  rw [Statement.directive?] at h
  cases hop : statement.operator with
  | directive directive =>
      rw [hop] at h
      have hvalue := hkind directive h
      cases directive with
      | byte => cases hvalue
      | word => cases hvalue
      | resb => cases hvalue
      | resw => cases hvalue
      | _ => simp only [lengthOf, hop]
  | _ =>
      rw [hop] at h
      cases h

theorem lengthOf_of_opensSection (h : statement.operator.opensSection = true) :
    lengthOf registry statement = .ok 0 :=
  lengthOf_of_directive (fun _ => Directive.takesValue_of_opensSection) h

theorem lengthOf_of_placesLiterals (h : statement.placesLiterals = true) :
    lengthOf registry statement = .ok 0 :=
  lengthOf_of_directive (fun _ => Directive.takesValue_of_placesLiterals) h

/-- A statement without a usable length opens no section. -/
theorem openSection_of_unsized {fault : Fault}
    (hlength : lengthOf registry statement = .error fault) :
    layout.openSection statement = layout := by
  cases hopens : statement.operator.opensSection with
  | false => simp [openSection, hopens]
  | true => rw [lengthOf_of_opensSection hopens] at hlength; cases hlength

/-- A statement that is refused because of its own length opens no section. -/
theorem openSection_of_unfit {length : Nat} (hlength : lengthOf registry statement = .ok length)
    (hfits : fits (layout.placed statement length).address length = false) :
    layout.openSection statement = layout := by
  cases hopens : statement.operator.opensSection with
  | false => simp [openSection, hopens]
  | true =>
      rw [lengthOf_of_opensSection hopens, Except.ok.injEq] at hlength
      subst hlength
      simp [fits, placed, openSection, hopens] at hfits

/-- **Lines that are not kept leave nothing behind**, unless they lose a literal pool. -/
theorem addLine_of_skipped (hskipped : layout.keepsLine registry line = false)
    (hpool : layout.losesPool registry line = false) :
    (layout.addLine registry line).1 = layout := by
  have hstatements : ¬ layout.statements.length <
      (layout.addLine registry line).1.statements.length := by
    simpa only [keepsLine, decide_eq_false_iff_not] using hskipped
  have hadded := added_addLine registry layout line
  generalize layout.addLine registry line = result at hadded hstatements
  cases hadded with
  | blank => rfl
  | unreadable => rfl
  | unsized statement fault events hdraft hlength => exact openSection_of_unsized hlength
  | unfit statement length events hdraft hlength hfits =>
      exact openSection_of_unfit hlength hfits
  | overflowed statement length events hdraft hlength hfits hsized =>
      have hplaces : statement.placesLiterals = false := by
        simpa [losesPool, hdraft, hskipped] using hpool
      -- A statement that places no literals keeps the length it was found to fit with.
      have hsame := length_resized (layout.openSection statement) (layout.placed statement length)
      rw [show (layout.placed statement length).placesLiterals = false from hplaces] at hsame
      rw [hsame] at hfits
      exact absurd (hsized.symm.trans hfits) Bool.noConfusion
  | kept statement length events hdraft hlength hfits =>
      apply absurd _ hstatements
      rw [keep, (rests_obeyed ..).statements, statements_openSection, List.length_append]
      exact Nat.lt_succ_self _

end

/-- Adding the kept lines alone comes to the same if no literal pool is lost. -/
theorem addLines_keptLines {registry : Registry} {layout : Layout} {lines : List (Nat × String)}
    (h : losesPools registry layout lines = false) :
    (layout.addLines registry (keptLines registry layout lines)).1 =
      (layout.addLines registry lines).1 := by
  induction lines generalizing layout with
  | nil => rfl
  | cons line rest ih =>
      rw [losesPools, Bool.or_eq_false_iff] at h
      have hrest := ih h.2
      cases hkeeps : layout.keepsLine registry line with
      | true =>
          simp only [keptLines, hkeeps, if_true, addLines]
          exact hrest
      | false =>
          rw [addLine_of_skipped hkeeps h.1] at hrest
          simp only [keptLines, hkeeps, addLine_of_skipped hkeeps h.1, addLines]
          exact hrest

end Layout

/-! ## the bytes of lost pools -/

/-- How many bytes literals take, placed or pending. -/
def literalBytes (entries : List (String × Option Nat)) : Nat :=
  (entries.flatMap fun entry => literalContents entry.1).length

/-- How many bytes the literal pools among statements take. -/
def poolBytes (statements : List Statement) : Nat :=
  Statement.totalLength (statements.filter Statement.placesLiterals)

/-- How many bytes of its literals a section has neither pending nor in a pool. -/
def Section.missingBytes (sect : Section) : Int :=
  literalBytes sect.literals.entries - (pendingContents sect.literals.entries).length -
    poolBytes sect.statements

/-- Placing literals does not change how many bytes they have. -/
theorem literalBytes_placeFrom (entries : List (String × Option Nat)) (address : Nat) :
    literalBytes (AddressTable.placeFrom literalSize address entries).1 = literalBytes entries := by
  induction entries generalizing address with
  | nil => rfl
  | cons entry rest ih =>
      obtain ⟨name, _ | located⟩ := entry
      · simpa [AddressTable.placeFrom, literalBytes] using ih (address + literalSize name)
      · simpa [AddressTable.placeFrom, literalBytes] using ih address

theorem pendingContents_placeFrom (entries : List (String × Option Nat)) (address : Nat) :
    pendingContents (AddressTable.placeFrom literalSize address entries).1 = [] := by
  induction entries generalizing address with
  | nil => rfl
  | cons entry rest ih =>
      obtain ⟨name, _ | located⟩ := entry
      · simpa [AddressTable.placeFrom, pendingContents] using ih (address + literalSize name)
      · simpa [AddressTable.placeFrom, pendingContents] using ih address

/-- A statement adds its length to the pools, if it places literals. -/
theorem poolBytes_concat (statements : List Statement) (statement : Statement) :
    poolBytes (statements ++ [statement]) =
      poolBytes statements + if statement.placesLiterals then statement.length else 0 := by
  unfold poolBytes
  induction statements with
  | nil => cases h : statement.placesLiterals <;> simp [h, Statement.totalLength]
  | cons first rest ih =>
      cases h : first.placesLiterals with
      | true =>
          simp only [List.cons_append, List.filter_cons, h, if_true, Statement.totalLength, ih,
            Nat.add_assoc]
      | false => simpa [List.filter_cons, h] using ih

namespace Layout

section
variable {registry : Registry} {layout : Layout} {line : Nat × String} {statement : Statement}

/-- The pending literals take the bytes of the statement that places them. -/
theorem length_resized_of_places (hplaces : statement.placesLiterals = true) :
    (layout.resized statement).length =
      (pendingContents (layout.defined statement).literals.entries).length := by
  rw [length_resized, hplaces, if_pos rfl, AddressTable.placePending, placeFrom_snd]
  exact Nat.add_sub_cancel_left ..

/-- The bytes that are missing, counted before the pending literals are placed. -/
theorem missingBytes_defined (layout : Layout) (statement : Statement) :
    (literalBytes (layout.defined statement).literals.entries : Int) -
        (pendingContents (layout.defined statement).literals.entries).length -
        poolBytes layout.statements = layout.missingBytes := by
  rcases literals_defined layout statement with hsame | ⟨value, -, -, hnew⟩
  · rw [hsame]
    rfl
  · rw [hnew, Section.missingBytes]
    simp only [literalBytes, pendingContents, List.flatMap_append, List.length_append,
      List.flatMap_cons, List.flatMap_nil, List.append_nil, Option.isNone_none, if_true]
    omega

/-- A statement that is given up after its literals are placed takes their bytes with it. -/
theorem missingBytes_obeyed (hplaces : statement.placesLiterals = true) :
    (layout.obeyed statement).missingBytes =
      layout.missingBytes + (layout.resized statement).length := by
  have hdefined := missingBytes_defined layout statement
  rw [Section.missingBytes, literals_obeyed, hplaces, if_pos rfl, (rests_obeyed ..).statements,
    length_resized_of_places hplaces, AddressTable.placePending, literalBytes_placeFrom,
    pendingContents_placeFrom, List.length_nil]
  omega

/-- A statement that is kept misses nothing. -/
theorem missingBytes_keep (layout : Layout) (statement : Statement) :
    (layout.keep statement).missingBytes = layout.missingBytes := by
  have hplaced : (layout.resized statement).placesLiterals = statement.placesLiterals := rfl
  rw [Section.missingBytes, keep]
  dsimp only
  rw [(rests_obeyed ..).statements, poolBytes_concat, hplaced]
  cases hplaces : statement.placesLiterals with
  | true =>
      have hobeyed : (layout.obeyed statement).missingBytes = _ := missingBytes_obeyed hplaces
      rw [Section.missingBytes, (rests_obeyed ..).statements] at hobeyed
      rw [if_pos rfl]
      omega
  | false =>
      have hdefined := missingBytes_defined layout statement
      rw [literals_obeyed, hplaces]
      exact hdefined

theorem missingBytes_openSection (layout : Layout) (statement : Statement) :
    (layout.openSection statement).missingBytes = layout.missingBytes := by
  rw [Section.missingBytes, literals_openSection, statements_openSection]
  rfl

/-- A line that is kept misses nothing. -/
theorem missingBytes_of_keepsLine (h : layout.keepsLine registry line = true) :
    (layout.addLine registry line).1.missingBytes = layout.missingBytes := by
  have hmore : layout.statements.length < (layout.addLine registry line).1.statements.length :=
    of_decide_eq_true h
  have hadded := added_addLine registry layout line
  generalize layout.addLine registry line = result at hadded hmore
  cases hadded with
  | kept =>
      dsimp only
      rw [missingBytes_keep, missingBytes_openSection]
  | overflowed =>
      rw [(rests_obeyed ..).statements, statements_openSection] at hmore
      exact absurd hmore (Nat.lt_irrefl _)
  | unsized =>
      rw [statements_openSection] at hmore
      exact absurd hmore (Nat.lt_irrefl _)
  | unfit =>
      rw [statements_openSection] at hmore
      exact absurd hmore (Nat.lt_irrefl _)
  | _ => exact absurd hmore (Nat.lt_irrefl _)

/-- A line that loses no literal pool misses nothing. -/
theorem missingBytes_addLine (h : layout.losesPool registry line = false) :
    (layout.addLine registry line).1.missingBytes = layout.missingBytes := by
  cases hkeeps : layout.keepsLine registry line with
  | true => exact missingBytes_of_keepsLine hkeeps
  | false => rw [addLine_of_skipped hkeeps h]

/-- A line that loses one leaves bytes missing. -/
theorem missingBytes_of_losesPool (hcounter : layout.counter ≤ memorySize)
    (h : layout.losesPool registry line = true) :
    layout.missingBytes < (layout.addLine registry line).1.missingBytes := by
  obtain ⟨lost, hlost, hplaces, hskipped⟩ := losesPool_iff.mp h
  unfold keepsLine at hskipped
  have hadded := added_addLine registry layout line
  generalize layout.addLine registry line = result at hadded hskipped
  cases hadded with
  | blank hdraft => cases hlost.symm.trans hdraft
  | unreadable fault hdraft => cases hlost.symm.trans hdraft
  | unsized statement fault events hdraft hlength =>
      cases hlost.symm.trans hdraft
      rw [lengthOf_of_placesLiterals hplaces] at hlength
      cases hlength
  | unfit statement length events hdraft hlength hfits =>
      cases hlost.symm.trans hdraft
      have hopen := openSection_of_unfit hlength hfits
      rw [lengthOf_of_placesLiterals hplaces, Except.ok.injEq] at hlength
      subst hlength
      rw [placed, hopen] at hfits
      exact absurd hcounter (of_decide_eq_false hfits)
  | overflowed statement length events hdraft hlength hfits hsized =>
      cases hlost.symm.trans hdraft
      have hplaced : (layout.placed lost length).placesLiterals = true := hplaces
      have hlong := of_decide_eq_false hfits
      have hshort := of_decide_eq_true hsized
      dsimp only
      rw [missingBytes_obeyed hplaced, missingBytes_openSection]
      omega
  | kept =>
      simp [keep, (rests_obeyed ..).statements, statements_openSection] at hskipped

/-- The counter stays within the memory. -/
theorem counter_addLine_le (h : layout.counter ≤ memorySize) :
    (layout.addLine registry line).1.counter ≤ memorySize := by
  have hopen : ∀ statement, (layout.openSection statement).counter ≤ memorySize := by
    intro statement
    unfold openSection
    split
    · exact Nat.zero_le _
    · exact h
  have hadded := added_addLine registry layout line
  generalize layout.addLine registry line = result at hadded
  cases hadded with
  | blank => exact h
  | unreadable => exact h
  | unsized statement => exact hopen statement
  | unfit statement => exact hopen statement
  | overflowed statement =>
      rw [(rests_obeyed ..).counter]
      exact hopen statement
  | kept statement length events hdraft hlength hfits => exact of_decide_eq_true hfits

end

/-! ## runs of lines -/

section
variable {registry : Registry} {layout : Layout} {lines : List (Nat × String)}

/-- As long as no pool is lost, no byte of a literal goes missing. -/
theorem missingBytes_addLines (h : losesPools registry layout lines = false) :
    (layout.addLines registry lines).1.missingBytes = layout.missingBytes := by
  induction lines generalizing layout with
  | nil => rfl
  | cons line rest ih =>
      rw [losesPools, Bool.or_eq_false_iff] at h
      exact (ih h.2).trans (missingBytes_addLine h.1)

/-- If a pool is lost, some bytes of literals go missing for good. -/
theorem missingBytes_addLines_of_losesPools (hcounter : layout.counter ≤ memorySize)
    (h : losesPools registry layout lines = true) :
    layout.missingBytes < (layout.addLines registry lines).1.missingBytes := by
  induction lines generalizing layout with
  | nil => cases h
  | cons line rest ih =>
      have hnext : (layout.addLine registry line).1.counter ≤ memorySize :=
        counter_addLine_le hcounter
      simp only [addLines]
      cases hrest : losesPools registry (layout.addLine registry line).1 rest with
      | true =>
          have hlater := ih hnext hrest
          cases hfirst : layout.losesPool registry line with
          | true => exact Int.lt_trans (missingBytes_of_losesPool hcounter hfirst) hlater
          | false =>
              rw [← missingBytes_addLine hfirst]
              exact hlater
      | false =>
          rw [losesPools, hrest, Bool.or_false] at h
          rw [missingBytes_addLines hrest]
          exact missingBytes_of_losesPool hcounter h

/-- As many statements are added as lines are kept. -/
theorem length_statements_addLines :
    (layout.addLines registry lines).1.statements.length =
      layout.statements.length + (keptLines registry layout lines).length := by
  induction lines generalizing layout with
  | nil => rfl
  | cons line rest ih =>
      simp only [addLines, keptLines]
      rw [ih]
      rcases statements_addLine registry layout line with hsame | ⟨statement, -, hmore⟩
      · have hskips : layout.keepsLine registry line = false := by simp [keepsLine, hsame]
        simp [hskips, hsame]
      · have hkeeps : layout.keepsLine registry line = true := by simp [keepsLine, hmore]
        simp only [hkeeps, hmore, if_true, List.length_append, List.length_cons, List.length_nil]
        omega

theorem length_keptLines_le : (keptLines registry layout lines).length ≤ lines.length := by
  induction lines generalizing layout with
  | nil => exact Nat.le_refl _
  | cons line rest ih =>
      have hrest : (keptLines registry (layout.addLine registry line).1 rest).length ≤
          rest.length := ih
      simp only [keptLines]
      split
      · simp only [List.length_cons]; omega
      · simp only [List.length_cons]; omega

/-- Where every line is kept, no literal pool is lost. -/
theorem losesPools_of_length_keptLines
    (h : (keptLines registry layout lines).length = lines.length) :
    losesPools registry layout lines = false := by
  induction lines generalizing layout with
  | nil => rfl
  | cons line rest ih =>
      have hle : (keptLines registry (layout.addLine registry line).1 rest).length ≤ rest.length :=
        length_keptLines_le
      rw [losesPools, Bool.or_eq_false_iff]
      simp only [keptLines] at h
      split at h
      · next hkeeps =>
          refine ⟨?_, ih (Nat.succ.inj h)⟩
          unfold losesPool
          rw [hkeeps]
          split
          · exact Bool.and_false _
          · rfl
      · rw [List.length_cons] at h
        omega

end

end Layout

namespace Section

/-- The lines that are kept as statements when a section is laid out. -/
def keptLines (registry : Registry) (lines : List (Nat × String)) : List (Nat × String) :=
  Layout.keptLines registry {} lines

/-- Whether a literal pool is lost when a section is laid out: a statement that places the pending
literals is not kept. -/
def losesPools (registry : Registry) (lines : List (Nat × String)) : Bool :=
  Layout.losesPools registry {} lines

/-- **Skipped lines leave no trace unless they lose a literal pool.**  Laying out the kept lines of
a section alone gives the same section exactly if no literal pool is lost. -/
theorem layOut_keptLines_iff (registry : Registry) (lines : List (Nat × String)) :
    (layOut registry (keptLines registry lines)).1 = (layOut registry lines).1 ↔
      losesPools registry lines = false := by
  constructor
  · intro hsame
    -- If the sections agree, every kept line is kept again, so no bytes are missing.
    have hcounts : (Layout.addLines registry {} (keptLines registry lines)).1.statements.length =
        (Layout.addLines registry {} lines).1.statements.length :=
      congrArg (fun sect => sect.statements.length) hsame
    rw [Layout.length_statements_addLines, Layout.length_statements_addLines] at hcounts
    have hagain : Layout.losesPools registry {} (keptLines registry lines) = false :=
      Layout.losesPools_of_length_keptLines (Nat.add_left_cancel hcounts)
    have hmissing : (Layout.addLines registry {} (keptLines registry lines)).1.missingBytes =
        (Layout.addLines registry {} lines).1.missingBytes := congrArg missingBytes hsame
    rw [Layout.missingBytes_addLines hagain] at hmissing
    cases hloses : losesPools registry lines with
    | false => rfl
    | true =>
        have hless := Layout.missingBytes_addLines_of_losesPools (Nat.zero_le memorySize) hloses
        rw [← hmissing] at hless
        exact absurd hless (Int.lt_irrefl _)
  · intro hkept
    exact congrArg Layout.toSection (Layout.addLines_keptLines hkept)

/-- Lines that fill memory before the pending literal is placed. -/
def fullMemory : List (Nat × String) :=
  [(1, "P\tSTART\t0"), (2, "\tLDA\t=C'EOF'"), (3, "\tRESB\t1048573"), (4, "POOL\tLTORG")]

/-- A literal pool that does not fit leaves its label and the addresses of its literals. -/
theorem not_layOut_keptLines :
    ¬ ∀ (registry : Registry) (lines : List (Nat × String)),
      (layOut registry (keptLines registry lines)).1 = (layOut registry lines).1 := by
  intro h
  have hsymbols := congrArg Section.symbols (h Program.loadRegistry fullMemory)
  revert hsymbols
  decide +kernel

end Section

end SicXe
