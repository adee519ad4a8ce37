import Mathlib.Data.List.Chain
import SicXe.Proofs.SkippedLines

/-!
# SicXe.Proofs.Addresses

Where the statements of a section lie.

Whatever lines a section is laid out from, the location counter is where the last kept statement
stops (`contiguous_addLines`): a line that is given up does not move it, and a line that opens a
section, which does, is never given up once it has been read.  So a kept statement starts where the
one before it stops, or at 0 if it opens a section.  A program is cut at the lines that open one,
so inside its sections that happens nowhere but at the start (`kept_statements_tile_memory`).
-/

namespace SicXe

namespace Statement

/-- Where a statement lies behind another: at its end, or at 0 if it opens a section. -/
def Follows (previous next : Statement) : Prop :=
  next.address = if next.operator.opensSection then 0 else previous.stop

/-- The address behind the last of some statements, 0 if there are none. -/
def lastStop (statements : List Statement) : Nat :=
  (statements.getLast?.map stop).getD 0

@[simp] theorem lastStop_nil : lastStop [] = 0 := rfl

@[simp] theorem lastStop_concat (statements : List Statement) (statement : Statement) :
    lastStop (statements ++ [statement]) = statement.stop := by
  simp [lastStop]

/-- A tiling ends where its last statement does. -/
theorem Tile.lastStop_eq {start stop : Nat} {statements : List Statement}
    (h : Tile start statements stop) (hne : statements ≠ []) : lastStop statements = stop := by
  induction statements generalizing start with
  | nil => exact absurd rfl hne
  | cons first rest ih =>
      obtain ⟨-, hrest⟩ := h
      cases rest with
      | nil => exact hrest
      | cons second more =>
          have hlast := ih hrest (List.cons_ne_nil _ _)
          simpa [lastStop] using hlast

/-- Statements that tile some memory end where the memory does. -/
theorem lastStop_of_tile_zero {stop : Nat} {statements : List Statement}
    (h : Tile 0 statements stop) : lastStop statements = stop := by
  cases statements with
  | nil => exact h
  | cons first rest => exact h.lastStop_eq (List.cons_ne_nil _ _)

/-- A statement goes on a chain if it starts where the last one stops, or opens a section at zero.
-/
theorem isChain_concat {statements : List Statement} {statement : Statement}
    (h : statements.IsChain Follows)
    (hlast : statement.address =
      if statement.operator.opensSection then 0 else lastStop statements) :
    (statements ++ [statement]).IsChain Follows := by
  rw [List.isChain_append]
  refine ⟨h, List.isChain_singleton _, ?_⟩
  intro previous hprevious next hnext
  obtain rfl : next = statement := by simpa using hnext.symm
  rw [Follows, hlast, lastStop, Option.mem_def.mp hprevious]
  rfl

end Statement

namespace Layout

/-! ## what a line does to the location counter -/

section
variable {registry : Registry} {layout : Layout} {line : Nat × String}

/-- A statement that is refused because of the literals it places opens no section. -/
theorem openSection_of_overflowed {statement : Statement} {length : Nat}
    (hsized : fits (layout.placed statement length).address length = true)
    (hfits : fits (layout.placed statement length).address
      ((layout.openSection statement).resized (layout.placed statement length)).length = false) :
    layout.openSection statement = layout := by
  cases hopens : statement.operator.opensSection with
  | false => simp [openSection, hopens]
  | true =>
      have hplaces : (layout.placed statement length).placesLiterals = false := by
        rw [Statement.placesLiterals]
        show statement.operator.directive?.any Directive.placesLiterals = false
        cases hop : statement.operator with
        | directive directive =>
            rw [hop] at hopens
            cases directive with
            | start => rfl
            | csect => rfl
            | _ => cases hopens
        | _ => rfl
      -- Without literals to place it has the length that was found to fit.
      have hsame := length_resized (layout.openSection statement) (layout.placed statement length)
      rw [hplaces] at hsame
      rw [hsame] at hfits
      exact absurd (hsized.symm.trans hfits) Bool.noConfusion

/-- **A line leaves the location counter and the statements alone, or is kept.** -/
theorem rests_or_kept (registry : Registry) (layout : Layout) (line : Nat × String) :
    Rests layout (layout.addLine registry line).1 ∨
      ∃ statement length, draft registry line.1 line.2 = .ok (some statement) ∧
        fits (layout.placed statement length).address
          ((layout.openSection statement).resized
            (layout.placed statement length)).length = true ∧
        (layout.addLine registry line).1 =
          (layout.openSection statement).keep (layout.placed statement length) := by
  have hadded := added_addLine registry layout line
  generalize layout.addLine registry line = result at hadded
  cases hadded with
  | blank => exact Or.inl ⟨rfl, rfl⟩
  | unreadable => exact Or.inl ⟨rfl, rfl⟩
  | unsized statement fault events hdraft hlength =>
      rw [openSection_of_unsized hlength]
      exact Or.inl ⟨rfl, rfl⟩
  | unfit statement length events hdraft hlength hfits =>
      rw [openSection_of_unfit hlength hfits]
      exact Or.inl ⟨rfl, rfl⟩
  | overflowed statement length events hdraft hlength hfits hsized =>
      have hrests := rests_obeyed (layout.openSection statement) (layout.placed statement length)
      rw [openSection_of_overflowed hsized hfits] at hrests ⊢
      exact Or.inl hrests
  | kept statement length events hdraft hlength hfits =>
      exact Or.inr ⟨statement, length, hdraft, hfits, rfl⟩

end

/-- A kept statement is the last one, with the length it has got by then. -/
theorem statements_keep (layout : Layout) (statement : Statement) (length : Nat) :
    ((layout.openSection statement).keep (layout.placed statement length)).statements =
      layout.statements ++
        [(layout.openSection statement).resized (layout.placed statement length)] := by
  rw [keep, (rests_obeyed ..).statements, statements_openSection]

/-! ## the invariant -/

/-- Statements that lie one behind another from 0 on, as far as no section is opened, up to the
location counter. -/
structure Contiguous (layout : Layout) : Prop where
  first : ∀ statement ∈ layout.statements.head?, statement.address = 0
  follows : layout.statements.IsChain Statement.Follows
  bounded : ∀ statement ∈ layout.statements, statement.stop ≤ memorySize
  counter : layout.counter = Statement.lastStop layout.statements

/-- Keeping a statement keeps a layout contiguous. -/
theorem contiguous_keep {layout : Layout} {statement : Statement} {length : Nat}
    (h : layout.Contiguous)
    (hfits : fits (layout.placed statement length).address
      ((layout.openSection statement).resized (layout.placed statement length)).length = true) :
    ((layout.openSection statement).keep (layout.placed statement length)).Contiguous := by
  let kept := (layout.openSection statement).resized (layout.placed statement length)
  have haddress : kept.address =
      if kept.operator.opensSection then 0 else Statement.lastStop layout.statements := by
    show (layout.openSection statement).counter =
      if statement.operator.opensSection then 0 else Statement.lastStop layout.statements
    rw [openSection, ← h.counter]
    split <;> rfl
  have hstatements : ((layout.openSection statement).keep
      (layout.placed statement length)).statements = layout.statements ++ [kept] :=
    statements_keep ..
  refine ⟨?_, ?_, ?_, ?_⟩
  · rw [hstatements]
    intro first hfirst
    cases hlayout : layout.statements with
    | nil =>
        rw [hlayout] at hfirst haddress
        obtain rfl : first = kept := by simpa using hfirst.symm
        rw [haddress]
        split <;> rfl
    | cons head rest =>
        rw [hlayout] at hfirst
        exact h.first first (by simpa [hlayout] using hfirst)
  · rw [hstatements]
    exact Statement.isChain_concat h.follows haddress
  · rw [hstatements]
    intro other hmem
    rcases List.mem_append.mp hmem with hold | hnew
    · exact h.bounded other hold
    · rw [List.mem_singleton.mp hnew]
      exact of_decide_eq_true hfits
  · rw [hstatements, Statement.lastStop_concat]
    rfl

/-- **One line** keeps a layout contiguous, whether its statement is kept or not. -/
theorem contiguous_addLine (registry : Registry) {layout : Layout} (line : Nat × String)
    (h : layout.Contiguous) : (layout.addLine registry line).1.Contiguous := by
  rcases rests_or_kept registry layout line with hrests | ⟨statement, length, -, hfits, hkept⟩
  · refine ⟨?_, ?_, ?_, ?_⟩
    · rw [hrests.statements]
      exact h.first
    · rw [hrests.statements]
      exact h.follows
    · rw [hrests.statements]
      exact h.bounded
    · rw [hrests.statements, hrests.counter]
      exact h.counter
  · rw [hkept]
    exact contiguous_keep h hfits

/-- **Kept statements are contiguous** whatever the lines are. -/
theorem contiguous_addLines (registry : Registry) (lines : List (Nat × String)) :
    (addLines registry {} lines).1.Contiguous := by
  refine addLines_invariant (P := Contiguous) ?_ {} (fun h : False => h.elim)
    ⟨by simp, List.isChain_nil, by simp, rfl⟩
  intro layout line _ _ h
  exact contiguous_addLine registry line h

/-! ## lines that open no section -/

/-- Lines that open no section add statements that open none. -/
theorem statements_of_closed (registry : Registry) (layout : Layout)
    {lines : List (Nat × String)}
    (hclosed : ∀ line ∈ lines, Program.opensSection line.2 = false) :
    ∃ added, (layout.addLines registry lines).1.statements = layout.statements ++ added ∧
      ∀ statement ∈ added, statement.operator.opensSection = false := by
  refine addLines_invariant
    (P := fun next => ∃ added, next.statements = layout.statements ++ added ∧
      ∀ statement ∈ added, statement.operator.opensSection = false) ?_ layout
    (fun h : False => h.elim) ⟨[], by simp⟩
  rintro next line hmem - ⟨added, hadded, hcloses⟩
  rcases rests_or_kept registry next line with hrests | ⟨statement, length, hdraft, -, hkept⟩
  · exact ⟨added, by rw [hrests.statements, hadded], hcloses⟩
  · refine ⟨added ++ [(next.openSection statement).resized (next.placed statement length)], ?_, ?_⟩
    · rw [hkept, statements_keep, hadded, List.append_assoc]
    · intro other hother
      rcases List.mem_append.mp hother with hold | hnew
      · exact hcloses other hold
      · rw [List.mem_singleton.mp hnew]
        exact (opensSection_draft hdraft).trans (hclosed line hmem)

/-- In a section that is opened once, only the first statement can open it. -/
theorem closed_of_mem_tail {registry : Registry} {lines : List (Nat × String)}
    (honce : Program.OpenedOnce lines) :
    ∀ statement ∈ (addLines registry {} lines).1.statements.tail,
      statement.operator.opensSection = false := by
  cases lines with
  | nil => simp [addLines]
  | cons first rest =>
      have hlater : ∀ line ∈ rest, Program.opensSection line.2 = false := honce
      obtain ⟨added, hadded, hcloses⟩ :=
        statements_of_closed registry (Layout.addLine registry {} first).1 hlater
      rw [addLines, hadded]
      intro statement hmem
      rcases statements_addLine registry {} first with hnone | ⟨opening, -, hone⟩
      · rw [hnone] at hmem
        exact hcloses statement (List.mem_of_mem_tail hmem)
      · rw [hone] at hmem
        exact hcloses statement hmem

end Layout

/-- Encoding changes no operator. -/
theorem Encoding.map_operator_ofStatements (registry : Registry) (sect : Section)
    (base : Option Nat) (statements : List Statement) :
    ((ofStatements registry sect base statements).map Encoding.statement).map
        Statement.operator = statements.map Statement.operator := by
  induction statements generalizing base with
  | nil => rfl
  | cons first rest ih =>
      simp only [ofStatements, List.map_cons]
      rw [ih, operator_ofStatement]

namespace Program

/-! ## programs -/

/-- Only the first statement of a section opens it. -/
theorem closed_of_mem_tail_assembleSection {registry : Registry} {lines : List (Nat × String)}
    (honce : OpenedOnce lines) :
    ∀ statement ∈ (assembleSection registry lines).1.statements.tail,
      statement.operator.opensSection = false := by
  have hoperators : (assembleSection registry lines).1.statements.map Statement.operator =
      (layoutOf registry lines).statements.map Statement.operator :=
    Encoding.map_operator_ofStatements ..
  intro statement hmem
  have hoperator : statement.operator ∈
      ((layoutOf registry lines).statements.map Statement.operator).tail := by
    rw [← hoperators, ← List.map_tail]
    exact List.mem_map_of_mem hmem
  rw [← List.map_tail] at hoperator
  obtain ⟨laid, hlaid, hsame⟩ := List.mem_map.mp hoperator
  rw [← hsame]
  exact Layout.closed_of_mem_tail honce laid hlaid

/-- No section is longer than the memory. -/
theorem length_assembleSection_le {registry : Registry} {lines : List (Nat × String)}
    (honce : OpenedOnce lines) : (assembleSection registry lines).1.length ≤ memorySize := by
  obtain ⟨hlaid, hbound⟩ : Statement.Tile 0 (layoutOf registry lines).statements
      (layoutOf registry lines).counter ∧ (layoutOf registry lines).counter ≤ memorySize :=
    Layout.tile_layOut honce
  have htile := Encoding.tile_ofStatements registry (layoutOf registry lines).toSection none hlaid
  have hstop := htile.stop_eq
  rw [Nat.zero_add] at hstop
  rw [assembleSection_fst]
  exact hstop ▸ hbound

/-- **Kept statements tile memory.**  Whatever lines a section is laid out from, its first
statement lies at 0, every other one behind the one before it or at 0 if it opens a section, and
all of them within memory.  A section of a program is cut so that only its first line can open
it, so its statements tile the addresses from 0 to its length, which is where the last of them
stops. -/
theorem kept_statements_tile_memory (registry : Registry) :
    (∀ lines : List (Nat × String),
      (∀ first ∈ (Section.layOut registry lines).1.statements.head?, first.address = 0) ∧
      (Section.layOut registry lines).1.statements.IsChain (fun previous next =>
        next.address = if next.operator.opensSection then 0 else previous.stop) ∧
      (∀ statement ∈ (Section.layOut registry lines).1.statements,
        statement.stop ≤ memorySize)) ∧
    (∀ source : String, ∀ sect ∈ (assemble registry source).sections,
      (∃ lines ∈ (cutSections (numberedLines source)).2,
        sect = (assembleSection registry lines).1 ∧
        ∀ line ∈ lines.tail, opensSection line.2 = false) ∧
      (∀ statement ∈ sect.statements.tail, statement.operator.opensSection = false) ∧
      Statement.Tile 0 sect.statements sect.length ∧
      sect.length = (sect.statements.getLast?.map Statement.stop).getD 0 ∧
      sect.length ≤ memorySize) := by
  constructor
  · intro lines
    have h := Layout.contiguous_addLines registry lines
    exact ⟨h.first, h.follows, h.bounded⟩
  · intro source sect hsect
    obtain ⟨lines, hlines, rfl⟩ := exists_lines_of_mem_sections hsect
    have honce := openedOnce_of_mem_cutSections _ lines hlines
    have htile : Statement.Tile 0 (assembleSection registry lines).1.statements
        (assembleSection registry lines).1.length := tile_assembleSection honce
    exact ⟨⟨lines, hlines, rfl, honce⟩, closed_of_mem_tail_assembleSection honce, htile,
      (Statement.lastStop_of_tile_zero htile).symm, length_assembleSection_le honce⟩

/-- Lines that open a section twice, with one between them that cannot be read. -/
def reopened : String :=
  "MAIN\tSTART\t0\n\tLDA\t#1\n\tLDA\t,\n\tRESB\t2\nREAD\tCSECT\n\tLDA\t#2\n"

/-- Laid out as one section, `reopened` goes back to 0 at its second opening; as a program it has
two sections, each of which starts at 0 and ends where its last statement does. -/
theorem kept_statements_tile_reopened :
    (Section.layOut loadRegistry (numberedLines reopened)).1.statements.IsChain
      (fun previous next =>
        next.address = if next.operator.opensSection then 0 else previous.stop) ∧
    ((Section.layOut loadRegistry (numberedLines reopened)).1.statements.map fun statement =>
      (statement.address, statement.stop)) = [(0, 0), (0, 3), (3, 5), (0, 0), (0, 3)] ∧
    (∀ sect ∈ (assemble loadRegistry reopened).sections,
      sect.length = (sect.statements.getLast?.map Statement.stop).getD 0) ∧
    ((assemble loadRegistry reopened).sections.map Section.length) = [5, 3] := by
  obtain ⟨hlaid, hassembled⟩ := kept_statements_tile_memory loadRegistry
  refine ⟨(hlaid (numberedLines reopened)).2.1, by decide +kernel, ?_, by decide +kernel⟩
  intro sect hsect
  exact (hassembled reopened sect hsect).2.2.2.1

end Program

end SicXe
