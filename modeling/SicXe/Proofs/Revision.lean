import Mathlib.Data.List.Forall2
import SicXe.Proofs.LineOutcomes

/-!
# SicXe.Proofs.Revision

Lines that stand elsewhere in a source text and have other comments.

The number of a line and its comment are kept for the reader and do nothing else: a section of
revised lines is the same section with its statements revised, and what is reported about it is the
same with the lines renumbered (`Program.assembleSection_revise`).  Each step of laying out and of
encoding is shown to commute with a revision, and the whole follows the recursion of the steps.
-/

namespace SicXe

/-- A revision of numbered lines. -/
structure Revision where
  /-- The number a line gets. -/
  line : Nat → Nat
  /-- The comment that the line of a number gets for the one it had. -/
  comment : Nat → Option String → Option String

/-! ## what is revised -/

/-- The fields of a revised line. -/
def LineFields.revise (revision : Revision) (number : Nat) (fields : LineFields) : LineFields :=
  { fields with comment := revision.comment number fields.comment }

/-- A statement of a revised line. -/
def Statement.revise (revision : Revision) (statement : Statement) : Statement :=
  { statement with
    line := revision.line statement.line
    comment := revision.comment statement.line statement.comment }

/-- A diagnostic about a revised line. -/
def Diagnostic.revise (revision : Revision) (diagnostic : Diagnostic) : Diagnostic :=
  { diagnostic with line := revision.line diagnostic.line }

/-- What happens with a revised line. -/
def Event.revise (revision : Revision) : Event → Event
  | located operator line address length => located operator (revision.line line) address length
  | encoded operator line address code => encoded operator (revision.line line) address code
  | event => event

/-- The journal of revised lines. -/
def Journal.revise (revision : Revision) (journal : Journal) : Journal :=
  ⟨journal.diagnostics.map (Diagnostic.revise revision), journal.events.map (Event.revise revision)⟩

/-- A section of revised lines. -/
def Section.revise (revision : Revision) (sect : Section) : Section :=
  { sect with statements := sect.statements.map (Statement.revise revision) }

/-- A section in the making of revised lines. -/
def Layout.revise (revision : Revision) (layout : Layout) : Layout :=
  { layout with
    statements := layout.statements.map (Statement.revise revision)
    firstUses := layout.firstUses.map fun use => (use.1, revision.line use.2) }

/-- The encoding of a statement of a revised line. -/
def Encoding.revise (revision : Revision) (encoding : Encoding) : Encoding :=
  { encoding with statement := encoding.statement.revise revision }

/-- Whether the second line is the first one revised. -/
structure Revision.Carries (revision : Revision) (line revised : Nat × String) : Prop where
  number : revised.1 = revision.line line.1
  fields : LineFields.read revised.2 =
    (LineFields.read line.2).map (Option.map (LineFields.revise revision line.1))

section
variable (revision : Revision)

namespace Statement

variable (statement : Statement)

@[simp] theorem line_revise :
    (statement.revise revision).line = revision.line statement.line := rfl

@[simp] theorem label_revise : (statement.revise revision).label = statement.label := rfl

@[simp] theorem operator_revise :
    (statement.revise revision).operator = statement.operator := rfl

@[simp] theorem directive?_revise :
    (statement.revise revision).directive? = statement.directive? := rfl

@[simp] theorem address_revise : (statement.revise revision).address = statement.address := rfl

@[simp] theorem length_revise : (statement.revise revision).length = statement.length := rfl

@[simp] theorem code_revise : (statement.revise revision).code = statement.code := rfl

end Statement

@[simp] theorem Layout.counter_revise (layout : Layout) :
    (layout.revise revision).counter = layout.counter := rfl

/-- The length of a statement has nothing to do with its number and its comment. -/
@[simp] theorem Layout.lengthOf_revise (registry : Registry) (statement : Statement) :
    lengthOf registry (statement.revise revision) = lengthOf registry statement := rfl

namespace Diagnostic

@[simp] theorem line_revise (diagnostic : Diagnostic) :
    (diagnostic.revise revision).line = revision.line diagnostic.line := rfl

@[simp] theorem fault_revise (diagnostic : Diagnostic) :
    (diagnostic.revise revision).fault = diagnostic.fault := rfl

end Diagnostic

namespace Journal

/-- A journal is revised entry by entry. -/
@[simp] theorem revise_append (first second : Journal) :
    (first ++ second).revise revision = first.revise revision ++ second.revise revision := by
  simp only [revise, diagnostics_append, events_append, List.map_append]
  rfl

/-- What is noted about a line is noted about the revised one under its new number. -/
@[simp] theorem revise_ofLine (line : Nat) (faults : List Fault) (events : List Event) :
    (ofLine line faults events).revise revision =
      ofLine (revision.line line) faults (events.map (Event.revise revision)) := by
  simp only [revise, ofLine, List.map_map]
  rfl

end Journal

namespace Layout

/-! ## laying out -/

variable (registry : Registry) (layout : Layout) (statement : Statement)

/-- Revised fields make a revised statement. -/
theorem draftFields_revise (number : Nat) (fields : LineFields) :
    draftFields registry (revision.line number) (fields.revise revision number) =
      (draftFields registry number fields).map (Statement.revise revision) := by
  simp only [draftFields, LineFields.revise]
  split
  · rfl
  · split <;> rfl

/-- A revised line makes a revised statement, or none just as before. -/
theorem draft_revise {line revised : Nat × String} (h : revision.Carries line revised) :
    draft registry revised.1 revised.2 =
      (draft registry line.1 line.2).map (Option.map (Statement.revise revision)) := by
  rw [h.number]
  unfold draft
  rw [h.fields]
  cases LineFields.read line.2 with
  | error error => rfl
  | ok read =>
      cases read with
      | none => rfl
      | some fields =>
          simp only [Except.map, Option.map, draftFields_revise]
          cases draftFields registry line.1 fields <;> rfl

/-- A revised statement opens a section if it did before. -/
theorem openSection_revise :
    (layout.revise revision).openSection (statement.revise revision) =
      (layout.openSection statement).revise revision := by
  cases hopens : statement.operator.opensSection with
  | true => simp [openSection, Statement.revise, hopens, revise]
  | false => simp [openSection, Statement.revise, hopens]

/-- Labels are defined alike. -/
theorem defineLabel_revise :
    (layout.revise revision).defineLabel (statement.revise revision) =
      (layout.defineLabel statement).revise revision := by
  simp only [defineLabel, Statement.revise]
  split
  · rfl
  · simp only [revise]
    split <;> rfl

/-- A literal is noted with the new number of the line that uses it first. -/
theorem noteLiteral_revise :
    (layout.revise revision).noteLiteral (statement.revise revision) =
      (layout.noteLiteral statement).revise revision := by
  simp only [noteLiteral, Statement.revise]
  split
  · rfl
  · simp only [revise]
    split
    · simp
    · rfl

/-- What `EQU` sets does not depend on lines at all. -/
theorem equate_revise (label : String) (operands : List Operand) :
    (layout.revise revision).equate label operands =
      (layout.equate label operands).revise revision := by
  simp only [equate, revise]
  split
  · split <;> rfl
  · rfl

/-- Directives are obeyed alike. -/
theorem obeyDirective_revise (labeled : Bool) :
    (layout.revise revision).obeyDirective (statement.revise revision) labeled =
      (layout.obeyDirective statement labeled).revise revision := by
  simp only [obeyDirective, Statement.directive?, Statement.revise]
  split
  · rfl
  · split
    · exact equate_revise ..
    · rfl
  · split <;> rfl
  · rfl

/-- Label and literal together. -/
theorem defined_revise :
    (layout.revise revision).defined (statement.revise revision) =
      (layout.defined statement).revise revision := by
  rw [defined, defineLabel_revise, noteLiteral_revise]
  rfl

/-- All that a statement does to the tables. -/
theorem obeyed_revise :
    (layout.revise revision).obeyed (statement.revise revision) =
      (layout.obeyed statement).revise revision := by
  rw [obeyed, defined_revise]
  exact obeyDirective_revise ..

/-- A revised statement gets the same room for the literals that it places. -/
theorem resized_revise :
    (layout.revise revision).resized (statement.revise revision) =
      (layout.resized statement).revise revision := by
  rw [resized, defined_revise]
  rfl

/-- A revised statement is kept where the statement was. -/
theorem keep_revise :
    (layout.revise revision).keep (statement.revise revision) =
      (layout.keep statement).revise revision := by
  rw [keep, obeyed_revise, resized_revise]
  simp [keep, revise, Statement.revise, Statement.stop]

/-- The same is wrong with a revised statement. -/
theorem enterFaults_revise :
    (layout.revise revision).enterFaults (statement.revise revision) =
      layout.enterFaults statement := by
  rw [enterFaults, defined_revise]
  rfl

/-- Opening a section is told alike. -/
theorem openingEvents_revise :
    openingEvents (statement.revise revision) =
      (openingEvents statement).map (Event.revise revision) := by
  by_cases hopens : statement.operator.opensSection = true
  · simp [openingEvents, hopens, Event.revise]
  · simp [openingEvents, hopens]

/-- Placing literals is told alike. -/
theorem placementEvents_revise (length : Nat) :
    placementEvents (statement.revise revision) length =
      (placementEvents statement length).map (Event.revise revision) := by
  unfold placementEvents
  rw [Statement.directive?_revise]
  split <;> rfl

/-- A layout of revised lines and the journal of them. -/
def reviseBoth (result : Layout × Journal) : Layout × Journal :=
  (result.1.revise revision, result.2.revise revision)

/-- A revised statement fits into memory if it did before, and does the same either way. -/
theorem enter_revise :
    (layout.revise revision).enter (statement.revise revision) =
      reviseBoth revision (layout.enter statement) := by
  have hfits : fits (statement.revise revision).address
      ((layout.revise revision).resized (statement.revise revision)).length =
        fits statement.address (layout.resized statement).length := by
    rw [resized_revise, Statement.address_revise, Statement.length_revise]
  cases hcase : fits statement.address (layout.resized statement).length with
  | true =>
      rw [enter_of_fits (hfits.trans hcase), enter_of_fits hcase, keep_revise, enterFaults_revise,
        resized_revise, placementEvents_revise, reviseBoth, Journal.revise_ofLine, List.map_append]
      rfl
  | false =>
      rw [enter_of_not_fits (hfits.trans hcase), enter_of_not_fits hcase, obeyed_revise,
        enterFaults_revise, resized_revise, placementEvents_revise, reviseBoth,
        Journal.revise_ofLine]
      rfl

/-- Laying out one statement commutes with a revision. -/
theorem addStatement_revise :
    (layout.revise revision).addStatement registry (statement.revise revision) =
      reviseBoth revision (layout.addStatement registry statement) := by
  have hopening : Journal.ofLine (statement.revise revision).line []
      (openingEvents (statement.revise revision)) =
        (Journal.ofLine statement.line [] (openingEvents statement)).revise revision := by
    rw [Journal.revise_ofLine, openingEvents_revise, Statement.line_revise]
  simp only [addStatement, openSection_revise, hopening, lengthOf_revise, counter_revise]
  cases lengthOf registry statement with
  | error fault => simp [reviseBoth]
  | ok length =>
      dsimp only
      split
      · have hplaced : { statement.revise revision with
            address := (layout.openSection statement).counter, length } =
          Statement.revise revision
            { statement with address := (layout.openSection statement).counter, length } := rfl
        rw [hplaced, enter_revise]
        simp only [reviseBoth, Journal.revise_append]
      · simp [reviseBoth]

/-- **One line**: laying it out commutes with a revision, whatever becomes of it. -/
theorem addLine_revise {line revised : Nat × String} (h : revision.Carries line revised) :
    (layout.revise revision).addLine registry revised =
      reviseBoth revision (layout.addLine registry line) := by
  unfold addLine
  rw [draft_revise revision registry h]
  cases draft registry line.1 line.2 with
  | error fault =>
      simp only [Except.map, reviseBoth, Journal.revise_ofLine, List.map_nil, h.number]
  | ok drafted =>
      cases drafted with
      | none => rfl
      | some statement => exact addStatement_revise ..

/-- **All lines**, one after the other. -/
theorem addLines_revise {lines revised : List (Nat × String)}
    (h : List.Forall₂ revision.Carries lines revised) :
    (layout.revise revision).addLines registry revised =
      reviseBoth revision (layout.addLines registry lines) := by
  induction h generalizing layout with
  | nil => rfl
  | cons hline hrest ih =>
      simp only [addLines, addLine_revise revision registry layout hline, reviseBoth, ih,
        Journal.revise_append]

/-- A lookup finds the new number under the same name. -/
theorem lookup_map_snd {f : Nat → Nat} (uses : List (String × Nat)) (text : String) :
    (uses.map fun use => (use.1, f use.2)).lookup text = (uses.lookup text).map f := by
  induction uses with
  | nil => rfl
  | cons use rest ih =>
      rw [List.map_cons, List.lookup_cons, List.lookup_cons, ih]
      split <;> rfl

/-- Every literal has a first use, so none is reported on a line that is not there. -/
theorem unplaced_revise {layout : Layout} (h : layout.UsesNoted) :
    (layout.revise revision).unplaced = layout.unplaced.map (Diagnostic.revise revision) := by
  unfold unplaced
  rw [List.map_map]
  apply List.map_congr_left
  intro text hpending
  obtain ⟨number, huse⟩ := h.exists_lookup hpending
  have hrevised : (layout.revise revision).firstUses.lookup text =
      some (revision.line number) := by
    rw [revise, lookup_map_snd, huse, Option.map_some]
  simp only [hrevised, huse, Function.comp_apply]
  rfl

end Layout

namespace Encoding

/-! ## encoding -/

variable (registry : Registry) (sect : Section) (base : Option Nat) (statement : Statement)

/-- Instructions are encoded alike. -/
theorem ofInstruction_revise (instruction : Instruction) (extended : Bool) :
    ofInstruction (sect.revise revision) base (statement.revise revision) instruction extended =
      (ofInstruction sect base statement instruction extended).revise revision := by
  simp only [ofInstruction, Statement.revise]
  split
  · rfl
  · rfl
  · rfl
  · split <;> rfl

/-- Directives are encoded alike. -/
theorem ofDirective_revise (directive : Directive) :
    ofDirective (sect.revise revision) base (statement.revise revision) directive =
      (ofDirective sect base statement directive).revise revision := by
  -- The two directives that place literals are encoded alike.
  have hplaces : ofDirective (sect.revise revision) base (statement.revise revision) .ltorg =
      (ofDirective sect base statement .ltorg).revise revision := by
    have hpool : poolContents (sect.revise revision) (statement.revise revision).address
        (statement.revise revision).stop =
          poolContents sect statement.address statement.stop := rfl
    simp only [ofDirective, hpool]
    by_cases hempty : poolContents sect statement.address statement.stop = []
    · rw [if_pos hempty, if_pos hempty]
      rfl
    · rw [if_neg hempty, if_neg hempty]
      rfl
  cases directive with
  | byte => simp only [ofDirective, Statement.revise]; split <;> rfl
  | ltorg => exact hplaces
  | endProgram => exact hplaces
  | _ => rfl

/-- **One statement**: encoding it commutes with a revision. -/
theorem ofStatement_revise :
    ofStatement registry (sect.revise revision) base (statement.revise revision) =
      (ofStatement registry sect base statement).revise revision := by
  simp only [ofStatement, Statement.operator_revise]
  split
  · split
    · exact ofInstruction_revise ..
    · rfl
  · exact ofDirective_revise ..
  · rfl

/-- **All statements**: the base register passes from one to the next as before. -/
theorem ofStatements_revise (statements : List Statement) :
    ofStatements registry (sect.revise revision) base
        (statements.map (Statement.revise revision)) =
      (ofStatements registry sect base statements).map (revise revision) := by
  induction statements generalizing base with
  | nil => rfl
  | cons first rest ih =>
      simp only [List.map_cons, ofStatements]
      rw [ofStatement_revise]
      exact congrArg _ (ih _)

/-- The faults of an encoding are reported on the new line. -/
theorem diagnostics_revise (encoding : Encoding) :
    (encoding.revise revision).diagnostics =
      encoding.diagnostics.map (Diagnostic.revise revision) := by
  rw [diagnostics, diagnostics, List.map_map]
  rfl

/-- An encoding is told with the new number. -/
theorem event?_revise (encoding : Encoding) :
    (encoding.revise revision).event? = encoding.event?.map (Event.revise revision) := by
  by_cases hcode : encoding.statement.code = []
  · simp [event?, revise, hcode]
  · simp [event?, revise, hcode, Event.revise]

end Encoding

/-- Revised statements are as long as they were. -/
theorem Statement.totalLength_revise (statements : List Statement) :
    totalLength (statements.map (revise revision)) = totalLength statements := by
  induction statements with
  | nil => rfl
  | cons first rest ih => rw [List.map_cons, totalLength, ih]; rfl

/-! ## sections -/

/-- A section of revised lines and the journal of them. -/
def Section.reviseBoth (result : Section × Journal) : Section × Journal :=
  (result.1.revise revision, result.2.revise revision)

/-- The code of a section of revised lines is the code it had. -/
theorem Section.generate_revise (registry : Registry) (sect : Section) :
    (sect.revise revision).generate registry = reviseBoth revision (sect.generate registry) := by
  have hencodings : Encoding.ofStatements registry (sect.revise revision) none
      (sect.revise revision).statements =
        (Encoding.ofStatements registry sect none sect.statements).map
          (Encoding.revise revision) := Encoding.ofStatements_revise ..
  simp only [generate, hencodings]
  generalize Encoding.ofStatements registry sect none sect.statements = encodings
  have hstatements : (encodings.map (Encoding.revise revision)).map Encoding.statement =
      (encodings.map Encoding.statement).map (Statement.revise revision) := by
    rw [List.map_map, List.map_map]
    rfl
  have hrelocations : (encodings.map (Encoding.revise revision)).flatMap Encoding.relocations =
      encodings.flatMap Encoding.relocations := List.flatMap_map ..
  have hdiagnostics : (encodings.map (Encoding.revise revision)).flatMap Encoding.diagnostics =
      (encodings.flatMap Encoding.diagnostics).map (Diagnostic.revise revision) := by
    rw [List.flatMap_map, List.map_flatMap]
    simp only [Encoding.diagnostics_revise]
  have hevents : (encodings.map (Encoding.revise revision)).filterMap Encoding.event? =
      (encodings.filterMap Encoding.event?).map (Event.revise revision) := by
    rw [List.filterMap_map, List.map_filterMap]
    simp only [Function.comp_def, Encoding.event?_revise]
  simp only [hstatements, hrelocations, hdiagnostics, hevents, Statement.totalLength_revise,
    reviseBoth, revise, Journal.revise, List.map_append]
  rfl

/-- A section of revised lines is laid out as it was. -/
theorem Section.layOut_revise (registry : Registry) {lines revised : List (Nat × String)}
    (h : List.Forall₂ revision.Carries lines revised) :
    layOut registry revised = reviseBoth revision (layOut registry lines) := by
  have hlaid : Layout.addLines registry {} revised =
      Layout.reviseBoth revision (Layout.addLines registry {} lines) :=
    Layout.addLines_revise revision registry {} h
  have hunplaced := Layout.unplaced_revise revision (Layout.usesNoted_addLines registry lines)
  simp only [layOut, hlaid, Layout.reviseBoth, hunplaced, reviseBoth, Journal.revise_append]
  rfl

/-- **Line numbers and comments decide nothing**: a section of revised lines is the same section
with its statements revised, and its journal is the same but for the numbers. -/
theorem Program.assembleSection_revise (registry : Registry) {lines revised : List (Nat × String)}
    (h : List.Forall₂ revision.Carries lines revised) :
    assembleSection registry revised =
      Section.reviseBoth revision (assembleSection registry lines) := by
  simp only [assembleSection, Section.layOut_revise revision registry h, Section.reviseBoth,
    Section.generate_revise, Journal.revise_append]

end

end SicXe
