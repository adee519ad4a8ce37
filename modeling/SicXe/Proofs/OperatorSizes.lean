import SicXe.Proofs.LayoutStep

/-!
# SicXe.Proofs.OperatorSizes

Two answers to how many bytes an operator takes.

A registry tells the size of an operator from its text (`Registry.sizeOf?`).  Laying a section out
reads the operator first, and takes the length of a statement from what it was read as.  Both add a
byte for a plus sign in front of a mnemonic, but only reading insists on an instruction of format 3
behind it.  So the two agree on every operator that is not such a plus sign in front of a shorter
instruction (`sizes_agree_iff`); on those the registry tells a size, and the statement has none
(`overextended_operator_has_a_size`).
-/

namespace SicXe

namespace Operator

/-- Whether an operator is a machine instruction. -/
def isInstruction : Operator → Bool
  | instruction _ _ => true
  | _ => false

/-- Whether an operator is neither a directive nor a known instruction. -/
def isUnknown : Operator → Bool
  | unknown _ => true
  | _ => false

end Operator

/-- A text is a plus sign in front of the mnemonic of an instruction that has no extended form. -/
def Registry.Overextends (registry : Registry) (text : String) (found : Instruction) : Prop :=
  ∃ mnemonic, text = "+" ++ mnemonic ∧ registry.get? mnemonic = some found ∧
    found.format ≠ .three

/-! ## the two readings of an operator -/

/-- What reading an operator that is no directive and asking for its size can come to. -/
inductive Operator.Sized (registry : Registry) (text : String) : Operator → Option Nat → Prop
  /-- It is an instruction, in its plain form or in the extended form it has. -/
  | known (mnemonic : String) (extended : Bool) (found : Instruction)
      (hget : registry.get? mnemonic = some found)
      (hfits : ∀ other, ¬ registry.Overextends text other) :
      Sized registry text (.instruction mnemonic extended)
        (some (found.format.size + extended.toNat))
  /-- There is no instruction of that mnemonic. -/
  | foreign (hfits : ∀ other, ¬ registry.Overextends text other) :
      Sized registry text (.unknown text) none
  /-- There is one, without an extended form. -/
  | overextended (found : Instruction) (hover : registry.Overextends text found) :
      Sized registry text (.unknown text) (some (found.format.size + 1))

/-- What stands behind a plus sign is one mnemonic. -/
theorem Registry.Overextends.of_toList {registry : Registry} {text : String} {found : Instruction}
    {mnemonic : List Char} (htext : text.toList = '+' :: mnemonic)
    (h : registry.Overextends text found) :
    registry.get? (String.ofList mnemonic) = some found ∧ found.format ≠ .three := by
  obtain ⟨other, rfl, hget, hform⟩ := h
  obtain rfl : other.toList = mnemonic := by simpa using htext
  rw [String.ofList_toList]
  exact ⟨hget, hform⟩

section
variable {registry : Registry} {text : String} {mnemonic : List Char}

/-- Behind a plus sign the size is one more than that of the mnemonic, whatever its format. -/
theorem Registry.sizeOf?_of_plus (htext : text.toList = '+' :: mnemonic) :
    registry.sizeOf? text =
      (registry.get? (String.ofList mnemonic)).map fun found => found.format.size + 1 := by
  simp only [sizeOf?, htext]

theorem Registry.sizeOf?_of_plain (hplain : ∀ mnemonic, text.toList ≠ '+' :: mnemonic) :
    registry.sizeOf? text = (registry.get? text).map fun found => found.format.size := by
  unfold sizeOf?
  split
  · next mnemonic htext => exact absurd htext (hplain mnemonic)
  · rfl

/-- Behind a plus sign an operator that is no directive is read as an extended mnemonic. -/
theorem Operator.read_of_plus (hname : Directive.ofName? text = none)
    (htext : text.toList = '+' :: mnemonic) :
    read registry text = ofMnemonic registry text (String.ofList mnemonic) true := by
  simp only [read, hname, htext]

theorem Operator.read_of_plain (hname : Directive.ofName? text = none)
    (hplain : ∀ mnemonic, text.toList ≠ '+' :: mnemonic) :
    read registry text = ofMnemonic registry text text false := by
  simp only [read, hname]

/-- **Inversion of the two readings** of an operator that is no directive. -/
theorem Operator.sized_read (hname : Directive.ofName? text = none) :
    Sized registry text (read registry text) (registry.sizeOf? text) := by
  by_cases hplus : ∃ mnemonic, text.toList = '+' :: mnemonic
  · obtain ⟨mnemonic, htext⟩ := hplus
    have hover : ∀ other, registry.Overextends text other →
        registry.get? (String.ofList mnemonic) = some other ∧ other.format ≠ .three :=
      fun other h => h.of_toList htext
    rw [read_of_plus hname htext, Registry.sizeOf?_of_plus htext, ofMnemonic]
    cases hget : registry.get? (String.ofList mnemonic) with
    | none =>
        refine .foreign fun other h => ?_
        rw [(hover other h).1] at hget
        cases hget
    | some found =>
        by_cases hform : found.format = .three
        · simp only [hform, decide_true, Bool.or_true, if_true, Option.map_some]
          rw [← hform]
          refine .known (String.ofList mnemonic) true found hget fun other h => ?_
          obtain ⟨hother, hne⟩ := hover other h
          rw [hget] at hother
          cases hother
          exact hne hform
        · simp only [hform, decide_false, Bool.not_true, Bool.or_self, Bool.false_eq_true,
            if_false, Option.map_some]
          refine .overextended found ⟨String.ofList mnemonic, ?_, hget, hform⟩
          rw [← String.toList_inj, htext]
          simp
  · have hplain : ∀ mnemonic, text.toList ≠ '+' :: mnemonic := fun mnemonic htext =>
      hplus ⟨mnemonic, htext⟩
    have hfits : ∀ other, ¬ registry.Overextends text other := by
      rintro other ⟨mnemonic, rfl, -⟩
      exact hplain mnemonic.toList (by simp)
    rw [read_of_plain hname hplain, Registry.sizeOf?_of_plain hplain, ofMnemonic]
    cases hget : registry.get? text with
    | none => exact .foreign hfits
    | some found => exact .known text false found hget hfits

end

/-! ## the length of a statement -/

namespace Layout

/-- The length of a kept statement that places no literals is the one its operator and its operands
ask for. -/
theorem lengthOf_of_mem_addLines {registry : Registry} {lines : List (Nat × String)} :
    ∀ statement ∈ (addLines registry {} lines).1.statements, statement.placesLiterals = false →
      lengthOf registry statement = .ok statement.length := by
  refine addLines_invariant (P := fun layout => ∀ statement ∈ layout.statements,
      statement.placesLiterals = false → lengthOf registry statement = .ok statement.length) ?_ {}
    (fun h : False => h.elim) (by simp)
  intro layout line _ _ h
  have hadded := added_addLine registry layout line
  generalize layout.addLine registry line = result at hadded
  cases hadded with
  | blank => exact h
  | unreadable => exact h
  | unsized statement => rwa [statements_openSection]
  | unfit statement => rwa [statements_openSection]
  | overflowed statement => rwa [(rests_obeyed ..).statements, statements_openSection]
  | kept statement length events hdraft hlength =>
      rw [keep, (rests_obeyed ..).statements, statements_openSection, List.forall_mem_append]
      refine ⟨h, fun other hother hplaces => ?_⟩
      obtain rfl := List.mem_singleton.mp hother
      have hsame := length_resized (layout.openSection statement) (layout.placed statement length)
      have hnone : (layout.placed statement length).placesLiterals = false := hplaces
      rw [hnone] at hsame
      rw [hsame]
      exact hlength

/-- Laying out allots a length to an operator: every statement with that operator asks for it,
whatever its operands are, and every one that is kept has it. -/
structure Allots (registry : Registry) (operator : Operator) (length : Nat) : Prop where
  asked : ∀ statement, statement.operator = operator → lengthOf registry statement = .ok length
  kept : ∀ lines, ∀ statement ∈ (Section.layOut registry lines).1.statements,
    statement.operator = operator → statement.length = length

/-- What an operator asks for whatever its operands are is what its statements take, unless it is a
directive. -/
theorem allots_of_asked {registry : Registry} {operator : Operator} {length : Nat}
    (hplaces : operator.directive? = none)
    (hasked : ∀ statement, statement.operator = operator →
      lengthOf registry statement = .ok length) : Allots registry operator length := by
  refine ⟨hasked, fun lines statement hmem hop => ?_⟩
  have hnone : statement.placesLiterals = false := by
    rw [Statement.placesLiterals, Statement.directive?, hop, hplaces]
    rfl
  have hlength := lengthOf_of_mem_addLines statement hmem hnone
  rw [hasked statement hop] at hlength
  exact (Except.ok.inj hlength).symm

/-- An instruction takes the size of its format, and one byte more if it is extended. -/
theorem allots_instruction {registry : Registry} {mnemonic : String} {extended : Bool}
    {found : Instruction} (hget : registry.get? mnemonic = some found) :
    Allots registry (.instruction mnemonic extended) (found.format.size + extended.toNat) :=
  allots_of_asked rfl fun statement hop => by simp [lengthOf, hop, hget]

/-- An unknown operator takes no room. -/
theorem allots_unknown (registry : Registry) (text : String) :
    Allots registry (.unknown text) 0 :=
  allots_of_asked rfl fun statement hop => by simp [lengthOf, hop]

/-- No operator is allotted two lengths. -/
theorem Allots.unique {registry : Registry} {operator : Operator} {first second : Nat}
    (hfirst : Allots registry operator first) (hsecond : Allots registry operator second) :
    first = second := by
  have hasked := hfirst.asked { line := 1, operator } rfl
  rw [hsecond.asked { line := 1, operator } rfl] at hasked
  exact (Except.ok.inj hasked).symm

end Layout

/-! ## agreement -/

namespace Registry

/-- A registry tells the size of an operator that laying out goes by: it tells one exactly for an
instruction, which is then the length of its statements, and none exactly for an unknown
operator. -/
structure SizesAgree (registry : Registry) (text : String) : Prop where
  told : ∀ size, registry.sizeOf? text = some size ↔
    (Operator.read registry text).isInstruction = true ∧
      Layout.Allots registry (Operator.read registry text) size
  untold : registry.sizeOf? text = none ↔ (Operator.read registry text).isUnknown = true

section
variable {registry : Registry} {text : String} (hname : Directive.ofName? text = none)
include hname

/-- An operator that asks too much of its format has a size, and is unknown all the same. -/
theorem sizes_of_overextends {found : Instruction} (hover : registry.Overextends text found) :
    registry.sizeOf? text = some (found.format.size + 1) ∧
      Operator.read registry text = .unknown text := by
  have hsized : Operator.Sized registry text (Operator.read registry text)
      (registry.sizeOf? text) := Operator.sized_read hname
  generalize Operator.read registry text = operator at hsized
  generalize registry.sizeOf? text = size at hsized
  cases hsized with
  | known mnemonic extended other hget hfits => exact absurd hover (hfits found)
  | foreign hfits => exact absurd hover (hfits found)
  | overextended other hother =>
      obtain ⟨mnemonic, htext, hget, -⟩ := hover
      have hlist : text.toList = '+' :: mnemonic.toList := by simp [htext]
      have hsame := (hother.of_toList hlist).1
      rw [String.ofList_toList, hget] at hsame
      cases hsame
      exact ⟨rfl, rfl⟩

/-- Everywhere else the two sizes agree. -/
theorem sizesAgree_of_fits (hfits : ∀ found, ¬ registry.Overextends text found) :
    registry.SizesAgree text := by
  have hsized : Operator.Sized registry text (Operator.read registry text)
      (registry.sizeOf? text) := Operator.sized_read hname
  generalize hop : Operator.read registry text = operator at hsized
  generalize hsize : registry.sizeOf? text = size at hsized
  cases hsized with
  | known mnemonic extended found hget =>
      have hallots : Layout.Allots registry (.instruction mnemonic extended)
          (found.format.size + extended.toNat) := Layout.allots_instruction hget
      refine ⟨fun other => ?_, ?_⟩
      · rw [hop, hsize, Option.some.injEq]
        exact ⟨fun h => ⟨rfl, h ▸ hallots⟩, fun h => hallots.unique h.2⟩
      · simp [hop, hsize, Operator.isUnknown]
  | foreign =>
      refine ⟨fun other => ?_, ?_⟩
      · simp [hop, hsize, Operator.isInstruction]
      · simp [hop, hsize, Operator.isUnknown]
  | overextended found hover => exact absurd hover (hfits found)

end

/-- **Sizes agree, plus signs apart.**  What a registry tells of an operator that is no directive is
what laying out goes by, if and only if the operator is not a plus sign in front of an instruction
without an extended form.  Of such an operator the registry tells one byte more than the instruction
has, while it is read as unknown and its statements have no length. -/
theorem sizes_agree_iff (registry : Registry) (text : String)
    (hname : Directive.ofName? text = none) :
    (registry.SizesAgree text ↔ ∀ found, ¬ registry.Overextends text found) ∧
    ∀ found, registry.Overextends text found →
      registry.sizeOf? text = some (found.format.size + 1) ∧
      Operator.read registry text = .unknown text ∧
      Layout.Allots registry (.unknown text) 0 := by
  refine ⟨⟨fun hagree found hover => ?_, sizesAgree_of_fits hname⟩, fun found hover => ?_⟩
  · obtain ⟨hsize, hread⟩ := sizes_of_overextends hname hover
    have hnone := hagree.untold.mpr (by rw [hread]; rfl)
    rw [hsize] at hnone
    cases hnone
  · obtain ⟨hsize, hread⟩ := sizes_of_overextends hname hover
    exact ⟨hsize, hread, Layout.allots_unknown registry text⟩

/-- An instruction with an extended form and one without. -/
def twoFormats : Registry := ⟨[⟨"CLEAR", 0xB4, .two, 1⟩, ⟨"LDA", 0x00, .three, 1⟩]⟩

theorem read_twoFormats : read "LDA\t00\t3\t1\nCLEAR\tB4\t2\t1\n" = .ok twoFormats := by
  rfl

theorem overextends_clear : twoFormats.Overextends "+CLEAR" ⟨"CLEAR", 0xB4, .two, 1⟩ :=
  ⟨"CLEAR", by decide, by decide, by decide⟩

/-- The sizes of `LDA` agree in its extended form, those of `CLEAR` do not. -/
theorem sizes_agree_twoFormats :
    twoFormats.SizesAgree "+LDA" ∧ twoFormats.sizeOf? "+LDA" = some 4 ∧
    ¬ twoFormats.SizesAgree "+CLEAR" ∧ twoFormats.sizeOf? "+CLEAR" = some 3 := by
  refine ⟨?_, by decide, ?_, ?_⟩
  · refine (sizes_agree_iff twoFormats "+LDA" (by decide)).1.mpr fun found hover => ?_
    have htext : "+LDA".toList = '+' :: "LDA".toList := by decide
    obtain ⟨hget, hform⟩ := hover.of_toList htext
    have hlda : twoFormats.get? (String.ofList "LDA".toList) = some ⟨"LDA", 0x00, .three, 1⟩ := by
      decide
    rw [hlda] at hget
    cases hget
    exact hform rfl
  · intro hagree
    exact (sizes_agree_iff twoFormats "+CLEAR" (by decide)).1.mp hagree _ overextends_clear
  · exact ((sizes_agree_iff twoFormats "+CLEAR" (by decide)).2 _ overextends_clear).1

/-- **An overextended operator has a size**: there is a registry, read from a text, that tells a
size of an operator which laying out does not know. -/
theorem overextended_operator_has_a_size :
    (¬ ∀ (description : String) (registry : Registry), read description = .ok registry →
      ∀ text, Directive.ofName? text = none → registry.SizesAgree text) ∧
    twoFormats.sizeOf? "+CLEAR" = some 3 ∧
    Operator.read twoFormats "+CLEAR" = .unknown "+CLEAR" := by
  refine ⟨fun h => ?_, by decide, by decide⟩
  have hagree := h _ twoFormats read_twoFormats "+CLEAR" (by decide)
  have hunknown : (Operator.read twoFormats "+CLEAR").isUnknown = true := by decide
  have huntold := hagree.untold.mpr hunknown
  revert huntold
  decide

end Registry

end SicXe
