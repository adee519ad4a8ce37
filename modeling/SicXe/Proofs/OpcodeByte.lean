import SicXe.Proofs.AssembledSection
import SicXe.Proofs.PlainNames

/-!
# SicXe.Proofs.OpcodeByte

The first byte of an instruction of format 3 or 4.

The byte holds the opcode with the flags `n` and `i` laid over its two lowest bits
(`FirstByte.ofByte_or_mode`), so it can be told apart again only if the opcode leaves these bits
clear.  Reading a registry does not look at them.  A registry whose opcodes do leave them clear
gives first bytes that decode to the opcode and the flags; for any other registry there are two
instructions that differ and start alike (`Program.first_bytes_decode_iff`).
-/

namespace SicXe

/-! ## the byte -/

namespace AddressingFlags

/-- The two flags are two bits. -/
theorem mode_lt (flags : AddressingFlags) : flags.mode < 4 := by
  unfold mode
  cases flags.n <;> cases flags.i <;> decide

/-- Each flag can be read off the two bits. -/
theorem testBit_mode (flags : AddressingFlags) :
    flags.mode.testBit 1 = flags.n ∧ flags.mode.testBit 0 = flags.i := by
  unfold mode
  cases flags.n <;> cases flags.i <;> decide

end AddressingFlags

/-- What the first byte of an instruction of format 3 or 4 says. -/
structure FirstByte where
  /-- The six high bits: the opcode without its two lowest bits. -/
  operation : Nat
  n : Bool
  i : Bool
  deriving Repr, DecidableEq

namespace FirstByte

/-- Decode a first byte. -/
def ofByte (byte : UInt8) : FirstByte :=
  ⟨byte.toNat / 4, byte.toNat.testBit 1, byte.toNat.testBit 0⟩

/-- **Flags are laid over the opcode**: a flag is decoded as set also if the opcode has its bit. -/
theorem ofByte_or_mode (opcode : UInt8) (flags : AddressingFlags) :
    ofByte (opcode ||| UInt8.ofNat flags.mode) =
      ⟨opcode.toNat / 4, opcode.toNat.testBit 1 || flags.n, opcode.toNat.testBit 0 || flags.i⟩ := by
  have hmode : (UInt8.ofNat flags.mode).toNat = flags.mode :=
    UInt8.toNat_ofNat_of_lt' (Nat.lt_of_lt_of_le flags.mode_lt (by decide))
  have hhigh : (opcode.toNat ||| flags.mode) / 2 ^ 2 = opcode.toNat / 2 ^ 2 := by
    rw [Nat.or_div_two_pow, Nat.div_eq_of_lt flags.mode_lt, Nat.or_zero]
  obtain ⟨hn, hi⟩ := flags.testBit_mode
  simp only [ofByte, UInt8.toNat_or, hmode, Nat.testBit_or, hn, hi]
  exact congrArg (FirstByte.mk · _ _) hhigh

/-- Different bytes are different as first bytes. -/
theorem ofByte_injective : Function.Injective ofByte := by
  intro first second h
  simp only [ofByte, FirstByte.mk.injEq, Nat.testBit_zero, Nat.testBit_succ] at h
  obtain ⟨hhigh, hn, hi⟩ := h
  apply UInt8.toNat_inj.mp
  rw [decide_eq_decide] at hn hi
  omega

end FirstByte

/-- Whether the two lowest bits of an opcode are left to the flags. -/
def Instruction.LeavesFlagBits (instruction : Instruction) : Prop :=
  instruction.opcode.toNat % 4 = 0

instance (instruction : Instruction) : Decidable instruction.LeavesFlagBits :=
  inferInstanceAs (Decidable (_ = _))

/-- An opcode that is a multiple of four has two clear bits at its end. -/
theorem Instruction.leavesFlagBits_iff (instruction : Instruction) :
    instruction.LeavesFlagBits ↔
      instruction.opcode.toNat.testBit 1 = false ∧ instruction.opcode.toNat.testBit 0 = false := by
  rw [LeavesFlagBits, Nat.testBit_zero, Nat.testBit_succ, Nat.testBit_zero, decide_eq_false_iff_not,
    decide_eq_false_iff_not]
  omega

/-! ## instructions in a program -/

namespace Encoding

/-- The first byte of an instruction of format 3 or 4: how the operands are written decides its
flags. -/
theorem head?_code_ofInstruction (sect : Section) (base : Option Nat) (statement : Statement)
    (instruction : Instruction) {extended : Bool}
    (hlength : statement.length = 3 ∨ statement.length = 4 ∧ extended = true) :
    (ofInstruction sect base statement instruction extended).statement.code.head? =
        some (instruction.opcode ||| UInt8.ofNat (operandFlags statement.operands).mode) ∧
      (ofInstruction sect base statement instruction extended).statement.flags.mode =
        (operandFlags statement.operands).mode := by
  rcases hlength with hshort | ⟨hlong, rfl⟩
  · simp only [ofInstruction, hshort]
    exact ⟨rfl, rfl⟩
  · simp only [ofInstruction, hlong]
    exact ⟨rfl, rfl⟩

end Encoding

namespace Program

/-- A statement of a program assembled with a registry that is an instruction of three or four
bytes. -/
structure Addressing (registry : Registry) (mnemonic : String) (statement : Statement) :
    Prop where
  assembled : ∃ source, ∃ sect ∈ (assemble registry source).sections, statement ∈ sect.statements
  operator : ∃ extended, statement.operator = .instruction mnemonic extended
  length : statement.length = 3 ∨ statement.length = 4

section
variable {registry : Registry} {mnemonic : String} {instruction : Instruction}
  {statement : Statement}

/-- **The first byte of an instruction** of three or four bytes is its opcode with the flags laid
over it. -/
theorem Addressing.first_byte (h : Addressing registry mnemonic statement) :
    ∃ instruction, registry.get? mnemonic = some instruction ∧ instruction.format = .three ∧
      statement.flags.mode = (Encoding.operandFlags statement.operands).mode ∧
      statement.code.head? = some (instruction.opcode ||| UInt8.ofNat statement.flags.mode) := by
  obtain ⟨⟨source, sect, hsect, hmem⟩, ⟨extended, hop⟩, hlength⟩ := h
  obtain ⟨lines, hlines, rfl⟩ := exists_lines_of_mem_sections hsect
  obtain ⟨laid, hin, base, rfl⟩ := exists_laidOut_of_mem hmem
  rw [Encoding.operator_ofStatement] at hop
  rw [Encoding.length_ofStatement] at hlength
  rw [Encoding.operands_ofStatement]
  have hlaid : laid.LaidOut registry :=
    Layout.laidOut_of_mem (openedOnce_of_mem_cutSections _ lines hlines) laid hin
  obtain ⟨instruction, hget, hsize, hext⟩ := Encoding.length_of_instruction hlaid hop
  -- Of three bytes is only format 3, and of four bytes only its extended form.
  have hform : instruction.format = .three ∧
      (laid.length = 3 ∨ laid.length = 4 ∧ extended = true) := by
    cases extended with
    | true =>
        have hthree := hext rfl
        rw [hthree] at hsize
        exact ⟨hthree, Or.inr ⟨hsize, rfl⟩⟩
    | false => cases hformat : instruction.format <;> simp_all [Format.size]
  obtain ⟨hcode, hmode⟩ := Encoding.head?_code_ofInstruction
    (layoutOf registry lines).toSection base laid instruction hform.2
  refine ⟨instruction, hget, hform.1, ?_⟩
  simp only [Encoding.ofStatement, hop, hget]
  exact ⟨hmode, hmode ▸ hcode⟩

/-- The flags of a statement that addresses are those of its operands. -/
theorem Addressing.flags_eq (h : Addressing registry mnemonic statement) :
    statement.flags.n = (Encoding.operandFlags statement.operands).n ∧
      statement.flags.i = (Encoding.operandFlags statement.operands).i := by
  obtain ⟨-, -, -, hmode, -⟩ := h.first_byte
  obtain ⟨hn, hi⟩ := statement.flags.testBit_mode
  obtain ⟨hn', hi'⟩ := (Encoding.operandFlags statement.operands).testBit_mode
  rw [hmode] at hn hi
  exact ⟨hn.symm.trans hn', hi.symm.trans hi'⟩

/-- **The first byte** has the six bits of the opcode, and each flag joined with the bit of the
opcode at its place. -/
theorem Addressing.decoded (h : Addressing registry mnemonic statement)
    (hget : registry.get? mnemonic = some instruction) :
    statement.code.head?.map FirstByte.ofByte =
      some ⟨instruction.opcode.toNat / 4, instruction.opcode.toNat.testBit 1 || statement.flags.n,
        instruction.opcode.toNat.testBit 0 || statement.flags.i⟩ := by
  obtain ⟨found, hfound, -, -, hcode⟩ := h.first_byte
  rw [hget] at hfound
  cases hfound
  rw [hcode, Option.map_some, FirstByte.ofByte_or_mode]

end

end Program

/-! ## the mnemonics of a registry -/

/-- What a mnemonic has to be for a line to hold it: plain, and without a tab in it. -/
structure Instruction.PlainMnemonic (instruction : Instruction) : Prop where
  plain : Text.Plain instruction.mnemonic.toList
  noTab : '\t' ∉ instruction.mnemonic.toList

theorem Instruction.mnemonic_ofFields {mnemonic opcode format operandCount : List Char}
    {instruction : Instruction}
    (h : ofFields mnemonic opcode format operandCount = .ok instruction) :
    instruction.mnemonic.toList = mnemonic := by
  unfold ofFields at h
  split at h
  · cases h
  · split at h
    · cases h
    · split at h
      · cases h
      · cases h
        exact String.toList_ofList

/-- A line of the registry gives an instruction with a plain mnemonic. -/
theorem Instruction.plainMnemonic_of_read {line : String} {instruction : Instruction}
    (hline : '\n' ∉ line.toList) (h : read line = .ok instruction) :
    instruction.PlainMnemonic := by
  unfold read at h
  split at h
  · cases h
  · cases h
  · cases h
  · cases h
  · next mnemonic opcode format operandCount rest hfields =>
      have hmem : mnemonic ∈ fields line.toList := hfields ▸ List.mem_cons_self
      obtain ⟨hmap, -⟩ := List.mem_filter.mp hmem
      obtain ⟨piece, hpiece, htrim⟩ := List.mem_map.mp hmap
      have hchars := Text.mem_of_mem_pieces hpiece
      rw [← mnemonic_ofFields h] at htrim
      refine ⟨htrim ▸ Text.plain_trim fun hfeed => hline (hchars _ hfeed).1, fun htab => ?_⟩
      rw [← htrim] at htab
      exact (hchars _ (Text.mem_of_mem_trim htab)).2 rfl

namespace Registry

/-- So does every line of a registry, whatever came before it. -/
theorem plainMnemonic_of_mem_readFrom {registry result : Registry} {number : Nat}
    {lines : List String} (hlines : ∀ line ∈ lines, '\n' ∉ line.toList)
    (hregistry : ∀ instruction ∈ registry.instructions, instruction.PlainMnemonic)
    (h : readFrom registry number lines = .ok result) :
    ∀ instruction ∈ result.instructions, instruction.PlainMnemonic := by
  induction lines generalizing registry number with
  | nil =>
      cases h
      exact hregistry
  | cons line rest ih =>
      obtain ⟨hline, hrest⟩ := List.forall_mem_cons.mp hlines
      unfold readFrom at h
      split at h
      · exact ih hrest hregistry h
      · split at h
        · cases h
        · next found hfound =>
            refine ih hrest ?_ h
            rw [insert, List.forall_mem_cons]
            refine ⟨Instruction.plainMnemonic_of_read hline hfound, fun other hother => ?_⟩
            exact hregistry other (List.mem_filter.mp hother).1

/-- **The mnemonics of a registry can stand in a line.** -/
theorem plainMnemonic_of_get? {text : String} {registry : Registry}
    (hread : read text = .ok registry) {mnemonic : String} {instruction : Instruction}
    (hget : registry.get? mnemonic = some instruction) :
    instruction.PlainMnemonic ∧ instruction.mnemonic = mnemonic := by
  refine ⟨?_, by simpa using List.find?_some hget⟩
  refine plainMnemonic_of_mem_readFrom ?_ (by simp [empty]) hread _ (List.mem_of_find?_eq_some hget)
  exact fun line hline => Text.notMem_of_mem_lines hline

end Registry

/-! ## programs of one instruction -/

theorem Text.Plain.cons {c : Char} {rest : List Char} (hc : isBlank c = false)
    (h : Plain rest) : Plain (c :: rest) := by
  constructor
  · intro hfeed
    rcases List.mem_cons.mp hfeed with rfl | hrest
    · cases hc
    · exact h.oneLine hrest
  · intro last hlast
    rw [List.getLast?_cons, Option.mem_some] at hlast
    cases hend : rest.getLast? with
    | none => rwa [← hlast, hend]
    | some found =>
        rw [hend] at hlast
        exact h.trimmed last (hlast ▸ hend)

/-- A plain text that starts with no blank is trimmed already. -/
theorem Text.trim_of_plain {c : Char} {rest : List Char} (hc : isBlank c = false)
    (h : Plain (c :: rest)) : trim (c :: rest) = c :: rest := by
  rw [trim, List.dropWhile_cons_of_neg (by simp [hc])]
  refine List.rdropWhile_eq_self_iff.mpr fun hne hblank => ?_
  rw [h.trimmed _ (List.getLast?_eq_some_getLast hne)] at hblank
  cases hblank

namespace LineFields

/-- A text that comes back from the field it is written to. -/
structure IsField (text : String) : Prop where
  field : field? text.toList = some text
  noTab : '\t' ∉ text.toList

/-- A plain text without tabs that starts with no blank stands as a field. -/
theorem IsField.of_plain {text : String} {c : Char} {rest : List Char}
    (htext : text.toList = c :: rest) (hc : Text.isBlank c = false)
    (hplain : Text.Plain text.toList) (htab : '\t' ∉ text.toList) : IsField text := by
  refine ⟨?_, htab⟩
  rw [htext] at hplain
  rw [field?, htext, Text.trim_of_plain hc hplain]
  simp only [← htext, String.ofList_toList]

theorem IsField.allBlank_eq {text : String} (h : IsField text) :
    Text.allBlank text.toList = false := by
  refine Bool.eq_false_iff.mpr fun hblank => ?_
  have hnone : Text.trim text.toList = [] := by
    rw [Text.trim, List.dropWhile_eq_nil_iff.mpr (List.all_eq_true.mp hblank)]
    rfl
  have hfield := h.field
  rw [field?, hnone] at hfield
  cases hfield

/-- A line without a label and a comment. -/
theorem read_unlabeled {operator operands : String} (hoperator : IsField operator)
    (hoperands : IsField operands) :
    read ("\t" ++ operator ++ "\t" ++ operands) =
      .ok (some ⟨none, operator, some operands, none⟩) := by
  have hline : ("\t" ++ operator ++ "\t" ++ operands).toList =
      [] ++ '\t' :: (operator.toList ++ '\t' :: operands.toList) := by simp
  have hpieces : Text.pieces '\t' ("\t" ++ operator ++ "\t" ++ operands).toList =
      [[], operator.toList, operands.toList] := by
    rw [hline, Text.pieces_append_separator, Text.pieces_append_separator,
      Text.pieces_of_notMem hoperator.noTab, Text.pieces_of_notMem hoperands.noTab]
    rfl
  have hblank : Text.allBlank ("\t" ++ operator ++ "\t" ++ operands).toList = false := by
    have hsome := hoperator.allBlank_eq
    rw [Text.allBlank] at hsome
    simp [hline, Text.allBlank, hsome]
  have hempty : field? [] = none := rfl
  have hlabel : (Text.trim []).head? = none := rfl
  have hcomment : ['\t'].intercalate ([] : List (List Char)) = [] := rfl
  simp only [read, hblank, cut, hpieces, hoperator.field, hoperands.field, hempty, hlabel, hcomment]
  rfl

end LineFields

namespace Directive

/-- No directive is written with a plus sign. -/
theorem ofName?_plus (mnemonic : String) : ofName? ("+" ++ mnemonic) = none := by
  have hname : ∀ directive ∈ all, directive.name.toList.head? ≠ some '+' := by decide
  refine List.find?_eq_none.mpr fun directive hmem heq => hname directive hmem ?_
  rw [beq_iff_eq.mp heq]
  simp

end Directive

/-- An instruction that has room is kept. -/
theorem Layout.mem_addLine_of_instruction {registry : Registry} {layout : Layout}
    {number : Nat} {text : String} {statement : Statement} {mnemonic : String} {extended : Bool}
    {length : Nat} (hdraft : draft registry number text = .ok (some statement))
    (hop : statement.operator = .instruction mnemonic extended)
    (hlength : lengthOf registry statement = .ok length)
    (hfits : fits layout.counter length = true) :
    layout.placed statement length ∈ (layout.addLine registry (number, text)).1.statements := by
  have hcounter : (layout.openSection statement).counter = layout.counter :=
    counter_openSection fun hopens => by rw [hop] at hopens; cases hopens
  have hresized : (layout.openSection statement).resized (layout.placed statement length) =
      layout.placed statement length := by
    have hpool : (layout.placed statement length).placesLiterals = false :=
      Statement.placesLiterals_eq hop
    have hsame := length_resized (layout.openSection statement) (layout.placed statement length)
    rw [hpool] at hsame
    exact congrArg (fun final => { layout.placed statement length with length := final }) hsame
  have hroom : fits (layout.openSection statement).counter length = true := by rwa [hcounter]
  have hentered : (layout.openSection statement).enter (layout.placed statement length) = _ :=
    enter_of_fits (by rw [hresized]; exact hroom)
  have hadded : (layout.addLine registry (number, text)).1 =
      (layout.openSection statement).keep (layout.placed statement length) := by
    simp only [addLine, hdraft, addStatement, hlength, hroom, if_true]
    exact congrArg Prod.fst hentered
  rw [hadded, keep, hresized]
  exact List.mem_append_right _ List.mem_cons_self

namespace Program

/-- The line of an instruction in its extended form. -/
def extendedLine (mnemonic operands : String) : String :=
  "\t" ++ ("+" ++ mnemonic) ++ "\t" ++ operands

/-- A program of one instruction in its extended form. -/
def probe (mnemonic operands : String) : String :=
  unlines ["\tSTART", extendedLine mnemonic operands]

/-- Behind a plus sign a mnemonic of format 3 is read as its extended form. -/
theorem operator_read_plus {registry : Registry} {mnemonic : String} {instruction : Instruction}
    (hget : registry.get? mnemonic = some instruction) (hform : instruction.format = .three) :
    Operator.read registry ("+" ++ mnemonic) = .instruction mnemonic true := by
  have htext : ("+" ++ mnemonic).toList = '+' :: mnemonic.toList := by simp
  simp only [Operator.read, Directive.ofName?_plus, htext, String.ofList_toList,
    Operator.ofMnemonic, hget, hform]
  rfl

section
variable {mnemonic field : String} (hmnemonic : LineFields.IsField ("+" ++ mnemonic))
  (hfield : LineFields.IsField field)
include hmnemonic hfield

/-- A probe is one section of two lines. -/
theorem cutSections_probe (hline : Text.IsLine (extendedLine mnemonic field).toList) :
    (cutSections (numberedLines (probe mnemonic field))).2 =
      [[(1, "\tSTART"), (2, extendedLine mnemonic field)]] := by
  have hlines : Text.lines (probe mnemonic field) = ["\tSTART", extendedLine mnemonic field] := by
    refine lines_unlines (List.forall_mem_cons.mpr ⟨⟨by decide, by decide⟩, ?_⟩)
    simpa using hline
  have hopens : opensSection "\tSTART" = true := by decide +kernel
  have hcloses : opensSection (extendedLine mnemonic field) = false := by
    simp only [opensSection, extendedLine, LineFields.read_unlabeled hmnemonic hfield,
      Directive.ofName?_plus, Option.any_none]
  simp [numberedLines, hlines, cutSections, hopens, hcloses]

/-- A probe has the statement it is made for. -/
theorem exists_laid_probe {registry : Registry} {instruction : Instruction}
    {operands : List Operand} (hget : registry.get? mnemonic = some instruction)
    (hform : instruction.format = .three) (hread : Operand.readAll field = .ok operands) :
    ∃ laid ∈ (layoutOf registry [(1, "\tSTART"), (2, extendedLine mnemonic field)]).statements,
      laid.operator = .instruction mnemonic true ∧ laid.operands = operands ∧
        laid.length = 4 := by
  have hdraft : Layout.draft registry 2 (extendedLine mnemonic field) =
      .ok (some
        { line := 2, label := none, operator := .instruction mnemonic true, operands }) := by
    rw [Layout.draft, extendedLine, LineFields.read_unlabeled hmnemonic hfield]
    simp only [Layout.draftFields, hread, operator_read_plus hget hform]
    rfl
  have hlength : Layout.lengthOf registry
      { line := 2, label := none, operator := .instruction mnemonic true, operands } = .ok 4 := by
    simp only [Layout.lengthOf, hget, hform, Option.map_some]
    rfl
  have hroom : Layout.fits (Layout.addLine registry {} (1, "\tSTART")).1.counter 4 = true := rfl
  have hkept := Layout.mem_addLine_of_instruction hdraft rfl hlength hroom
  exact ⟨_, hkept, rfl, rfl, rfl⟩

end

/-- **Every instruction of format 3 can be written** with operands of any kind. -/
theorem exists_addressing {text : String} {registry : Registry}
    (hread : Registry.read text = .ok registry) {mnemonic : String} {instruction : Instruction}
    (hget : registry.get? mnemonic = some instruction) (hform : instruction.format = .three)
    {field : String} {operands : List Operand} (hfield : LineFields.IsField field)
    (hline : Text.IsLine field.toList) (hoperands : Operand.readAll field = .ok operands) :
    ∃ statement, Addressing registry mnemonic statement ∧ statement.operands = operands := by
  obtain ⟨⟨hplain, htab⟩, rfl⟩ := Registry.plainMnemonic_of_get? hread hget
  have hplus : ("+" ++ instruction.mnemonic).toList = '+' :: instruction.mnemonic.toList := by simp
  have hwhole : Text.Plain ("+" ++ instruction.mnemonic).toList := by
    rw [hplus]
    exact hplain.cons (by decide)
  have hmnemonic : LineFields.IsField ("+" ++ instruction.mnemonic) :=
    .of_plain hplus (by decide) hwhole (by simpa [hplus] using htab)
  have hextended : Text.IsLine (extendedLine instruction.mnemonic field).toList := by
    have hstart : Text.IsLine "\t".toList := ⟨by decide, by decide⟩
    rw [extendedLine, String.toList_append, String.toList_append, String.toList_append]
    exact ((hstart.append hwhole.isLine).append hstart).append hline
  obtain ⟨laid, hlaid, hop, hops, hlength⟩ :=
    exists_laid_probe hmnemonic hfield hget hform hoperands
  obtain ⟨base, hmem⟩ := exists_encoded_of_mem hlaid
  refine ⟨_, ⟨⟨probe instruction.mnemonic field, _, ?_, hmem⟩, ⟨true, ?_⟩, ?_⟩, ?_⟩
  · rw [sections_assemble, cutSections_probe hmnemonic hfield hextended]
    exact List.mem_cons_self
  · rw [Encoding.operator_ofStatement, hop]
  · rw [Encoding.length_ofStatement]
    exact Or.inr hlength
  · rw [Encoding.operands_ofStatement, hops]

/-- A field of one operand that addresses zero in a given way. -/
theorem exists_field_of_mode {n i : Bool} (h : n = true ∨ i = true) :
    ∃ field operands, LineFields.IsField field ∧ Text.IsLine field.toList ∧
      Operand.readAll field = .ok operands ∧ (Encoding.operandFlags operands).n = n ∧
      (Encoding.operandFlags operands).i = i := by
  cases n with
  | true =>
      cases i with
      | true =>
          exact ⟨"0", [.number 0], ⟨by decide, by decide⟩, ⟨by decide, by decide⟩, rfl, rfl, rfl⟩
      | false =>
          exact ⟨"@0", [.indirect (.number 0)], ⟨by decide, by decide⟩, ⟨by decide, by decide⟩,
            rfl, rfl, rfl⟩
  | false =>
      cases h.resolve_left nofun
      exact ⟨"#0", [.immediate (.number 0)], ⟨by decide, by decide⟩, ⟨by decide, by decide⟩,
        rfl, rfl, rfl⟩

/-- An instruction of format 3 can be written with each way of addressing. -/
theorem exists_addressing_of_mode {text : String} {registry : Registry}
    (hread : Registry.read text = .ok registry) {mnemonic : String} {instruction : Instruction}
    (hget : registry.get? mnemonic = some instruction) (hform : instruction.format = .three)
    {n i : Bool} (hmode : n = true ∨ i = true) :
    ∃ statement, Addressing registry mnemonic statement ∧
      statement.flags.n = n ∧ statement.flags.i = i := by
  obtain ⟨field, operands, hfield, hline, hoperands, hn, hi⟩ := exists_field_of_mode hmode
  obtain ⟨statement, h, rfl⟩ := exists_addressing hread hget hform hfield hline hoperands
  exact ⟨statement, h, h.flags_eq.1.trans hn, h.flags_eq.2.trans hi⟩

end Program

/-! ## registries that leave the flag bits clear -/

/-- Whether the opcodes of format 3 leave their two lowest bits to the flags. -/
def Registry.LeavesFlagBits (registry : Registry) : Prop :=
  ∀ mnemonic instruction, registry.get? mnemonic = some instruction →
    instruction.format = .three → instruction.LeavesFlagBits

namespace Program

/-- The first byte of every instruction of three or four bytes tells its opcode, but for the two
lowest bits, and its flags `n` and `i`. -/
def FirstBytesDecode (registry : Registry) : Prop :=
  ∀ mnemonic statement, Addressing registry mnemonic statement →
    ∃ instruction, registry.get? mnemonic = some instruction ∧
      statement.code.head?.map FirstByte.ofByte =
        some ⟨instruction.opcode.toNat / 4, statement.flags.n, statement.flags.i⟩

/-- Instructions of three or four bytes with the same first byte have the same opcode and the same
flags `n` and `i`. -/
def FirstBytesDiffer (registry : Registry) : Prop :=
  ∀ first statement second other, Addressing registry first statement →
    Addressing registry second other → statement.code.head? = other.code.head? →
    (registry.get? first).map Instruction.opcode = (registry.get? second).map Instruction.opcode ∧
      statement.flags.n = other.flags.n ∧ statement.flags.i = other.flags.i

section
variable {registry : Registry}

/-- Where opcodes leave the flag bits clear, the first byte tells opcode and flags apart. -/
theorem Addressing.decoded_of_leavesFlagBits {mnemonic : String} {statement : Statement}
    (h : Addressing registry mnemonic statement) (hclear : registry.LeavesFlagBits) :
    ∃ instruction, registry.get? mnemonic = some instruction ∧ instruction.LeavesFlagBits ∧
      statement.code.head?.map FirstByte.ofByte =
        some ⟨instruction.opcode.toNat / 4, statement.flags.n, statement.flags.i⟩ := by
  obtain ⟨instruction, hget, hform, -⟩ := h.first_byte
  have hbits := hclear mnemonic instruction hget hform
  obtain ⟨hone, hzero⟩ := instruction.leavesFlagBits_iff.mp hbits
  refine ⟨instruction, hget, hbits, ?_⟩
  rw [h.decoded hget, hone, hzero, Bool.false_or, Bool.false_or]

/-- **First bytes decode**, if opcodes leave the flag bits clear. -/
theorem firstBytesDecode_of_leavesFlagBits (hclear : registry.LeavesFlagBits) :
    FirstBytesDecode registry := by
  intro mnemonic statement h
  obtain ⟨instruction, hget, -, hdecoded⟩ := h.decoded_of_leavesFlagBits hclear
  exact ⟨instruction, hget, hdecoded⟩

/-- **First bytes differ** where opcodes or flags do, if opcodes leave the flag bits clear. -/
theorem firstBytesDiffer_of_leavesFlagBits (hclear : registry.LeavesFlagBits) :
    FirstBytesDiffer registry := by
  intro first statement second other h hother hbytes
  obtain ⟨instruction, hget, hbits, hdecoded⟩ := h.decoded_of_leavesFlagBits hclear
  obtain ⟨found, hfound, hlow, hsecond⟩ := hother.decoded_of_leavesFlagBits hclear
  rw [hbytes, hsecond] at hdecoded
  simp only [Option.some.injEq, FirstByte.mk.injEq] at hdecoded
  obtain ⟨hhigh, hn, hi⟩ := hdecoded
  rw [Instruction.LeavesFlagBits] at hbits hlow
  have hopcode : instruction.opcode = found.opcode := UInt8.toNat_inj.mp (by omega)
  rw [hget, hfound, Option.map_some, Option.map_some, hopcode]
  exact ⟨rfl, hn.symm, hi.symm⟩

variable {text : String} (hread : Registry.read text = .ok registry)
include hread

/-- If first bytes decode, probes of every instruction show that its opcode leaves the flag bits
clear. -/
theorem leavesFlagBits_of_firstBytesDecode (hdecode : FirstBytesDecode registry) :
    registry.LeavesFlagBits := by
  intro mnemonic instruction hget hform
  -- Immediate addressing leaves `n` clear and indirect addressing `i`, so the bit is the opcode's.
  obtain ⟨immediate, himmediate, hn, -⟩ :=
    exists_addressing_of_mode hread hget hform (n := false) (Or.inr rfl)
  obtain ⟨indirect, hindirect, -, hi⟩ :=
    exists_addressing_of_mode hread hget hform (i := false) (Or.inl rfl)
  obtain ⟨_, -, hone⟩ := hdecode mnemonic immediate himmediate
  obtain ⟨_, -, hzero⟩ := hdecode mnemonic indirect hindirect
  rw [himmediate.decoded hget, hn] at hone
  rw [hindirect.decoded hget, hi] at hzero
  simp only [Bool.or_false, Option.some.injEq, FirstByte.mk.injEq] at hone hzero
  exact instruction.leavesFlagBits_iff.mpr ⟨hone.2.1, hzero.2.2⟩

/-- If first bytes differ, probes with different flags show the same. -/
theorem leavesFlagBits_of_firstBytesDiffer (hdiffer : FirstBytesDiffer registry) :
    registry.LeavesFlagBits := by
  intro mnemonic instruction hget hform
  -- A bit of the opcode hides whether the flag is set, so simple addressing looks like the other.
  obtain ⟨simple, hsimple, hn, hi⟩ :=
    exists_addressing_of_mode hread hget hform (n := true) (i := true) (Or.inl rfl)
  refine instruction.leavesFlagBits_iff.mpr
    ⟨Bool.eq_false_iff.mpr fun hbit => ?_, Bool.eq_false_iff.mpr fun hbit => ?_⟩
  · obtain ⟨immediate, himmediate, hn', hi'⟩ :=
      exists_addressing_of_mode hread hget hform (n := false) (i := true) (Or.inr rfl)
    have halike : immediate.code.head? = simple.code.head? := by
      apply Option.map_injective FirstByte.ofByte_injective
      rw [himmediate.decoded hget, hsimple.decoded hget, hbit, Bool.true_or, Bool.true_or, hi, hi']
    have hsame := (hdiffer _ _ _ _ himmediate hsimple halike).2.1
    rw [hn, hn'] at hsame
    cases hsame
  · obtain ⟨indirect, hindirect, hn', hi'⟩ :=
      exists_addressing_of_mode hread hget hform (n := true) (i := false) (Or.inl rfl)
    have halike : indirect.code.head? = simple.code.head? := by
      apply Option.map_injective FirstByte.ofByte_injective
      rw [hindirect.decoded hget, hsimple.decoded hget, hbit, Bool.true_or, Bool.true_or, hn, hn']
    have hsame := (hdiffer _ _ _ _ hindirect hsimple halike).2.2
    rw [hi, hi'] at hsame
    cases hsame

end

/-- **First bytes decode exactly if the opcodes leave the flag bits clear.**  Let a registry be read
from some text.  The first byte of each instruction of three or four bytes in a program assembled
with it tells the opcode and the flags `n` and `i`, and instructions that differ in one of them
never share a first byte, if the opcodes of format 3 leave their two lowest bits clear.  If one of
them does not, neither is so. -/
theorem first_bytes_decode_iff {text : String} {registry : Registry}
    (hread : Registry.read text = .ok registry) :
    (FirstBytesDecode registry ↔ registry.LeavesFlagBits) ∧
      (FirstBytesDiffer registry ↔ registry.LeavesFlagBits) :=
  ⟨⟨leavesFlagBits_of_firstBytesDecode hread, firstBytesDecode_of_leavesFlagBits⟩,
    ⟨leavesFlagBits_of_firstBytesDiffer hread, firstBytesDiffer_of_leavesFlagBits⟩⟩

/-- A registry in which only an opcode of format 2 has a flag bit. -/
def clearRegistry : Registry :=
  ⟨[⟨"TIXR", 0xB9, .two, 1⟩, ⟨"LDX", 0x04, .three, 1⟩, ⟨"LDA", 0x00, .three, 1⟩]⟩

theorem leavesFlagBits_clearRegistry : clearRegistry.LeavesFlagBits := by
  have hall : ∀ instruction ∈ clearRegistry.instructions,
      instruction.format = .three → instruction.LeavesFlagBits := by decide
  exact fun mnemonic instruction hget => hall instruction (List.mem_of_find?_eq_some hget)

theorem first_bytes_decode_clearRegistry :
    Registry.read "LDA\t00\t3\t1\nLDX\t04\t3\t1\nTIXR\tB9\t2\t1\n" = .ok clearRegistry ∧
      FirstBytesDecode clearRegistry ∧ FirstBytesDiffer clearRegistry := by
  have hread : Registry.read "LDA\t00\t3\t1\nLDX\t04\t3\t1\nTIXR\tB9\t2\t1\n" =
      .ok clearRegistry := rfl
  obtain ⟨hdecode, hdiffer⟩ := first_bytes_decode_iff hread
  exact ⟨hread, hdecode.mpr leavesFlagBits_clearRegistry,
    hdiffer.mpr leavesFlagBits_clearRegistry⟩

/-- A registry with an opcode that has a flag bit. -/
def overlaidRegistry : Registry := ⟨[⟨"LDX", 0x01, .three, 1⟩, ⟨"LDA", 0x00, .three, 1⟩]⟩

/-- A program that loads a register indirectly and another one directly. -/
def twoLoads : String := "P\tSTART\t0\n\tLDX\t@P\n\tLDA\tP\n"

/-- A statement of `twoLoads`. -/
def twoLoadsStatement (index : Nat) : Statement :=
  ((assemble overlaidRegistry twoLoads).sections.headD {}).statements.getD index
    { line := 0, operator := .unknown "" }

theorem addressing_twoLoads :
    Addressing overlaidRegistry "LDX" (twoLoadsStatement 1) ∧
      Addressing overlaidRegistry "LDA" (twoLoadsStatement 2) := by
  have hsect : (assemble overlaidRegistry twoLoads).sections.headD {} ∈
      (assemble overlaidRegistry twoLoads).sections := by decide +kernel
  constructor
  · exact ⟨⟨twoLoads, _, hsect, by decide +kernel⟩, ⟨false, by decide +kernel⟩, by decide +kernel⟩
  · exact ⟨⟨twoLoads, _, hsect, by decide +kernel⟩, ⟨false, by decide +kernel⟩, by decide +kernel⟩

/-- Reading a registry accepts an opcode that has a flag bit: loading `X` indirectly then starts
with the byte of loading `A` directly. -/
theorem first_bytes_collide :
    Registry.read "LDA\t00\t3\t1\nLDX\t01\t3\t1\n" = .ok overlaidRegistry ∧
      ¬ FirstBytesDecode overlaidRegistry ∧ ¬ FirstBytesDiffer overlaidRegistry := by
  obtain ⟨hindirect, hdirect⟩ := addressing_twoLoads
  have hfirst : (twoLoadsStatement 1).code.head? = some 0x03 := by decide +kernel
  have hsecond : (twoLoadsStatement 2).code.head? = some 0x03 := by decide +kernel
  refine ⟨rfl, fun hdecode => ?_, fun hdiffer => ?_⟩
  · obtain ⟨_, -, hdecoded⟩ := hdecode _ _ hindirect
    have hflag : (twoLoadsStatement 1).flags.i = false := by decide +kernel
    simp [FirstByte.ofByte, hfirst, hflag] at hdecoded
  · have hsame := (hdiffer _ _ _ _ hindirect hdirect (hfirst.trans hsecond.symm)).1
    revert hsame
    decide

end Program

end SicXe
