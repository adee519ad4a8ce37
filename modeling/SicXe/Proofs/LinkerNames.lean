import SicXe.Proofs.AddressTables
import SicXe.Proofs.OperandReports
import SicXe.Proofs.SymbolListing

/-!
# SicXe.Proofs.LinkerNames

The names that are left to the linker.

A relocation names what its field is to be adjusted by.  The name in an instruction of the extended
form is looked up, and reported unless the section imports it, defines it or has placed it as a
literal; and a word that is a single symbol is left to the linker only if the section imports it.
But the two names of a difference are passed on as they are.  So a name that the section does not
know is reported, except in a difference (`linker_names_known_or_reported_iff`), and what is
assembled without a report may be impossible to link (`unknown_difference_is_silent`).
-/

namespace SicXe

namespace Section

/-- Whether a section knows a name: it imports it, it defines it, or it has placed it as a
literal. -/
def Knows (sect : Section) (name : String) : Prop :=
  name ∈ sect.externals ∨ name ∈ sect.symbols.names ∨
    ∃ address, sect.literals.lookup name = some address

instance (sect : Section) (name : String) : Decidable (sect.Knows name) :=
  decidable_of_iff (name ∈ sect.externals ∨ name ∈ sect.symbols.names ∨
      (sect.literals.lookup name).isSome = true)
    (by rw [Option.isSome_iff_exists]; rfl)

theorem mem_externals_of_isExternal {sect : Section} {name : String}
    (h : sect.isExternal name = true) : name ∈ sect.externals := by
  simp only [isExternal, Bool.and_eq_true, List.contains_iff_mem] at h
  exact h.1

/-- What an instruction of the extended form takes for known is known. -/
theorem known_iff {sect : Section} (hlocated : ∀ entry ∈ sect.symbols.entries, entry.2.isSome)
    (name : String) :
    (sect.isExternal name || (sect.lookup name).isSome) = true ↔ sect.Knows name := by
  rw [Bool.or_eq_true]
  constructor
  · rintro (hexternal | hfound)
    · exact Or.inl (mem_externals_of_isExternal hexternal)
    · obtain ⟨address, haddress⟩ := Option.isSome_iff_exists.mp hfound
      rcases Option.or_eq_some_iff.mp haddress with hsymbol | ⟨-, hliteral⟩
      · exact Or.inr (Or.inl (AddressTable.mem_names_of_lookup hsymbol))
      · exact Or.inr (Or.inr ⟨address, hliteral⟩)
  · have hdefined : name ∈ sect.symbols.names → (sect.lookup name).isSome = true := by
      intro hname
      simp [lookup, AddressTable.isSome_lookup hlocated hname]
    rintro (hexternal | hsymbol | ⟨address, hliteral⟩)
    · -- An imported name that is also defined here is not external, but it is found.
      by_cases hname : name ∈ sect.symbols.names
      · exact Or.inr (hdefined hname)
      · have habsent : sect.symbols.contains name = false :=
          Bool.eq_false_iff.mpr (mt AddressTable.contains_iff.mp hname)
        left
        simp [isExternal, hexternal, habsent]
    · exact Or.inr (hdefined hsymbol)
    · right
      simp [lookup, hliteral]

end Section

/-- Whether a statement is a word that is the difference of two symbols. -/
def Statement.isDifference (statement : Statement) : Bool :=
  match statement.operator, statement.operands with
  | .directive .word, [.difference _ _] => true
  | _, _ => false

/-! ## programs -/

namespace Program

/-- Whether a name is reported on a line to be unresolved. -/
def ReportsUnresolved (program : Program) (line : Nat) : Prop :=
  ∃ name, ⟨line, .unresolvedReference name⟩ ∈ program.diagnostics

section
variable {registry : Registry} {source : String} {sect : Section}

/-- A difference is not reported, whatever its names are. -/
theorem not_reportsUnresolved_of_difference
    (hsect : sect ∈ (assemble registry source).sections) {statement : Statement}
    (hmem : statement ∈ sect.statements) {minuend subtrahend : String}
    (hop : statement.operator = .directive .word)
    (hoperands : statement.operands = [.difference minuend subtrahend]) :
    ¬ (assemble registry source).ReportsUnresolved statement.line := by
  rintro ⟨name, hreported⟩
  rw [reported_iff_of_word hsect hmem hop rfl, hoperands] at hreported
  simp [Encoding.wordValue] at hreported

/-- An instruction of the extended form has a name that the section knows, or it is reported. -/
theorem known_or_reported_of_extended (hsect : sect ∈ (assemble registry source).sections)
    {statement : Statement} (hmem : statement ∈ sect.statements) {mnemonic : String}
    {extended : Bool} (hop : statement.operator = .instruction mnemonic extended)
    (hlength : statement.length = 4) {operand : Operand} {rest : List Operand}
    (hoperands : statement.operands = operand :: rest) (hnumber : operand.number? = none) :
    sect.Knows (operand.lookupName?.getD "") ∨
      (assemble registry source).ReportsUnresolved statement.line := by
  rw [extended_of_length_eq_four hsect hmem hop hlength] at hop
  have hlocated : ∀ entry ∈ sect.symbols.entries, entry.2.isSome := fun entry hentry =>
    (listable_of_mem_symbols hsect entry hentry).1
  by_cases hknown : sect.Knows (operand.lookupName?.getD "")
  · exact Or.inl hknown
  · right
    refine ⟨operand.lookupName?.getD "", ?_⟩
    rw [reported_iff_of_extended hsect hmem hop rfl, hoperands]
    simp only [Encoding.extendedAddress, hnumber]
    rw [if_neg (mt (Section.known_iff hlocated _).mp hknown)]
    exact List.mem_cons_self

end

/-- **Names that are left to the linker.**  The relocations of every assembled section are those of
its statements.  The name of a relocation is imported by the section, a symbol of it or a literal
placed in it, or else a name is reported on the line of its statement to be unresolved, if and only
if the statement is no difference or the section knows the name: in a difference, nothing is looked
up and nothing is reported. -/
theorem linker_names_known_or_reported_iff (registry : Registry) (source : String)
    (sect : Section) (hsect : sect ∈ (assemble registry source).sections) :
    sect.relocations = sect.statements.flatMap (Statement.linkerFields sect) ∧
    ∀ statement ∈ sect.statements, ∀ relocation ∈ statement.linkerFields sect,
      (sect.Knows relocation.symbol ∨
          (assemble registry source).ReportsUnresolved statement.line ↔
        (statement.isDifference = true → sect.Knows relocation.symbol)) := by
  constructor
  · obtain ⟨lines, hlines, rfl⟩ := exists_lines_of_mem_sections hsect
    exact relocations_assembleSection (openedOnce_of_mem_cutSections _ lines hlines)
  · intro statement hmem relocation hasks
    rcases Statement.cases_of_mem_linkerFields hasks with
      ⟨mnemonic, extended, operand, rest, hop, hlength, hoperands, hnumber, rfl⟩ |
      ⟨name, -, -, hexternal, rfl⟩ | ⟨minuend, subtrahend, hop, hoperands, -⟩
    · have hplain : statement.isDifference = false := by simp [Statement.isDifference, hop]
      have hknown := known_or_reported_of_extended hsect hmem hop hlength hoperands hnumber
      simp [hplain, hknown]
    · have hknown : sect.Knows name := Or.inl (Section.mem_externals_of_isExternal hexternal)
      simp [hknown]
    · have hdifference : statement.isDifference = true := by
        simp [Statement.isDifference, hop, hoperands]
      have hsilent := not_reportsUnresolved_of_difference hsect hmem hop hoperands
      simp [hdifference, hsilent]

/-- A program that imports a name and leaves another one, which it does not know, to the linker. -/
def strangeName : String :=
  "P\tSTART\t0\n\tEXTREF\tQ\n\t+LDA\tQ\n\t+LDA\tNONE\n"

/-- A program that leaves a difference to the linker, of two names that it does not know. -/
def strangeDifference : String := "P\tSTART\t0\n\tWORD\tA-B\n"

theorem strangeName_facts :
    onlySection strangeName ∈ (assemble loadRegistry strangeName).sections ∧
    lastStatement strangeName ∈ (onlySection strangeName).statements ∧
    (lastStatement strangeName).line = 4 ∧ (lastStatement strangeName).isDifference = false ∧
    (lastStatement strangeName).linkerFields (onlySection strangeName) =
      [⟨5, 5, .plus, "NONE"⟩] ∧
    ¬ (onlySection strangeName).Knows "NONE" := by
  decide +kernel

/-- In `strangeName` the name that is not known is reported, as it does not stand in a
difference. -/
theorem linker_names_of_strangeName :
    (assemble loadRegistry strangeName).ReportsUnresolved 4 := by
  obtain ⟨hsect, hmem, hline, hplain, hfields, hunknown⟩ := strangeName_facts
  have hasks : ⟨5, 5, .plus, "NONE"⟩ ∈
      (lastStatement strangeName).linkerFields (onlySection strangeName) := by
    rw [hfields]
    exact List.mem_cons_self
  have hiff := (linker_names_known_or_reported_iff loadRegistry strangeName
    (onlySection strangeName) hsect).2 (lastStatement strangeName) hmem _ hasks
  rw [hplain, hline] at hiff
  exact (hiff.mpr (by simp)).resolve_left hunknown

theorem strangeDifference_facts :
    (assemble loadRegistry strangeDifference).diagnostics = [] ∧
    onlySection strangeDifference ∈ (assemble loadRegistry strangeDifference).sections ∧
    lastStatement strangeDifference ∈ (onlySection strangeDifference).statements ∧
    (lastStatement strangeDifference).linkerFields (onlySection strangeDifference) =
      [⟨0, 6, .plus, "A"⟩, ⟨0, 6, .minus, "B"⟩] ∧
    ¬ (onlySection strangeDifference).Knows "A" := by
  decide +kernel

/-- **Differences are silent**: not every name that is left to the linker is known to its section or
reported on its line. -/
theorem unknown_difference_is_silent :
    ¬ ∀ (registry : Registry) (source : String) (sect : Section),
      sect ∈ (assemble registry source).sections →
      ∀ statement ∈ sect.statements, ∀ relocation ∈ statement.linkerFields sect,
        sect.Knows relocation.symbol ∨
          (assemble registry source).ReportsUnresolved statement.line := by
  intro h
  obtain ⟨hquiet, hsect, hmem, hfields, hunknown⟩ := strangeDifference_facts
  have hasks : ⟨0, 6, .plus, "A"⟩ ∈
      (lastStatement strangeDifference).linkerFields (onlySection strangeDifference) := by
    rw [hfields]
    exact List.mem_cons_self
  rcases h loadRegistry strangeDifference (onlySection strangeDifference) hsect
    (lastStatement strangeDifference) hmem _ hasks with hknown | ⟨name, hname⟩
  · exact hunknown hknown
  · rw [hquiet] at hname
    cases hname

end Program

end SicXe
