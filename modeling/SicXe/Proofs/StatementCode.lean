import SicXe.Proofs.LiteralPool

/-!
# SicXe.Proofs.StatementCode

The object code of one statement.

Encoding a statement changes nothing but its flags, its code and its contribution.  The code is
as long as the statement, which got its length when it was laid out, by other rules: from the
registry, from a constant, or from the literals it places.  Only statements that reserve memory
have a length and no code.
-/

namespace SicXe

open Encoding (poolContents)

/-! ## statements that have been laid out -/

namespace Statement

/-- Whether a statement reserves memory. -/
def reserves (statement : Statement) : Bool :=
  statement.directive? = some .resb || statement.directive? = some .resw

/-- What is known of a statement that has its place: its operator is one that can stand in a
statement, it has no object code yet, and unless it places literals its length is the one its
operator and operands give. -/
structure LaidOut (registry : Registry) (statement : Statement) : Prop where
  known : statement.operator.Known registry
  code : statement.code = []
  contribution : statement.contribution = none
  length : statement.placesLiterals = false →
    Layout.lengthOf registry statement = .ok statement.length

theorem placesLiterals_eq {statement : Statement} {operator : Operator}
    (h : statement.operator = operator) :
    statement.placesLiterals = operator.directive?.any Directive.placesLiterals := by
  rw [placesLiterals, directive?, h]

theorem reserves_eq {statement : Statement} {operator : Operator}
    (h : statement.operator = operator) :
    statement.reserves =
      (operator.directive? = some .resb || operator.directive? = some .resw) := by
  rw [reserves, directive?, h]

end Statement

/-- All statements of a section are laid out. -/
theorem Layout.laidOut_of_mem {registry : Registry} {lines : List (Nat × String)}
    (honce : Program.OpenedOnce lines) :
    ∀ statement ∈ (Layout.addLines registry {} lines).1.statements,
      statement.LaidOut registry := by
  apply layOut_invariant honce
    (P := fun layout => ∀ statement ∈ layout.statements, statement.LaidOut registry)
  · simp
  · intro layout next hrests _ h
    rw [hrests.statements]
    exact h
  · intro layout next number statement noted hgrows h other hmem
    rcases hgrows.mem_statements.mp hmem with hold | rfl
    · exact h other hold
    · refine ⟨hgrows.drafted.known, hgrows.drafted.code, hgrows.drafted.contribution, ?_⟩
      intro hplaces
      have hlength := hgrows.length
      rw [hplaces] at hlength
      exact hlength

namespace Encoding

/-! ## what encoding leaves alone -/

/-- Encoding an instruction sets its flags, its code and its part in the records. -/
theorem statement_ofInstruction (sect : Section) (base : Option Nat) (statement : Statement)
    (instruction : Instruction) (extended : Bool) :
    ∃ flags code contribution,
      (ofInstruction sect base statement instruction extended).statement =
        { statement with flags, code, contribution } := by
  unfold ofInstruction
  dsimp only
  split
  · exact ⟨_, _, _, rfl⟩
  · exact ⟨_, _, _, rfl⟩
  · exact ⟨_, _, _, rfl⟩
  · split <;> exact ⟨_, _, _, rfl⟩

/-- Encoding a directive sets no more than that. -/
theorem statement_ofDirective (sect : Section) (base : Option Nat) (statement : Statement)
    (directive : Directive) :
    ∃ flags code contribution, (ofDirective sect base statement directive).statement =
      { statement with flags, code, contribution } := by
  cases directive with
  | byte => unfold ofDirective; dsimp only; split <;> exact ⟨_, _, _, rfl⟩
  | ltorg => unfold ofDirective; dsimp only; split <;> exact ⟨_, _, _, rfl⟩
  | endProgram => unfold ofDirective; dsimp only; split <;> exact ⟨_, _, _, rfl⟩
  | _ => exact ⟨_, _, _, rfl⟩

/-- **Encoding keeps a statement where it is**: only the flags, the code and the contribution
change. -/
theorem statement_ofStatement (registry : Registry) (sect : Section) (base : Option Nat)
    (statement : Statement) :
    ∃ flags code contribution, (ofStatement registry sect base statement).statement =
      { statement with flags, code, contribution } := by
  unfold ofStatement
  split
  · split
    · exact statement_ofInstruction ..
    · exact ⟨_, _, _, rfl⟩
  · exact statement_ofDirective ..
  · exact ⟨_, _, _, rfl⟩

section
variable (registry : Registry) (sect : Section) (base : Option Nat) (statement : Statement)

@[simp] theorem line_ofStatement :
    (ofStatement registry sect base statement).statement.line = statement.line := by
  obtain ⟨flags, code, contribution, h⟩ := statement_ofStatement registry sect base statement
  rw [h]

@[simp] theorem operator_ofStatement :
    (ofStatement registry sect base statement).statement.operator = statement.operator := by
  obtain ⟨flags, code, contribution, h⟩ := statement_ofStatement registry sect base statement
  rw [h]

@[simp] theorem operands_ofStatement :
    (ofStatement registry sect base statement).statement.operands = statement.operands := by
  obtain ⟨flags, code, contribution, h⟩ := statement_ofStatement registry sect base statement
  rw [h]

@[simp] theorem address_ofStatement :
    (ofStatement registry sect base statement).statement.address = statement.address := by
  obtain ⟨flags, code, contribution, h⟩ := statement_ofStatement registry sect base statement
  rw [h]

@[simp] theorem length_ofStatement :
    (ofStatement registry sect base statement).statement.length = statement.length := by
  obtain ⟨flags, code, contribution, h⟩ := statement_ofStatement registry sect base statement
  rw [h]

@[simp] theorem reserves_ofStatement :
    (ofStatement registry sect base statement).statement.reserves = statement.reserves :=
  Statement.reserves_eq (operator_ofStatement ..)

end

/-! ## the length of the code -/

/-- An instruction is as long as its format says, and one byte longer in the extended form. -/
theorem length_of_instruction {registry : Registry} {statement : Statement} {mnemonic : String}
    {extended : Bool} (hlaid : statement.LaidOut registry)
    (hop : statement.operator = .instruction mnemonic extended) :
    ∃ found, registry.get? mnemonic = some found ∧
      statement.length = found.format.size + extended.toNat ∧
      (extended = true → found.format = .three) := by
  have hknown := hlaid.known
  rw [hop] at hknown
  obtain ⟨found, hget, hext⟩ := hknown
  have hlength := hlaid.length (Statement.placesLiterals_eq hop)
  simp only [Layout.lengthOf, hop, hget, Option.map_some, Option.getD_some,
    Except.ok.injEq] at hlength
  exact ⟨found, hget, hlength.symm, hext⟩

/-- **An instruction** has as many bytes of code as its form takes. -/
theorem length_code_ofInstruction (sect : Section) (base : Option Nat) (statement : Statement)
    (instruction : Instruction) (extended : Bool)
    (hlength : statement.length = instruction.format.size + extended.toNat)
    (hext : extended = true → instruction.format = .three) :
    (ofInstruction sect base statement instruction extended).statement.code.length =
      statement.length := by
  cases extended with
  | true =>
      rw [hext rfl] at hlength
      simp [ofInstruction, hlength, Format.size, format4]
  | false =>
      cases hform : instruction.format with
      | one => simp [ofInstruction, hlength, hform, Format.size]
      | two => simp [ofInstruction, hlength, hform, Format.size, format2]
      | three => simp [ofInstruction, hlength, hform, Format.size, format3]

/-- The length of a directive that places no literals. -/
theorem lengthOf_directive {registry : Registry} {statement : Statement} {directive : Directive}
    (hlaid : statement.LaidOut registry) (hop : statement.operator = .directive directive)
    (hplaces : directive.placesLiterals = false) :
    Layout.lengthOf registry statement = .ok statement.length :=
  hlaid.length ((Statement.placesLiterals_eq hop).trans hplaces)

/-- The code of a directive that places literals is what is found within its addresses. -/
theorem code_ofDirective_pool (sect : Section) (base : Option Nat) (statement : Statement)
    {directive : Directive} (hplaces : directive.placesLiterals = true) :
    (ofDirective sect base statement directive).statement.code =
      poolContents sect statement.address statement.stop := by
  cases directive with
  | ltorg => unfold ofDirective; dsimp only; split <;> rfl
  | endProgram => unfold ofDirective; dsimp only; split <;> rfl
  | _ => cases hplaces

/-- **A directive** has as many bytes of code as its statement takes, if it reserves nothing. -/
theorem length_code_ofDirective {registry : Registry} (sect : Section) (base : Option Nat)
    {statement : Statement} {directive : Directive} (hlaid : statement.LaidOut registry)
    (hop : statement.operator = .directive directive)
    (hpool : directive.placesLiterals = true →
      (poolContents sect statement.address statement.stop).length = statement.length)
    (hreserves : statement.reserves = false) :
    (ofDirective sect base statement directive).statement.code.length = statement.length := by
  have hlength := lengthOf_directive hlaid hop
  have hcode := hlaid.code
  cases directive with
  | byte =>
      have hlength := hlength rfl
      simp only [Layout.lengthOf, hop] at hlength
      split at hlength
      · next value hoperands =>
          rw [Except.ok.injEq] at hlength
          simp [ofDirective, hoperands, ← hlength, Constant.size]
      · cases hlength
  | word =>
      have hlength := hlength rfl
      simp only [Layout.lengthOf, hop] at hlength
      have hthree : statement.length = 3 := by
        split at hlength
        · exact (Except.ok.inj hlength).symm
        · exact (Except.ok.inj hlength).symm
        · exact (Except.ok.inj hlength).symm
        · cases hlength
      rw [hthree]
      rfl
  | ltorg => rw [← hpool rfl, code_ofDirective_pool sect base statement rfl]
  | endProgram => rw [← hpool rfl, code_ofDirective_pool sect base statement rfl]
  | resb => cases (Statement.reserves_eq hop).symm.trans hreserves
  | resw => cases (Statement.reserves_eq hop).symm.trans hreserves
  | _ =>
      have hlength := hlength rfl
      simp only [Layout.lengthOf, hop, Except.ok.injEq] at hlength
      simp [ofDirective, hcode, ← hlength]

/-- **Code fills its statement**: the code of a statement that reserves no memory is as long as
the statement, if the pools of its section are as long as theirs. -/
theorem length_code_ofStatement {registry : Registry} (sect : Section) (base : Option Nat)
    {statement : Statement} (hlaid : statement.LaidOut registry)
    (hpool : statement.placesLiterals = true →
      (poolContents sect statement.address statement.stop).length = statement.length)
    (hreserves : statement.reserves = false) :
    (ofStatement registry sect base statement).statement.code.length = statement.length := by
  cases hop : statement.operator with
  | instruction mnemonic extended =>
      obtain ⟨found, hget, hlength, hext⟩ := length_of_instruction hlaid hop
      simp only [ofStatement, hop, hget]
      exact length_code_ofInstruction sect base statement found extended hlength hext
  | directive directive =>
      simp only [ofStatement, hop]
      exact length_code_ofDirective sect base hlaid hop
        (fun hplaces => hpool ((Statement.placesLiterals_eq hop).trans hplaces)) hreserves
  | unknown text =>
      have hlength := hlaid.length (Statement.placesLiterals_eq hop)
      simp only [Layout.lengthOf, hop, Except.ok.injEq] at hlength
      simp [ofStatement, hop, hlaid.code, ← hlength]

/-- A statement that reserves memory has no code. -/
theorem code_of_reserves {registry : Registry} (sect : Section) (base : Option Nat)
    {statement : Statement} (hlaid : statement.LaidOut registry)
    (hreserves : statement.reserves = true) :
    (ofStatement registry sect base statement).statement.code = [] := by
  cases hop : statement.operator with
  | directive directive =>
      simp only [ofStatement, hop]
      cases directive with
      | resb => exact hlaid.code
      | resw => exact hlaid.code
      | _ => cases (Statement.reserves_eq hop).symm.trans hreserves
  | _ => cases (Statement.reserves_eq hop).symm.trans hreserves

/-- The code of a statement that places literals is what is found within its addresses. -/
theorem code_of_placesLiterals (registry : Registry) (sect : Section) (base : Option Nat)
    {statement : Statement} (hplaces : statement.placesLiterals = true) :
    (ofStatement registry sect base statement).statement.code =
      poolContents sect statement.address statement.stop := by
  cases hop : statement.operator with
  | directive directive =>
      simp only [ofStatement, hop]
      exact code_ofDirective_pool sect base statement
        ((Statement.placesLiterals_eq hop).symm.trans hplaces)
  | _ => cases (Statement.placesLiterals_eq hop).symm.trans hplaces

/-! ## the contribution of the code -/

/-- An instruction always goes into text records. -/
theorem contribution_ofInstruction (sect : Section) (base : Option Nat)
    (statement : Statement) (instruction : Instruction) (extended : Bool) :
    (ofInstruction sect base statement instruction extended).statement.contribution =
      some .text := by
  unfold ofInstruction
  dsimp only
  split
  · rfl
  · rfl
  · rfl
  · split <;> rfl

/-- **No code is kept back**: a statement with code contributes it to the text records. -/
theorem contribution_of_code_ne_nil {registry : Registry} (sect : Section) (base : Option Nat)
    {statement : Statement} (hlaid : statement.LaidOut registry)
    (hne : (ofStatement registry sect base statement).statement.code ≠ []) :
    (ofStatement registry sect base statement).statement.contribution = some .text := by
  have hcode := hlaid.code
  cases hop : statement.operator with
  | instruction mnemonic extended =>
      obtain ⟨found, hget, -, -⟩ := length_of_instruction hlaid hop
      simp only [ofStatement, hop, hget]
      exact contribution_ofInstruction ..
  | directive directive =>
      simp only [ofStatement, hop] at hne ⊢
      cases directive with
      | byte =>
          unfold ofDirective at hne ⊢
          dsimp only at hne ⊢
          split at hne
          · next value hoperands => rw [hoperands]
          · exact absurd hcode hne
      | word => rfl
      | ltorg =>
          unfold ofDirective at hne ⊢
          dsimp only at hne ⊢
          split at hne
          · next hempty => exact absurd hempty hne
          · next hfull => rw [if_neg hfull]
      | endProgram =>
          unfold ofDirective at hne ⊢
          dsimp only at hne ⊢
          split at hne
          · next hempty => exact absurd hempty hne
          · next hfull => rw [if_neg hfull]
      | _ => exact absurd hcode hne
  | unknown text =>
      simp only [ofStatement, hop] at hne
      exact absurd hcode hne

end Encoding

end SicXe
