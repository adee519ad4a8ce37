import SicXe.Proofs.StatementCode

/-!
# SicXe.Proofs.Regeneration

Producing the object code of a section a second time.

Encoding reads the tables of a section, and of a statement everything but what it writes: the flags,
the code and the contribution.  So a statement that has its code is encoded as it was before
(`ofStatement_ofStatement`), also by way of the base register that the statements in front of it
leave (`ofStatements_ofStatements`).  All that a second time changes is that the relocations are
there twice (`generate_generate`).
-/

namespace SicXe

/-- What a statement is apart from its object code: what its line says and where it lies. -/
def Statement.withoutCode (statement : Statement) : Statement :=
  { statement with flags := {}, code := [], contribution := none }

namespace Encoding

/-! ## what encoding reads -/

/-- Sections with the same tables encode a statement alike. -/
theorem ofStatement_of_tables (registry : Registry) {first second : Section}
    (hsymbols : first.symbols = second.symbols) (hliterals : first.literals = second.literals)
    (hexternals : first.externals = second.externals) (base : Option Nat)
    (statement : Statement) :
    ofStatement registry first base statement = ofStatement registry second base statement := by
  cases first
  cases second
  dsimp only at hsymbols hliterals hexternals
  subst hsymbols hliterals hexternals
  rfl

/-- Of a section, encoding reads the three tables and nothing else. -/
theorem ofStatements_of_tables (registry : Registry) {first second : Section}
    (hsymbols : first.symbols = second.symbols) (hliterals : first.literals = second.literals)
    (hexternals : first.externals = second.externals) (base : Option Nat)
    (statements : List Statement) :
    ofStatements registry first base statements =
      ofStatements registry second base statements := by
  induction statements generalizing base with
  | nil => rfl
  | cons statement rest ih =>
      have hfirst := ofStatement_of_tables registry hsymbols hliterals hexternals base statement
      simp only [ofStatements, hfirst, ih]

/-! ## encoding what is encoded -/

/-- An instruction that is encoded already is encoded in the same way again. -/
theorem ofInstruction_ofInstruction (sect : Section) (base : Option Nat) (statement : Statement)
    (instruction : Instruction) (extended : Bool) :
    ofInstruction sect base (ofInstruction sect base statement instruction extended).statement
        instruction extended =
      ofInstruction sect base statement instruction extended := by
  -- The form is chosen by the length, which encoding leaves alone.
  match hlength : statement.length with
  | 1 => simp [ofInstruction, hlength]
  | 2 => simp [ofInstruction, hlength]
  | 3 => simp [ofInstruction, hlength, Statement.stop]
  | 0 => cases extended <;> simp [ofInstruction, hlength]
  | n + 4 => cases extended <;> simp [ofInstruction, hlength]

theorem ofDirective_of_noPool {sect : Section} {statement : Statement} (base : Option Nat)
    (h : poolContents sect statement.address statement.stop = []) :
    ofDirective sect base statement .ltorg =
      { statement := { statement with code := [] }, base } := by
  simp only [ofDirective]
  rw [if_pos h, h]

theorem ofDirective_of_pool {sect : Section} {statement : Statement} (base : Option Nat)
    (h : poolContents sect statement.address statement.stop ≠ []) :
    ofDirective sect base statement .ltorg =
      { statement :=
          { statement with
            code := poolContents sect statement.address statement.stop
            contribution := some .text }
        base } := by
  simp only [ofDirective]
  rw [if_neg h]

/-- A directive that is encoded already is encoded in the same way again. -/
theorem ofDirective_ofDirective (sect : Section) (base : Option Nat) (statement : Statement)
    (directive : Directive) :
    ofDirective sect base (ofDirective sect base statement directive).statement directive =
      ofDirective sect base statement directive := by
  -- `LTORG` and `END` are encoded alike.
  have hplaces : ofDirective sect base (ofDirective sect base statement .ltorg).statement .ltorg =
      ofDirective sect base statement .ltorg := by
    by_cases hempty : poolContents sect statement.address statement.stop = []
    · rw [ofDirective_of_noPool base hempty]
      apply ofDirective_of_noPool
      exact hempty
    · rw [ofDirective_of_pool base hempty]
      apply ofDirective_of_pool
      exact hempty
  cases directive with
  | byte =>
      have hcases : ofDirective sect base statement .byte = { statement, base } ∨
          ∃ value, statement.operands = [.constant value] := by
        simp only [ofDirective]
        split
        · next value hvalue => exact Or.inr ⟨value, hvalue⟩
        · exact Or.inl rfl
      rcases hcases with hsame | ⟨value, hvalue⟩
      · rw [hsame, hsame]
      · simp [ofDirective, hvalue]
  | ltorg => exact hplaces
  | endProgram => exact hplaces
  | _ => rfl

/-- **Encoding reads nothing that it writes**: a statement that has its code is encoded as it was
before it had it. -/
theorem ofStatement_ofStatement (registry : Registry) (sect : Section) (base : Option Nat)
    (statement : Statement) :
    ofStatement registry sect base (ofStatement registry sect base statement).statement =
      ofStatement registry sect base statement := by
  cases hop : statement.operator with
  | instruction mnemonic extended =>
      cases hget : registry.get? mnemonic with
      | none => simp [ofStatement, hop, hget]
      | some instruction =>
          have hfirst : ofStatement registry sect base statement =
              ofInstruction sect base statement instruction extended := by
            simp [ofStatement, hop, hget]
          have hkept : (ofInstruction sect base statement instruction extended).statement.operator =
              .instruction mnemonic extended := by
            rw [← hfirst, operator_ofStatement, hop]
          rw [hfirst]
          simp [ofStatement, hkept, hget, ofInstruction_ofInstruction]
  | directive directive =>
      have hfirst : ofStatement registry sect base statement =
          ofDirective sect base statement directive := by
        simp [ofStatement, hop]
      have hkept : (ofDirective sect base statement directive).statement.operator =
          .directive directive := by
        rw [← hfirst, operator_ofStatement, hop]
      rw [hfirst]
      simp [ofStatement, hkept, ofDirective_ofDirective]
  | unknown text => simp [ofStatement, hop]

/-- Encoding a run of statements again comes to the same, with the same base register before each
of them. -/
theorem ofStatements_ofStatements (registry : Registry) (sect : Section) (base : Option Nat)
    (statements : List Statement) :
    ofStatements registry sect base
        ((ofStatements registry sect base statements).map Encoding.statement) =
      ofStatements registry sect base statements := by
  induction statements generalizing base with
  | nil => rfl
  | cons first rest ih =>
      simp only [ofStatements, List.map_cons, ofStatement_ofStatement, ih]

/-- Encoding changes nothing of a statement but its code. -/
theorem withoutCode_ofStatement (registry : Registry) (sect : Section) (base : Option Nat)
    (statement : Statement) :
    (ofStatement registry sect base statement).statement.withoutCode = statement.withoutCode := by
  obtain ⟨flags, code, contribution, h⟩ := statement_ofStatement registry sect base statement
  rw [h]
  rfl

/-- Encoding keeps the length of a section. -/
theorem totalLength_ofStatements (registry : Registry) (sect : Section) (base : Option Nat)
    (statements : List Statement) :
    Statement.totalLength ((ofStatements registry sect base statements).map Encoding.statement) =
      Statement.totalLength statements := by
  induction statements generalizing base with
  | nil => rfl
  | cons first rest ih =>
      simp only [ofStatements, List.map_cons, Statement.totalLength, length_ofStatement, ih]

/-- Nothing of the statements of a section but their code is changed by encoding. -/
theorem withoutCode_ofStatements (registry : Registry) (sect : Section) (base : Option Nat)
    (statements : List Statement) :
    ((ofStatements registry sect base statements).map Encoding.statement).map
        Statement.withoutCode =
      statements.map Statement.withoutCode := by
  induction statements generalizing base with
  | nil => rfl
  | cons first rest ih =>
      simp only [ofStatements, List.map_cons, withoutCode_ofStatement, ih]

end Encoding

namespace Section

/-! ## sections -/

/-- The relocations that producing object code adds to a section. -/
def addedRelocations (registry : Registry) (sect : Section) : List Relocation :=
  (Encoding.ofStatements registry sect none sect.statements).flatMap Encoding.relocations

theorem relocations_generate (registry : Registry) (sect : Section) :
    (sect.generate registry).1.relocations =
      sect.relocations ++ sect.addedRelocations registry := rfl

/-- The encodings of a section that has its object code are those it had. -/
theorem ofStatements_generate (registry : Registry) (sect : Section) :
    Encoding.ofStatements registry (sect.generate registry).1 none
        (sect.generate registry).1.statements =
      Encoding.ofStatements registry sect none sect.statements := by
  have htables : ∀ statements,
      Encoding.ofStatements registry (sect.generate registry).1 none statements =
        Encoding.ofStatements registry sect none statements := by
    intro statements
    apply Encoding.ofStatements_of_tables <;> rfl
  rw [htables]
  exact Encoding.ofStatements_ofStatements registry sect none sect.statements

/-- **Producing object code touches nothing else, and can be done again.**  The name, the tables and
the imported symbols of a section stay as they are, and so do its statements apart from their object
code; its length is that of its statements.  Done a second time, it changes no statement and not the
length, reports the same, and adds the relocations once more that it added the first time. -/
theorem generate_generate (registry : Registry) (sect : Section) :
    ((sect.generate registry).1.name = sect.name ∧
      (sect.generate registry).1.symbols = sect.symbols ∧
      (sect.generate registry).1.literals = sect.literals ∧
      (sect.generate registry).1.externals = sect.externals ∧
      (sect.generate registry).1.statements.map Statement.withoutCode =
        sect.statements.map Statement.withoutCode ∧
      (sect.generate registry).1.length = Statement.totalLength sect.statements) ∧
    ∃ added, (sect.generate registry).1.relocations = sect.relocations ++ added ∧
      (sect.generate registry).1.generate registry =
        ({ (sect.generate registry).1 with
            relocations := (sect.generate registry).1.relocations ++ added },
          (sect.generate registry).2) := by
  constructor
  · exact ⟨rfl, rfl, rfl, rfl, Encoding.withoutCode_ofStatements ..,
      Encoding.totalLength_ofStatements ..⟩
  · refine ⟨sect.addedRelocations registry, relocations_generate registry sect, ?_⟩
    conv => lhs; rw [generate, ofStatements_generate]
    rfl

end Section

end SicXe
