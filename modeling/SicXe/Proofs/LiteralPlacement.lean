import SicXe.Proofs.LiteralReferences
import SicXe.Proofs.NumberFields
import SicXe.Proofs.PrefixStability

/-!
# SicXe.Proofs.LiteralPlacement

Where the literals of a section are placed.

While a section is laid out, the literals without a place are those that wait, in their order, and
a statement that places literals puts them one behind another from its own address on
(`PoolsPlaced`).  A literal that has its place keeps it.  So where a literal is placed can be
read off the statements of the assembled section, and so can which literals are reported for not
being placed (`literals_are_placed_in_order`).

The room of each literal is read off its text.  The text of a word that starts with a letter does
not read back, so the word gets no room, and the literals behind it lie where it should end
(`unreadable_word_has_no_room`).
-/

namespace SicXe

namespace Layout

/-! ## one statement -/

/-- What becomes of the literal of a statement: nothing if it is known, and else it goes behind the
others and its first use is noted. -/
theorem noted_defined (layout : Layout) (statement : Statement) :
    ((∀ literal ∈ statement.literal?, literal.text ∈ layout.literals.names) ∧
      (layout.defined statement).literals = layout.literals ∧
      (layout.defined statement).firstUses = layout.firstUses) ∨
    ∃ literal, statement.literal? = some literal ∧ literal.text ∉ layout.literals.names ∧
      (layout.defined statement).literals =
        ⟨layout.literals.entries ++ [(literal.text, none)]⟩ ∧
      (layout.defined statement).firstUses =
        layout.firstUses ++ [(literal.text, statement.line)] := by
  obtain ⟨symbols, hlabel⟩ := defineLabel_eq layout statement
  rw [defined, hlabel, Statement.literal?]
  unfold noteLiteral
  cases hfirst : firstLiteral? statement.operands with
  | none => exact Or.inl ⟨by simp, rfl, rfl⟩
  | some literal =>
      cases hknown : layout.literals.contains literal.text with
      | true =>
          refine Or.inl ⟨?_, ?_, ?_⟩
          · simpa using AddressTable.contains_iff.mp hknown
          · simp [AddressTable.declare, AddressTable.add, hknown]
          · simp [AddressTable.declare, AddressTable.add, hknown]
      | false =>
          refine Or.inr ⟨literal, rfl, AddressTable.contains_eq_false_iff.mp hknown, ?_, ?_⟩
          · simp [AddressTable.declare, AddressTable.add, hknown]
          · simp [AddressTable.declare, AddressTable.add, hknown]

theorem firstUses_obeyed_eq (layout : Layout) (statement : Statement) :
    (layout.obeyed statement).firstUses = (layout.defined statement).firstUses := by
  obtain ⟨_, _, hobey⟩ :=
    obeyDirective_eq (layout.defined statement) statement (layout.labelIsNew statement)
  rw [obeyed, hobey]

/-- Literals in a table that belongs to statements: they are those of the statements, those without
a place are those that wait, and each pool holds its own from its address on. -/
structure PoolsPlaced (statements : List Statement) (literals : AddressTable)
    (uses : List (String × Nat)) : Prop where
  names : literals.names = (Statement.literals statements).map Literal.text
  pending : literals.pending = (Statement.waiting statements).map Literal.text
  noted : literals.names = uses.map Prod.fst
  uses : ∀ before statement after literal, statements = before ++ statement :: after →
    Statement.FirstRefers before statement literal →
      uses.lookup literal.text = some statement.line
  lengths : ∀ before flush after, statements = before ++ flush :: after →
    flush.placesLiterals = true →
      flush.length = (((Statement.pool before flush).map Literal.text).map literalSize).sum
  located : ∀ before flush after, statements = before ++ flush :: after →
    flush.placesLiterals = true →
      ∀ front literal back, Statement.pool before flush = front ++ literal :: back →
        literals.lookup literal.text =
          some (flush.address + ((front.map Literal.text).map literalSize).sum)

namespace PoolsPlaced

section
variable {statements : List Statement} {literals : AddressTable} {uses : List (String × Nat)}

/-- The names in the table are the texts of the literals that statements refer to. -/
theorem mem_names (h : PoolsPlaced statements literals uses) {literal : Literal} :
    literal.text ∈ literals.names ↔ literal ∈ Statement.literals statements := by
  rw [h.names, List.mem_map_of_injective Literal.text_injective]

/-- No literal is in the table twice. -/
theorem nodup_names (h : PoolsPlaced statements literals uses) : literals.names.Nodup := by
  rw [h.names]
  exact (nodup_firstOccurrences ..).map Literal.text_injective

/-- Where literals lie does not depend on object code. -/
theorem of_map_withoutCode
    (h : PoolsPlaced (statements.map Statement.withoutCode) literals uses) :
    PoolsPlaced statements literals uses := by
  have hsplits : ∀ {before statement after}, statements = before ++ statement :: after →
      statements.map Statement.withoutCode = before.map Statement.withoutCode ++
        statement.withoutCode :: after.map Statement.withoutCode := by
    rintro before statement after rfl
    rw [List.map_append, List.map_cons]
  constructor
  · rw [h.names, Statement.literals_map_withoutCode]
  · rw [h.pending, Statement.waiting_map_withoutCode]
  · exact h.noted
  · intro before statement after literal hsplit hfirst
    have hmoved : Statement.FirstRefers (before.map Statement.withoutCode) statement.withoutCode
        literal := ⟨hfirst.refers, by rw [Statement.literals_map_withoutCode]; exact hfirst.first⟩
    have huse := h.uses _ _ _ literal (hsplits hsplit) hmoved
    exact huse
  · intro before flush after hsplit hplaces
    rw [← Statement.pool_map_withoutCode]
    exact h.lengths _ _ _ (hsplits hsplit) hplaces
  · intro before flush after hsplit hplaces front literal back hpool
    rw [← Statement.pool_map_withoutCode] at hpool
    exact h.located _ _ _ (hsplits hsplit) hplaces front literal back hpool

end

end PoolsPlaced

/-- The literals of a layout lie as its statements say. -/
def LiteralsPlaced (layout : Layout) : Prop :=
  PoolsPlaced layout.statements layout.literals layout.firstUses

section
variable {layout : Layout} {statement : Statement}

/-- What a statement does to the literals of a layout before it places any. -/
theorem LiteralsPlaced.noted_cases (h : layout.LiteralsPlaced) (statement : Statement) :
    ((∀ literal ∈ (layout.resized statement).literal?,
        literal ∈ Statement.literals layout.statements) ∧
      (layout.defined statement).literals = layout.literals ∧
      (layout.defined statement).firstUses = layout.firstUses) ∨
    ∃ literal, Statement.FirstRefers layout.statements (layout.resized statement) literal ∧
      (layout.defined statement).literals =
        ⟨layout.literals.entries ++ [(literal.text, none)]⟩ ∧
      (layout.defined statement).firstUses =
        layout.firstUses ++ [(literal.text, statement.line)] := by
  rcases noted_defined layout statement with
    ⟨hold, hliterals, huses⟩ | ⟨literal, hliteral, hnew, hliterals, huses⟩
  · refine Or.inl ⟨fun literal hliteral => ?_, hliterals, huses⟩
    rw [← h.mem_names]
    exact hold literal hliteral
  · rw [h.mem_names] at hnew
    exact Or.inr ⟨literal, ⟨hliteral, hnew⟩, hliterals, huses⟩

/-- A statement brings its literal into the table, if it is new. -/
theorem LiteralsPlaced.names_defined (h : layout.LiteralsPlaced) (statement : Statement) :
    (layout.defined statement).literals.names =
      (Statement.literals (layout.statements ++ [layout.resized statement])).map
        Literal.text := by
  rcases h.noted_cases statement with ⟨hold, hliterals, -⟩ | ⟨literal, hfirst, hliterals, -⟩
  · rw [hliterals, h.names]
    exact congrArg _ (Statement.literals_concat_of_old hold).symm
  · rw [hliterals, hfirst.literals_eq, List.map_append, ← h.names]
    simp [AddressTable.names]

/-- The literals without a place are those of the pool of a statement, before it places them. -/
theorem LiteralsPlaced.pending_defined (h : layout.LiteralsPlaced) (statement : Statement) :
    (layout.defined statement).literals.pending =
      (Statement.pool layout.statements (layout.resized statement)).map Literal.text := by
  rcases h.noted_cases statement with ⟨hold, hliterals, -⟩ | ⟨literal, hfirst, hliterals, -⟩
  · rw [hliterals, h.pending, Statement.pool_of_old hold]
  · rw [hliterals, hfirst.pool_eq, List.map_append, ← h.pending]
    simp [AddressTable.pending]

/-- What waits behind a statement is what it leaves unplaced. -/
theorem LiteralsPlaced.pending_keep (h : layout.LiteralsPlaced) (statement : Statement) :
    (layout.obeyed statement).literals.pending =
      (Statement.waiting (layout.statements ++ [layout.resized statement])).map
        Literal.text := by
  rw [literals_obeyed]
  cases hplaces : statement.placesLiterals with
  | true =>
      rw [Statement.waiting_concat_of_places
        (show (layout.resized statement).placesLiterals = true from hplaces)]
      exact AddressTable.pending_placeFrom ..
  | false =>
      rw [Statement.waiting_concat_of_not
        (show (layout.resized statement).placesLiterals = false from hplaces), ← h.pending_defined]
      rfl

/-- The first use of a literal stays where it was noted. -/
theorem LiteralsPlaced.uses_keep (h : layout.LiteralsPlaced) (statement : Statement)
    {before after : List Statement} {other : Statement} {literal : Literal}
    (hsplit : layout.statements ++ [layout.resized statement] = before ++ other :: after)
    (hfirst : Statement.FirstRefers before other literal) :
    (layout.obeyed statement).firstUses.lookup literal.text = some other.line := by
  rw [firstUses_obeyed_eq]
  rcases split_concat hsplit with ⟨rfl, rfl, rfl⟩ | ⟨rest, -, hbefore⟩
  · rcases h.noted_cases statement with ⟨hold, -, -⟩ | ⟨found, hnew, -, huses⟩
    · exact absurd (hold literal hfirst.refers) hfirst.first
    · obtain rfl : literal = found := Option.some.inj (hfirst.refers.symm.trans hnew.refers)
      -- The literal is not among the first uses yet.
      have hnone : layout.firstUses.lookup literal.text = none := by
        rw [List.lookup_eq_none_iff]
        intro use huse
        have hname : use.1 ∈ layout.literals.names := by
          rw [h.noted]
          exact List.mem_map_of_mem huse
        have hne : literal.text ≠ use.1 := fun hsame =>
          hfirst.first (h.mem_names.mp (hsame ▸ hname))
        simpa using hne
      rw [huses, List.lookup_append, hnone, List.lookup_cons_self]
      rfl
  · have hold := h.uses before other rest literal hbefore hfirst
    rcases h.noted_cases statement with ⟨-, -, huses⟩ | ⟨found, -, -, huses⟩
    · rw [huses, hold]
    · rw [huses, List.lookup_append, hold]
      rfl

/-- **Keeping a statement** places its pool and leaves the others where they are. -/
theorem LiteralsPlaced.keep (h : layout.LiteralsPlaced) (statement : Statement) :
    (layout.keep statement).LiteralsPlaced := by
  have hkept := statements_kept layout statement
  constructor
  · rw [hkept, ← h.names_defined]
    exact names_literals_obeyed layout statement
  · rw [hkept]
    exact h.pending_keep statement
  · exact usesNoted_obeyed statement h.noted
  · intro before other after literal hsplit hfirst
    exact h.uses_keep statement (hkept ▸ hsplit) hfirst
  · intro before flush after hsplit hplaces
    rcases split_concat (hkept ▸ hsplit) with ⟨rfl, rfl, rfl⟩ | ⟨rest, -, hbefore⟩
    · rw [length_resized, if_pos (show statement.placesLiterals = true from hplaces),
        AddressTable.snd_placePending, h.pending_defined]
    · exact h.lengths before flush rest hbefore hplaces
  · intro before flush after hsplit hplaces front literal back hpool
    rcases split_concat (hkept ▸ hsplit) with ⟨rfl, rfl, rfl⟩ | ⟨rest, -, hbefore⟩
    · have hnodup : (layout.defined statement).literals.names.Nodup := by
        rw [h.names_defined]
        exact (nodup_firstOccurrences ..).map Literal.text_injective
      have hpending := h.pending_defined statement
      rw [hpool, List.map_append, List.map_cons] at hpending
      have hobeyed : (layout.keep statement).literals =
          ((layout.defined statement).literals.placePending literalSize statement.address).1 :=
        (literals_obeyed layout statement).trans
          (if_pos (show statement.placesLiterals = true from hplaces))
      rw [hobeyed]
      exact AddressTable.lookup_placeFrom_of_pending hnodup hpending
    · exact lookup_literals_obeyed
        (h.located before flush rest hbefore hplaces front literal back hpool) statement

end

/-- **Pools of a section that stays in memory** hold the literals that wait for them. -/
theorem literalsPlaced_addLines {registry : Registry} {lines : List (Nat × String)}
    (hnodup : (lines.map Prod.fst).Nodup)
    (hstays : StayInMemory (addLines registry {} lines).2.diagnostics) :
    (addLines registry {} lines).1.LiteralsPlaced := by
  refine kept_invariant (P := fun layout _ => layout.LiteralsPlaced) hnodup hstays ?_ ?_ ?_ ?_
  · constructor
    · rfl
    · rfl
    · rfl
    · simp
    · simp
    · simp
  · intro layout _ statement h
    unfold openSection
    split
    · exact ⟨h.names, h.pending, h.noted, h.uses, h.lengths, h.located⟩
    · exact h
  · exact fun layout _ _ _ h => h
  · exact fun layout _ statement _ _ h => h.keep statement

/-! ## literals without a place -/

/-- Statements on different lines have one place for each line. -/
theorem split_of_line_eq {before after before' after' : List Statement} {first second : Statement}
    (hnodup : ((before ++ first :: after).map Statement.line).Nodup)
    (hsplit : before ++ first :: after = before' ++ second :: after')
    (hline : second.line = first.line) : before' = before ∧ second = first ∧ after' = after := by
  induction before generalizing before' with
  | nil =>
      cases before' with
      | nil =>
          obtain ⟨rfl, rfl⟩ := List.cons_eq_cons.mp hsplit
          exact ⟨rfl, rfl, rfl⟩
      | cons other rest =>
          obtain ⟨rfl, rfl⟩ := List.cons_eq_cons.mp hsplit
          obtain ⟨hnew, -⟩ := List.nodup_cons.mp (List.map_cons ▸ hnodup)
          exact absurd (hline ▸ List.mem_map_of_mem (by simp)) hnew
  | cons other rest ih =>
      obtain ⟨hnew, hrest⟩ := List.nodup_cons.mp (List.map_cons ▸ hnodup)
      cases before' with
      | nil =>
          obtain ⟨rfl, rfl⟩ := List.cons_eq_cons.mp hsplit
          exact absurd (hline ▸ List.mem_map_of_mem (by simp)) hnew
      | cons other' rest' =>
          obtain ⟨rfl, hsame⟩ := List.cons_eq_cons.mp hsplit
          obtain ⟨rfl, rfl, rfl⟩ := ih hrest hsame
          exact ⟨rfl, rfl, rfl⟩

namespace PoolsPlaced

section
variable {statements before after : List Statement} {literals : AddressTable}
  {uses : List (String × Nat)} {statement : Statement} {literal : Literal}

/-- **A literal goes to the first pool from its first reference on**, behind those that wait
before it. -/
theorem lookup_of_firstRefers (h : PoolsPlaced statements literals uses)
    {skipped rest : List Statement} {flush : Statement}
    (hsplit : statements = before ++ statement :: rest)
    (hfirst : Statement.FirstRefers before statement literal)
    (hrest : statement :: rest = skipped ++ flush :: after)
    (hskipped : ∀ other ∈ skipped, other.placesLiterals = false)
    (hplaces : flush.placesLiterals = true) :
    literals.lookup literal.text = some
      (flush.address + (((Statement.waiting before).map Literal.text).map literalSize).sum) := by
  obtain ⟨back, hpool⟩ := Statement.pool_of_firstRefers hfirst hrest hskipped
  rw [hrest, ← List.append_assoc] at hsplit
  exact h.located _ flush after hsplit hplaces _ literal back hpool

/-- A literal has no place if no statement from its first reference on places literals. -/
theorem mem_pending_iff (h : PoolsPlaced statements literals uses)
    (hsplit : statements = before ++ statement :: after)
    (hfirst : Statement.FirstRefers before statement literal) :
    literal.text ∈ literals.pending ↔
      ∀ other ∈ statement :: after, other.placesLiterals = false := by
  rw [h.pending, List.mem_map_of_injective Literal.text_injective, hsplit]
  exact hfirst.mem_waiting_iff

end

section
variable {layout : Layout} {statements before after : List Statement} {statement : Statement}
  {literal : Literal}

/-- **Reports of literals without a place** are on the lines of their first references. -/
theorem mem_unplaced_iff (h : PoolsPlaced statements layout.literals layout.firstUses)
    {diagnostic : Diagnostic} :
    diagnostic ∈ layout.unplaced ↔
      ∃ before statement after literal, statements = before ++ statement :: after ∧
        Statement.FirstRefers before statement literal ∧
        (∀ other ∈ statement :: after, other.placesLiterals = false) ∧
        diagnostic = ⟨statement.line, .unplacedLiteral literal.text⟩ := by
  constructor
  · intro hmem
    obtain ⟨text, hpending, rfl⟩ := List.mem_map.mp hmem
    have hname := AddressTable.mem_names_of_mem_pending hpending
    rw [h.names] at hname
    obtain ⟨literal, hliteral, rfl⟩ := List.mem_map.mp hname
    obtain ⟨before, statement, after, hsplit, hrefers, hnew⟩ :=
      exists_first_of_mem_firstOccurrences hliteral
    have hfirst : Statement.FirstRefers before statement literal := ⟨hrefers, hnew⟩
    refine ⟨before, statement, after, literal, hsplit, hfirst,
      (h.mem_pending_iff hsplit hfirst).mp hpending, ?_⟩
    rw [h.uses before statement after literal hsplit hfirst]
    rfl
  · rintro ⟨before, statement, after, literal, hsplit, hfirst, hnone, rfl⟩
    refine List.mem_map.mpr
      ⟨literal.text, (h.mem_pending_iff hsplit hfirst).mpr hnone, ?_⟩
    rw [h.uses before statement after literal hsplit hfirst]
    rfl

/-- No line has two such reports. -/
theorem nodup_lines_unplaced (h : PoolsPlaced statements layout.literals layout.firstUses)
    (hlines : (statements.map Statement.line).Nodup) :
    (layout.unplaced.map Diagnostic.line).Nodup := by
  have hpending : layout.literals.pending.Nodup :=
    h.nodup_names.sublist (List.filter_sublist.map Prod.fst)
  have hunplaced : layout.unplaced.Nodup := by
    refine hpending.map fun first second hsame => ?_
    simpa using congrArg Diagnostic.fault hsame
  refine List.Nodup.map_on (fun first hfirst second hsecond hsame => ?_) hunplaced
  obtain ⟨before, statement, after, literal, rfl, hrefers, -, rfl⟩ := h.mem_unplaced_iff.mp hfirst
  obtain ⟨before', other, after', literal', hsplit, hrefers', -, rfl⟩ :=
    h.mem_unplaced_iff.mp hsecond
  obtain ⟨rfl, rfl, rfl⟩ := split_of_line_eq hlines hsplit hsame.symm
  obtain rfl : literal = literal' :=
    Option.some.inj (hrefers.refers.symm.trans hrefers'.refers)
  rfl

/-- **A literal without a pool behind it** is reported once, on the line that refers to it first. -/
theorem filter_unplaced_of_firstRefers
    (h : PoolsPlaced statements layout.literals layout.firstUses)
    (hlines : (statements.map Statement.line).Nodup)
    (hsplit : statements = before ++ statement :: after)
    (hfirst : Statement.FirstRefers before statement literal)
    (hnone : ∀ other ∈ statement :: after, other.placesLiterals = false) :
    (layout.unplaced.filter fun diagnostic => diagnostic.line = statement.line) =
      [⟨statement.line, .unplacedLiteral literal.text⟩] :=
  Program.filter_eq_singleton_of_nodup (h.nodup_lines_unplaced hlines)
    (h.mem_unplaced_iff.mpr ⟨before, statement, after, literal, hsplit, hfirst, hnone, rfl⟩)

/-- On every other line no literal is reported. -/
theorem filter_unplaced_of_not (h : PoolsPlaced statements layout.literals layout.firstUses)
    (hlines : (statements.map Statement.line).Nodup)
    (hsplit : statements = before ++ statement :: after)
    (hplaced : ∀ literal, Statement.FirstRefers before statement literal →
      ∃ flush ∈ statement :: after, flush.placesLiterals = true) :
    (layout.unplaced.filter fun diagnostic => diagnostic.line = statement.line) = [] := by
  subst hsplit
  refine Diagnostic.filter_line_eq_nil fun hmem => ?_
  obtain ⟨diagnostic, hreported, hline⟩ := List.mem_map.mp hmem
  obtain ⟨before', other, after', literal, hsplit, hfirst, hnone, rfl⟩ :=
    h.mem_unplaced_iff.mp hreported
  obtain ⟨rfl, rfl, rfl⟩ := split_of_line_eq hlines hsplit hline
  obtain ⟨flush, hflush, hplaces⟩ := hplaced literal hfirst
  rw [hnone flush hflush] at hplaces
  cases hplaces

end

end PoolsPlaced

theorem mem_operands_of_firstLiteral? {operands : List Operand} {literal : Literal}
    (h : firstLiteral? operands = some literal) : .literal literal ∈ operands := by
  obtain ⟨operand, hmem, hfound⟩ := List.exists_of_findSome?_eq_some h
  split at hfound
  · cases hfound
    exact hmem
  · cases hfound

/-- The literals of a draft can be written in an operand field. -/
theorem written_of_draft {registry : Registry} {number : Nat} {text : String}
    {statement : Statement} (h : draft registry number text = .ok (some statement))
    {literal : Literal} (hmem : .literal literal ∈ statement.operands) : literal.Written := by
  obtain ⟨-, field, -, -, hread⟩ := exists_readAll_of_draft h (List.ne_nil_of_mem hmem)
  exact Operand.written_of_mem_readAll hread hmem

/-- The literals of a section can be written in an operand field. -/
theorem written_of_mem_literals {registry : Registry} {lines : List (Nat × String)}
    {literal : Literal}
    (h : literal ∈ Statement.literals (addLines registry {} lines).1.statements) :
    literal.Written := by
  obtain ⟨statement, hmem, hrefers⟩ := mem_firstOccurrences.mp h
  have hoperand := mem_operands_of_firstLiteral? hrefers
  obtain ⟨line, -, drafted, address, length, hdraft, rfl⟩ :=
    exists_draft_of_mem_addLines statement hmem
  exact written_of_draft hdraft hoperand

end Layout

/-! ## literals as operands -/

namespace Encoding

theorem unresolved_notMem_countFaults {instruction : Instruction} {operands : List Operand}
    {name : String} : .unresolvedReference name ∉ countFaults instruction operands := by
  intro h
  cases eq_of_mem_unless h

theorem unresolved_notMem_format2 {instruction : Instruction} {shift : Bool}
    {operands : List Operand} {name : String} :
    .unresolvedReference name ∉ (format2 instruction shift operands).2 := by
  intro h
  obtain ⟨field, hfield, hfault⟩ := List.mem_flatMap.mp h
  obtain ⟨operand, -, rfl⟩ := List.mem_map.mp hfield
  unfold registerField at hfault
  split at hfault
  · split at hfault <;> simp at hfault
  · cases eq_of_mem_unless hfault
  · simp at hfault

/-- A displacement reports only names that cannot be found. -/
theorem lookup_of_mem_displacement {sect : Section} {base : Option Nat} {counter : Nat}
    {operands : List Operand} {name : String}
    (h : .unresolvedReference name ∈ (displacement sect base counter operands).faults) :
    sect.lookup name = none := by
  unfold displacement at h
  split at h
  · simp at h
  · split at h
    · cases eq_of_mem_unless h
    · dsimp only at h
      split at h
      · simp at h
      · split at h
        · unfold reach at h
          dsimp only at h
          split at h
          · simp at h
          · split at h
            · simp at h
            · split at h <;> simp at h
        · next hnone =>
            obtain rfl : name = _ := by simpa using h
            exact hnone

/-- So does an address of the extended form. -/
theorem lookup_of_mem_extendedAddress {sect : Section} {start : Nat} {operands : List Operand}
    {name : String}
    (h : .unresolvedReference name ∈ (extendedAddress sect start operands).2.2) :
    sect.lookup name = none := by
  unfold extendedAddress at h
  split at h
  · simp at h
  · split at h
    · simp at h
    · dsimp only at h
      split at h
      · simp at h
      · next hunknown =>
          obtain rfl : name = _ := by simpa using h
          simpa using (not_or.mp (mt (Bool.or_eq_true ..).mpr hunknown)).2

/-- **A name that an instruction cannot resolve** is neither a symbol nor a placed literal. -/
theorem lookup_of_unresolved {registry : Registry} {sect : Section} {base : Option Nat}
    {statement : Statement} {mnemonic name : String} {extended : Bool}
    (hop : statement.operator = .instruction mnemonic extended)
    (h : .unresolvedReference name ∈ (ofStatement registry sect base statement).faults) :
    sect.lookup name = none := by
  unfold ofStatement at h
  rw [hop] at h
  dsimp only at h
  split at h
  · next instruction _ =>
      unfold ofInstruction at h
      dsimp only at h
      split at h
      · simp [unresolved_notMem_countFaults] at h
      · simp [unresolved_notMem_countFaults, unresolved_notMem_format2] at h
      · exact lookup_of_mem_displacement
          ((List.mem_append.mp h).resolve_left unresolved_notMem_countFaults)
      · split at h
        · exact lookup_of_mem_extendedAddress
            ((List.mem_append.mp h).resolve_left unresolved_notMem_countFaults)
        · simp [unresolved_notMem_countFaults] at h
  · simp at h

end Encoding

/-! ## programs -/

namespace Program

open Statement (FirstRefers waiting pool)

/-- How the literals of a section lie in a program and what is reported about them. -/
structure LiteralsPlaced (program : Program) (sect : Section) : Prop where
  /-- The literal table holds the texts of literals in the order of their first references. -/
  names : sect.literals.names = (Statement.literals sect.statements).map Literal.text
  distinct : sect.literals.names.Nodup
  /-- A literal is placed by the first statement from its first reference on that places literals,
  behind those that wait before it.  It lies behind all of them exactly if all read back. -/
  located : ∀ before statement rest literal skipped flush after,
    sect.statements = before ++ statement :: rest → FirstRefers before statement literal →
    statement :: rest = skipped ++ flush :: after →
    (∀ other ∈ skipped, other.placesLiterals = false) → flush.placesLiterals = true →
      sect.literals.lookup literal.text = some (flush.address +
        Literal.sizes ((waiting before).filter fun other => other.ReadsBack)) ∧
      (sect.literals.lookup literal.text =
          some (flush.address + Literal.sizes (waiting before)) ↔
        ∀ other ∈ waiting before, other.ReadsBack)
  /-- A statement that places literals is as long as those of its pool that read back. -/
  lengths : ∀ before flush after, sect.statements = before ++ flush :: after →
    flush.placesLiterals = true →
      flush.length = Literal.sizes ((pool before flush).filter fun other => other.ReadsBack) ∧
      (flush.length = Literal.sizes (pool before flush) ↔
        ∀ other ∈ pool before flush, other.ReadsBack)
  /-- A literal that no statement places has no address, and its first reference is reported
  once. -/
  unlocated : ∀ before statement after literal,
    sect.statements = before ++ statement :: after → FirstRefers before statement literal →
    (∀ other ∈ statement :: after, other.placesLiterals = false) →
      sect.literals.lookup literal.text = none ∧
      ((program.diagnosticsOn statement.line).filter fun diagnostic =>
        diagnostic.fault.isUnplaced) = [⟨statement.line, .unplacedLiteral literal.text⟩]
  /-- No other literal is reported. -/
  silent : ∀ before statement after, sect.statements = before ++ statement :: after →
    (∀ literal, FirstRefers before statement literal →
      ∃ flush ∈ statement :: after, flush.placesLiterals = true) →
      ((program.diagnosticsOn statement.line).filter fun diagnostic =>
        diagnostic.fault.isUnplaced) = []

/-- The first of some statements that places literals. -/
theorem exists_first_pool {statements : List Statement}
    (h : ∃ flush ∈ statements, flush.placesLiterals = true) :
    ∃ skipped flush after, statements = skipped ++ flush :: after ∧
      (∀ other ∈ skipped, other.placesLiterals = false) ∧ flush.placesLiterals = true := by
  induction statements with
  | nil => simp at h
  | cons first rest ih =>
      cases hfirst : first.placesLiterals with
      | true => exact ⟨[], first, rest, rfl, by simp, hfirst⟩
      | false =>
          have hrest : ∃ flush ∈ rest, flush.placesLiterals = true := by simpa [hfirst] using h
          obtain ⟨skipped, flush, after, rfl, hskipped, hplaces⟩ := ih hrest
          exact ⟨first :: skipped, flush, after, rfl,
            List.forall_mem_cons.mpr ⟨hfirst, hskipped⟩, hplaces⟩

section
variable {registry : Registry} {source : String} {lines : List (Nat × String)}

/-- In a program that stays in memory, literals of each section lie in the pools of its statements.
-/
theorem poolsPlaced_assembleSection
    (hstays : StayInMemory (assemble registry source).diagnostics)
    (hlines : lines ∈ (cutSections (numberedLines source)).2) :
    Layout.PoolsPlaced (assembleSection registry lines).1.statements
      (layoutOf registry lines).literals (layoutOf registry lines).firstUses := by
  have hlaid := Layout.literalsPlaced_addLines (nodup_lines_of_mem_cutSections hlines)
    (stayInMemory_of_mem_cutSections hstays hlines)
  apply Layout.PoolsPlaced.of_map_withoutCode
  rw [← statements_layoutOf]
  exact hlaid

/-- The statements of a section stand on different lines, and these are lines of the section. -/
theorem lines_assembleSection (registry : Registry)
    (hlines : lines ∈ (cutSections (numberedLines source)).2) :
    ((assembleSection registry lines).1.statements.map Statement.line).Nodup ∧
      ∀ statement ∈ (assembleSection registry lines).1.statements,
        statement.line ∈ lines.map Prod.fst := by
  have hsub : ((assembleSection registry lines).1.statements.map Statement.line).Sublist
      (lines.map Prod.fst) := by
    obtain ⟨added, hadded, hsub⟩ := Layout.sublist_lines_addLines registry {} lines
    have hsame : (layoutOf registry lines).statements.map Statement.line =
        (assembleSection registry lines).1.statements.map Statement.line := by
      rw [statements_layoutOf, List.map_map]
      rfl
    rw [← hsame, layoutOf, hadded]
    exact hsub
  exact ⟨hsub.nodup (nodup_lines_of_mem_cutSections hlines),
    fun statement hmem => hsub.subset (List.mem_map_of_mem hmem)⟩

/-- Every literal of a section can be written in a source. -/
theorem written_of_mem_assembleSection {literal : Literal}
    (h : literal ∈ Statement.literals (assembleSection registry lines).1.statements) :
    literal.Written := by
  rw [← Statement.literals_map_withoutCode, ← statements_layoutOf] at h
  exact Layout.written_of_mem_literals h

/-- The room of a pool or of what waits for one, among literals of the section. -/
theorem room_of_subset {literals : List Literal}
    (h : literals ⊆ Statement.literals (assembleSection registry lines).1.statements) :
    ((literals.map Literal.text).map Layout.literalSize).sum =
        Literal.sizes (literals.filter fun literal => literal.ReadsBack) ∧
      (Literal.sizes (literals.filter fun literal => literal.ReadsBack) =
          Literal.sizes literals ↔
        ∀ literal ∈ literals, literal.ReadsBack) := by
  have hwritten : ∀ literal ∈ literals, literal.Written := fun literal hmem =>
    written_of_mem_assembleSection (h hmem)
  exact ⟨Literal.sum_literalSize hwritten, (Literal.sizes_filter_eq_iff hwritten).2⟩

/-- **Literals of an assembled section are placed** as its statements say. -/
theorem literalsPlaced_of_mem_sections
    (hstays : StayInMemory (assemble registry source).diagnostics) {sect : Section}
    (hsect : sect ∈ (assemble registry source).sections) :
    (assemble registry source).LiteralsPlaced sect := by
  obtain ⟨lines, hlines, rfl⟩ := exists_lines_of_mem_sections hsect
  have hplaced := poolsPlaced_assembleSection hstays hlines
  obtain ⟨hnodup, hnumber⟩ := lines_assembleSection registry hlines
  constructor
  · exact hplaced.names
  · exact hplaced.nodup_names
  · intro before statement rest literal skipped flush after hsplit hfirst hrest hskipped hflush
    have hlookup : (assembleSection registry lines).1.literals.lookup literal.text = _ :=
      hplaced.lookup_of_firstRefers hsplit hfirst hrest hskipped hflush
    have hsub : waiting before ⊆
        Statement.literals (assembleSection registry lines).1.statements := by
      rw [hsplit]
      exact List.Subset.trans (List.filter_subset_self _) (Statement.literals_subset_append _ _)
    obtain ⟨hroom, hiff⟩ := room_of_subset hsub
    rw [hlookup, hroom]
    refine ⟨rfl, ?_⟩
    rw [Option.some_inj, Nat.add_right_inj]
    exact hiff
  · intro before flush after hsplit hflush
    have hsub : pool before flush ⊆
        Statement.literals (assembleSection registry lines).1.statements := by
      rw [hsplit, ← List.singleton_append, ← List.append_assoc]
      exact List.Subset.trans (List.filter_subset_self _) (Statement.literals_subset_append _ _)
    obtain ⟨hroom, hiff⟩ := room_of_subset hsub
    rw [hplaced.lengths before flush after hsplit hflush, hroom]
    exact ⟨rfl, hiff⟩
  · intro before statement after literal hsplit hfirst hnone
    refine ⟨AddressTable.lookup_of_mem_pending hplaced.nodup_names
      ((hplaced.mem_pending_iff hsplit hfirst).mpr hnone), ?_⟩
    have hperm := filter_isUnplaced_perm registry hlines (hnumber statement (by simp [hsplit]))
    rw [hplaced.filter_unplaced_of_firstRefers hnodup hsplit hfirst hnone] at hperm
    exact List.perm_singleton.mp hperm
  · intro before statement after hsplit hflushed
    have hperm := filter_isUnplaced_perm registry hlines (hnumber statement (by simp [hsplit]))
    rw [hplaced.filter_unplaced_of_not hnodup hsplit hflushed] at hperm
    exact List.perm_nil.mp hperm

/-- An instruction whose first operand is a literal finds it in the table, and cannot resolve it
only if it has no place. -/
theorem reported_of_unresolved_literal
    (hstays : StayInMemory (assemble registry source).diagnostics) {sect : Section}
    (hsect : sect ∈ (assemble registry source).sections) {statement : Statement}
    (hmem : statement ∈ sect.statements) {mnemonic : String} {extended : Bool}
    (hop : statement.operator = .instruction mnemonic extended) {literal : Literal}
    (hfirst : statement.operands.head? = some (.literal literal)) :
    literal.text ∈ sect.literals.names ∧
      (⟨statement.line, .unresolvedReference literal.text⟩ ∈
          (assemble registry source).diagnostics →
        ∃ first ∈ sect.statements,
          ⟨first.line, .unplacedLiteral literal.text⟩ ∈
            (assemble registry source).diagnostics) := by
  have hplaced := literalsPlaced_of_mem_sections hstays hsect
  have hrefers : statement.literal? = some literal := by
    obtain ⟨rest, hoperands⟩ := List.head?_eq_some_iff.mp hfirst
    simp [Statement.literal?, Layout.firstLiteral?, hoperands]
  have hliteral : literal ∈ Statement.literals sect.statements :=
    mem_firstOccurrences.mpr ⟨statement, hmem, hrefers⟩
  refine ⟨hplaced.names ▸ List.mem_map_of_mem hliteral, fun hreported => ?_⟩
  have hlost : sect.literals.lookup literal.text = none := by
    obtain ⟨laid, base, -, hencoding, rfl⟩ := exists_encoding_of_mem hsect hmem
    rw [Encoding.operator_ofStatement] at hop
    rw [mem_diagnostics_iff_mem_operandFaults hencoding
      (by simp [Statement.directive?, Encoding.operator_ofStatement, hop, Operator.directive?])
      (by simp [Statement.directive?, Encoding.operator_ofStatement, hop, Operator.directive?])
      rfl] at hreported
    exact (Option.or_eq_none_iff.mp (Encoding.lookup_of_unresolved hop hreported)).2
  obtain ⟨before, first, after, hsplit, hthis, hnew⟩ :=
    exists_first_of_mem_firstOccurrences hliteral
  have hfirstRefers : FirstRefers before first literal := ⟨hthis, hnew⟩
  -- A pool from the first reference on would have given the literal an address.
  have hnone : ∀ other ∈ first :: after, other.placesLiterals = false := by
    by_contra hsome
    simp only [not_forall, Bool.not_eq_false, exists_prop] at hsome
    obtain ⟨skipped, flush, rest, hrest, hskipped, hflush⟩ := exists_first_pool hsome
    have hfound := (hplaced.located before first after literal skipped flush rest hsplit
      hfirstRefers hrest hskipped hflush).1
    rw [hlost] at hfound
    cases hfound
  have hreport := (hplaced.unlocated before first after literal hsplit hfirstRefers hnone).2
  have hon : ⟨first.line, .unplacedLiteral literal.text⟩ ∈
      (assemble registry source).diagnosticsOn first.line :=
    List.mem_of_mem_filter (hreport ▸ List.mem_cons_self)
  exact ⟨first, by simp [hsplit], (mem_diagnosticsOn.mp hon).1⟩

/-- **Literals are placed in the order of their first references.**  In a program that stays in
memory, the literals of every section are placed as its statements say, each with the room it needs
unless a word before it in the pool does not read back from its text.  What is reported about
literals without a place is on the lines of statements.  A literal that is the first operand of an
instruction is in the table, and cannot be resolved only if it is reported for having no place. -/
theorem literals_are_placed_in_order (registry : Registry) (source : String)
    (hstays : StayInMemory (assemble registry source).diagnostics) :
    (∀ sect ∈ (assemble registry source).sections,
      (assemble registry source).LiteralsPlaced sect) ∧
    (∀ diagnostic ∈ (assemble registry source).diagnostics,
      diagnostic.fault.isUnplaced = true →
        ∃ sect ∈ (assemble registry source).sections, ∃ statement ∈ sect.statements,
          statement.line = diagnostic.line) ∧
    ∀ sect ∈ (assemble registry source).sections, ∀ statement ∈ sect.statements,
      ∀ mnemonic extended literal, statement.operator = .instruction mnemonic extended →
      statement.operands.head? = some (.literal literal) →
        literal.text ∈ sect.literals.names ∧
        (⟨statement.line, .unresolvedReference literal.text⟩ ∈
            (assemble registry source).diagnostics →
          ∃ first ∈ sect.statements,
            ⟨first.line, .unplacedLiteral literal.text⟩ ∈
              (assemble registry source).diagnostics) := by
  refine ⟨fun sect hsect => literalsPlaced_of_mem_sections hstays hsect, ?_, ?_⟩
  · intro diagnostic hmem hkind
    obtain ⟨lines, hlines, hunplaced⟩ := exists_unplaced_of_mem_diagnostics hmem hkind
    obtain ⟨before, statement, after, literal, hsplit, -, -, rfl⟩ :=
      (poolsPlaced_assembleSection hstays hlines).mem_unplaced_iff.mp hunplaced
    refine ⟨(assembleSection registry lines).1, ?_, statement, by simp [hsplit], rfl⟩
    rw [sections_assemble]
    exact List.mem_map_of_mem hlines
  · intro sect hsect statement hmem mnemonic extended literal hop hfirst
    exact reported_of_unresolved_literal hstays hsect hmem hop hfirst

end

/-- A program that refers to a word that is printed with a letter in front, and to another literal
behind it. -/
def lostWord : String := "P\tSTART\t0\n\tLDA\t=0A\n\tLDA\t=C'EOF'\n\tLTORG\n"

/-- The statement that refers to the second literal of `lostWord`. -/
def lostWordReference : Statement :=
  (onlySection lostWord).statements.dropLast.getLastD { line := 0, operator := .unknown "" }

theorem lostWord_facts :
    (assemble loadRegistry lostWord).diagnostics = [] ∧
    onlySection lostWord ∈ (assemble loadRegistry lostWord).sections ∧
    (onlySection lostWord).statements =
      (onlySection lostWord).statements.take 2 ++ lostWordReference :: [lastStatement lostWord] ∧
    lostWordReference.literal? = some (.bytes (.chars "EOF")) ∧
    lostWordReference.placesLiterals = false ∧
    (lastStatement lostWord).placesLiterals = true ∧ (lastStatement lostWord).address = 6 ∧
    waiting ((onlySection lostWord).statements.take 2) = [.word 10] ∧
    pool ((onlySection lostWord).statements.take 2 ++ [lostWordReference])
      (lastStatement lostWord) = [.word 10, .bytes (.chars "EOF")] ∧
    Literal.bytes (.chars "EOF") ∉
      Statement.literals ((onlySection lostWord).statements.take 2) := by
  decide +kernel

theorem not_readsBack_ten : ¬ (Literal.word 10).ReadsBack := by
  rw [Literal.ReadsBack, Text.leadingHexDigit]
  decide

theorem lostWord_stays : StayInMemory (assemble loadRegistry lostWord).diagnostics := by
  rw [lostWord_facts.1]
  exact List.forall_mem_nil _

theorem lostWord_end : (onlySection lostWord).statements =
    ((onlySection lostWord).statements.take 2 ++ [lostWordReference]) ++
      lastStatement lostWord :: [] := by
  rw [List.append_assoc]
  exact lostWord_facts.2.2.1

/-- The second literal of `lostWord` lies at the start of the pool, which holds nothing else. -/
theorem literals_of_lostWord :
    StayInMemory (assemble loadRegistry lostWord).diagnostics ∧
    (onlySection lostWord).literals.lookup "=C'EOF'" = some 6 ∧
    (lastStatement lostWord).length = 3 := by
  obtain ⟨-, hsect, hsplit, hrefers, hplain, hplaces, haddress, hwaiting, hpool, hnew⟩ :=
    lostWord_facts
  obtain ⟨hplaced, -⟩ := literals_are_placed_in_order loadRegistry lostWord lostWord_stays
  have hlookup := ((hplaced _ hsect).located _ _ _ _ [lostWordReference] _ [] hsplit
    ⟨hrefers, hnew⟩ rfl (by simpa using hplain) hplaces).1
  have hlength := ((hplaced _ hsect).lengths _ _ [] lostWord_end hplaces).1
  rw [hwaiting, haddress] at hlookup
  rw [hpool] at hlength
  have hback : (Literal.bytes (.chars "EOF")).ReadsBack := trivial
  have hsize : Literal.size (.bytes (.chars "EOF")) = 3 := by decide
  refine ⟨lostWord_stays, ?_, ?_⟩
  · rw [show (Literal.bytes (.chars "EOF")).text = "=C'EOF'" from rfl] at hlookup
    simpa [not_readsBack_ten, Literal.sizes] using hlookup
  · simpa [not_readsBack_ten, hback, Literal.sizes, hsize] using hlength

/-- **A word that does not read back has no room**: there are literals that do not lie behind all
that wait before them, and pools that are shorter than their literals. -/
theorem unreadable_word_has_no_room :
    (¬ ∀ (registry : Registry) (source : String),
      StayInMemory (assemble registry source).diagnostics →
      ∀ sect ∈ (assemble registry source).sections,
      ∀ before statement rest literal skipped flush after,
        sect.statements = before ++ statement :: rest → FirstRefers before statement literal →
        statement :: rest = skipped ++ flush :: after →
        (∀ other ∈ skipped, other.placesLiterals = false) → flush.placesLiterals = true →
        sect.literals.lookup literal.text =
          some (flush.address + Literal.sizes (waiting before))) ∧
    (¬ ∀ (registry : Registry) (source : String),
      StayInMemory (assemble registry source).diagnostics →
      ∀ sect ∈ (assemble registry source).sections, ∀ before flush after,
        sect.statements = before ++ flush :: after → flush.placesLiterals = true →
        flush.length = Literal.sizes (pool before flush)) := by
  obtain ⟨-, hsect, hsplit, hrefers, hplain, hplaces, -, hwaiting, hpool, hnew⟩ := lostWord_facts
  have hplaced := literalsPlaced_of_mem_sections lostWord_stays hsect
  constructor
  · intro h
    have hlookup := h loadRegistry lostWord lostWord_stays _ hsect _ _ _ _ [lostWordReference] _ []
      hsplit ⟨hrefers, hnew⟩ rfl (by simpa using hplain) hplaces
    rw [(hplaced.located _ _ _ _ [lostWordReference] _ [] hsplit ⟨hrefers, hnew⟩ rfl
      (by simpa using hplain) hplaces).2, hwaiting] at hlookup
    exact not_readsBack_ten (hlookup _ List.mem_cons_self)
  · intro h
    have hlength := h loadRegistry lostWord lostWord_stays _ hsect _ _ [] lostWord_end hplaces
    rw [(hplaced.lengths _ _ [] lostWord_end hplaces).2, hpool] at hlength
    exact not_readsBack_ten (hlength _ List.mem_cons_self)

end Program

end SicXe
