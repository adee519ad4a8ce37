import Mathlib.Algebra.Group.Int.Defs
import SicXe.Proofs.SectionReports
import SicXe.Proofs.SymbolValues

/-!
# SicXe.Proofs.SymbolDefinitions

The symbol table of a section, read off its statements.

The names of the table are the labels of the statements (`Statement.labels`), and the value of each
is settled where it occurs first: it is the address of that statement, or what `EQU` makes of its
operands (`Equates`), which may use the symbols defined so far.  A label that occurs again is
reported and changes nothing.  `Defines` says this of one statement and a table (`defines_obeyed`),
and `Statement.Enters` of a statement among those of a section, for the table at its end
(`symbols_are_first_definitions`): a later statement adds names and leaves values alone.
-/

namespace SicXe

/-! ## definitions -/

/-- What `EQU` at an address makes of its operands when some names have a known value: the value for
its label and what is reported. -/
inductive Equates (known : String → Option Nat) (address : Nat) :
    List Operand → Nat → List Fault → Prop
  | here : Equates known address [.here] address []
  | number (value : Int) : Equates known address [.number value] (value % 2 ^ 24).toNat []
  | symbol {name : String} {value : Nat} (hvalue : known name = some value) :
      Equates known address [.symbol name] value []
  | difference {minuend subtrahend : String} {upper lower : Nat}
      (hupper : known minuend = some upper) (hlower : known subtrahend = some lower) :
      Equates known address [.difference minuend subtrahend]
        (((upper : Int) - lower) % 2 ^ 24).toNat []
  | unknownSymbol {name : String} (hunknown : known name = none) :
      Equates known address [.symbol name] address [.unresolvedReference name]
  | unknownMinuend {minuend subtrahend : String} (hunknown : known minuend = none) :
      Equates known address [.difference minuend subtrahend] address
        [.unresolvedReference minuend]
  | unknownSubtrahend {minuend subtrahend : String} {upper : Nat}
      (hupper : known minuend = some upper) (hunknown : known subtrahend = none) :
      Equates known address [.difference minuend subtrahend] address
        [.unresolvedReference subtrahend]
  /-- Operands of any other shape. -/
  | unusable {operands : List Operand} (hhere : operands ≠ [.here])
      (hnumber : ∀ value, operands ≠ [.number value])
      (hsymbol : ∀ name, operands ≠ [.symbol name])
      (hdifference : ∀ minuend subtrahend, operands ≠ [.difference minuend subtrahend]) :
      Equates known address operands address
        [.malformedLine (.unexpectedOperand (Operand.joinTexts operands))]

/-- At most one thing is reported about the operands of `EQU`. -/
theorem Equates.faults_eq {known : String → Option Nat} {address value : Nat}
    {operands : List Operand} {faults : List Fault}
    (h : Equates known address operands value faults) :
    faults = [] ∨ ∃ fault, faults = [fault] ∧ fault.ofDefinition (some .equ) = true := by
  cases h with
  | unknownSymbol => exact Or.inr ⟨_, rfl, rfl⟩
  | unknownMinuend => exact Or.inr ⟨_, rfl, rfl⟩
  | unknownSubtrahend => exact Or.inr ⟨_, rfl, rfl⟩
  | unusable => exact Or.inr ⟨_, rfl, rfl⟩
  | _ => exact Or.inl rfl

namespace Statement

/-- The value that a statement gives its label, if the label is new, and what is reported. -/
inductive Gives (known : String → Option Nat) (statement : Statement) : Nat → List Fault → Prop
  | located (hplain : statement.directive? ≠ some .equ) :
      Gives known statement statement.address []
  | equated {value : Nat} {faults : List Fault} (hequ : statement.directive? = some .equ)
      (hvalue : Equates known statement.address statement.operands value faults) :
      Gives known statement value faults

/-- What a statement does to a symbol table, and what is reported about its label. -/
inductive Defines (symbols : AddressTable) (statement : Statement) :
    AddressTable → List Fault → Prop
  | unlabeled (hlabel : statement.label = none) : Defines symbols statement symbols []
  | again {label : String} (hlabel : statement.label = some label)
      (hold : label ∈ symbols.names) :
      Defines symbols statement symbols [.duplicateSymbol label]
  /-- `EQU` finds its own label at its address. -/
  | first {label : String} {value : Nat} {faults : List Fault}
      (hlabel : statement.label = some label) (hnew : label ∉ symbols.names)
      (hgives : statement.Gives
        (AddressTable.lookup ⟨symbols.entries ++ [(label, some statement.address)]⟩) value faults) :
      Defines symbols statement ⟨symbols.entries ++ [(label, some value)]⟩ faults

/-- The labels of statements in the order in which they first occur. -/
def labels (statements : List Statement) : List String :=
  firstOccurrences Statement.label statements

/-- The value of a name for a statement behind others: its own label stands for its address, and
a label before it for its value in the symbol table. -/
def knownValue (symbols : AddressTable) (before : List Statement) (statement : Statement)
    (name : String) : Option Nat :=
  if statement.label = some name then some statement.address
  else if name ∈ labels before then symbols.lookup name
  else none

/-- What a statement behind others has in the symbol table of its section, and what is reported
about its label. -/
inductive Enters (symbols : AddressTable) (before : List Statement) (statement : Statement) :
    List Fault → Prop
  | unlabeled (hlabel : statement.label = none) : Enters symbols before statement []
  | again {label : String} (hlabel : statement.label = some label)
      (hold : label ∈ labels before) :
      Enters symbols before statement [.duplicateSymbol label]
  | first {label : String} {value : Nat} {faults : List Fault}
      (hlabel : statement.label = some label) (hnew : label ∉ labels before)
      (hgives : statement.Gives (knownValue symbols before statement) value faults)
      (hvalue : symbols.lookup label = some value) :
      Enters symbols before statement faults

end Statement

/-! ## one statement -/

namespace Layout

section
variable {layout : Layout} {statement : Statement}

/-- A value that cannot be found is reported. -/
theorem symbolAddress_of_none {symbols : AddressTable} {name : String}
    (h : symbols.lookup name = none) :
    symbolAddress symbols name = .error (.unresolvedReference name) := by
  simp only [symbolAddress, h]

theorem symbolAddress_of_some {symbols : AddressTable} {name : String} {value : Nat}
    (h : symbols.lookup name = some value) : symbolAddress symbols name = .ok value := by
  simp only [symbolAddress, h]

/-- The value of operands of `EQU`, or what is wrong with them. -/
theorem equates_equatedValue (symbols : AddressTable) (address : Nat) (operands : List Operand) :
    (∃ value, equatedValue symbols operands = .ok value ∧
      Equates symbols.lookup address operands (value.getD address) []) ∨
    ∃ fault, equatedValue symbols operands = .error fault ∧
      Equates symbols.lookup address operands address [fault] := by
  unfold equatedValue
  split
  · exact Or.inl ⟨none, rfl, .here⟩
  · next value => exact Or.inl ⟨_, rfl, .number value⟩
  · next name =>
      cases hname : symbols.lookup name with
      | none =>
          rw [symbolAddress_of_none hname]
          exact Or.inr ⟨_, rfl, .unknownSymbol hname⟩
      | some value =>
          rw [symbolAddress_of_some hname]
          exact Or.inl ⟨_, rfl, .symbol hname⟩
  · next minuend subtrahend =>
      cases hupper : symbols.lookup minuend with
      | none =>
          rw [symbolAddress_of_none hupper]
          exact Or.inr ⟨_, rfl, .unknownMinuend hupper⟩
      | some upper =>
          rw [symbolAddress_of_some hupper]
          cases hlower : symbols.lookup subtrahend with
          | none =>
              rw [symbolAddress_of_none hlower]
              exact Or.inr ⟨_, rfl, .unknownSubtrahend hupper hlower⟩
          | some lower =>
              rw [symbolAddress_of_some hlower]
              exact Or.inl ⟨_, rfl, .difference hupper hlower⟩
  · next hhere hnumber hsymbol hdifference =>
      exact Or.inr ⟨_, rfl, .unusable hhere hnumber hsymbol hdifference⟩

theorem symbols_defined (layout : Layout) (statement : Statement) :
    (layout.defined statement).symbols = (layout.defineLabel statement).symbols := by
  obtain ⟨_, _, hnote⟩ := noteLiteral_eq (layout.defineLabel statement) statement
  rw [defined, hnote]

/-- Only `EQU` with a new label changes a symbol that is there. -/
theorem symbols_obeyDirective_of_not {labeled : Bool}
    (h : statement.directive? ≠ some .equ ∨ labeled = false) :
    (layout.obeyDirective statement labeled).symbols = layout.symbols := by
  unfold obeyDirective
  split
  · rfl
  · next hequ =>
      obtain rfl := h.resolve_left (absurd hequ)
      rfl
  · split <;> rfl
  · rfl

theorem directiveFaults_of_not {labeled : Bool}
    (h : statement.directive? ≠ some .equ ∨ labeled = false) :
    layout.directiveFaults statement labeled = [] := by
  refine if_neg fun hequ => ?_
  rcases h with hplain | hold
  · exact hplain hequ.1
  · simp [hold] at hequ

/-- Without a new label, a statement leaves the symbols alone. -/
theorem symbols_obeyed_of_old (hnew : layout.labelIsNew statement = false)
    (hsame : (layout.defineLabel statement).symbols = layout.symbols) :
    (layout.obeyed statement).symbols = layout.symbols := by
  rw [obeyed, symbols_obeyDirective_of_not (Or.inr hnew), symbols_defined, hsame]

/-- A new label goes behind the others with its address, until `EQU` gives it its value. -/
theorem symbols_obeyed_of_new {label : String} (hlabel : statement.label = some label)
    (hnew : label ∉ layout.symbols.names) :
    ∃ value faults,
      statement.Gives (AddressTable.lookup
        ⟨layout.symbols.entries ++ [(label, some statement.address)]⟩) value faults ∧
      (layout.obeyed statement).symbols = ⟨layout.symbols.entries ++ [(label, some value)]⟩ ∧
      (layout.defined statement).directiveFaults statement true = faults := by
  have hfree := AddressTable.contains_eq_false_iff.mpr hnew
  have hisNew : layout.labelIsNew statement = true := by simp [labelIsNew, hlabel, hfree]
  have hdefined : (layout.defined statement).symbols =
      ⟨layout.symbols.entries ++ [(label, some statement.address)]⟩ := by
    rw [symbols_defined]
    simp [defineLabel, hlabel, AddressTable.insert, AddressTable.add, hfree]
  by_cases hequ : statement.directive? = some .equ
  · have hobeyed : layout.obeyed statement =
        (layout.defined statement).equate label statement.operands := by
      simp [obeyed, obeyDirective, hequ, hisNew, hlabel]
    have hfaults : (layout.defined statement).directiveFaults statement true =
        (layout.defined statement).equateFaults statement.operands := if_pos ⟨hequ, rfl⟩
    rw [hobeyed, hfaults, equate, equateFaults]
    rcases equates_equatedValue (layout.defined statement).symbols statement.address
        statement.operands with ⟨value, hvalue, hequates⟩ | ⟨fault, hfault, hequates⟩
    · rw [hvalue]
      rw [hdefined] at hequates
      refine ⟨_, _, .equated hequ hequates, ?_, rfl⟩
      cases value with
      | none => exact hdefined
      | some value =>
          have hthere : (layout.defined statement).symbols.contains label = true := by
            rw [hdefined, AddressTable.contains_iff]
            simp [AddressTable.names]
          simp only [AddressTable.assign, hthere, if_pos, Option.getD_some]
          rw [hdefined, AddressTable.setAddress_concat hnew]
    · rw [hfault]
      rw [hdefined] at hequates
      exact ⟨_, _, .equated hequ hequates, hdefined, rfl⟩
  · refine ⟨_, _, .located hequ, ?_, directiveFaults_of_not (Or.inl hequ)⟩
    rw [obeyed, symbols_obeyDirective_of_not (Or.inl hequ), hdefined]

/-- **A statement defines its label** if the label is new, and reports about it. -/
theorem defines_obeyed (layout : Layout) (statement : Statement) :
    ∃ faults, statement.Defines layout.symbols (layout.obeyed statement).symbols faults ∧
      layout.enterFaults statement = operatorFaults statement ++ faults := by
  cases hlabel : statement.label with
  | none =>
      have hnew : layout.labelIsNew statement = false := by simp [labelIsNew, hlabel]
      rw [symbols_obeyed_of_old hnew (by simp [defineLabel, hlabel]), enterFaults, hnew,
        directiveFaults_of_not (Or.inr rfl)]
      exact ⟨[], .unlabeled hlabel, by simp [labelFaults, hlabel]⟩
  | some label =>
      by_cases hold : label ∈ layout.symbols.names
      · have hthere := AddressTable.contains_iff.mpr hold
        have hnew : layout.labelIsNew statement = false := by simp [labelIsNew, hlabel, hthere]
        have hsame : (layout.defineLabel statement).symbols = layout.symbols := by
          simp [defineLabel, hlabel, AddressTable.insert, AddressTable.add, hthere]
        rw [symbols_obeyed_of_old hnew hsame, enterFaults, hnew,
          directiveFaults_of_not (Or.inr rfl)]
        exact ⟨_, .again hlabel hold, by simp [labelFaults, hlabel, hthere]⟩
      · have hfree := AddressTable.contains_eq_false_iff.mpr hold
        obtain ⟨value, faults, hgives, hsymbols, hfaults⟩ := symbols_obeyed_of_new hlabel hold
        have hnew : layout.labelIsNew statement = true := by simp [labelIsNew, hlabel, hfree]
        rw [hsymbols, enterFaults, hnew, hfaults]
        exact ⟨faults, .first hlabel hold hgives, by simp [labelFaults, hlabel, hfree]⟩

end

end Layout

/-! ## statements one after another -/

namespace Statement

section
variable {symbols next : AddressTable} {before : List Statement} {statement : Statement}
  {faults : List Fault}

theorem labels_concat_of_none (h : statement.label = none) :
    labels (before ++ [statement]) = labels before :=
  firstOccurrences_concat_of_none h

theorem labels_concat_congr {other : Statement} (h : statement.label = other.label) :
    labels (before ++ [statement]) = labels (before ++ [other]) := by
  simp [labels, firstOccurrences, List.filterMap_cons, h]

theorem labels_map_withoutCode (statements : List Statement) :
    labels (statements.map withoutCode) = labels statements := by
  rw [labels, labels, firstOccurrences, List.filterMap_map]
  rfl

/-- A statement puts its label behind those before it, if it is new. -/
theorem Defines.names (h : statement.Defines symbols next faults)
    (hnames : symbols.names = labels before) : next.names = labels (before ++ [statement]) := by
  cases h with
  | unlabeled hlabel => rw [hnames, labels_concat_of_none hlabel]
  | again hlabel hold =>
      rw [hnames] at hold ⊢
      exact (firstOccurrences_concat_of_mem hlabel hold).symm
  | first hlabel hnew hgives =>
      rw [hnames] at hnew
      rw [labels, firstOccurrences_concat_of_notMem hlabel hnew, AddressTable.names,
        List.map_append]
      exact congrArg (· ++ _) hnames

/-- **Definitions stay**: what a statement does to a table only adds to it. -/
theorem Defines.entries_eq (h : statement.Defines symbols next faults) :
    ∃ added, next.entries = symbols.entries ++ added := by
  cases h with
  | unlabeled => exact ⟨[], (List.append_nil _).symm⟩
  | again => exact ⟨[], (List.append_nil _).symm⟩
  | first => exact ⟨_, rfl⟩

/-- What `EQU` can use of the table, once the label of its statement is there. -/
theorem knownValue_eq_lookup (hnames : symbols.names = labels before) {label : String}
    {value : Nat} (hlabel : statement.label = some label) (hnew : label ∉ symbols.names) :
    knownValue ⟨symbols.entries ++ [(label, some value)]⟩ before statement =
      AddressTable.lookup ⟨symbols.entries ++ [(label, some statement.address)]⟩ := by
  funext name
  unfold knownValue
  by_cases hown : label = name
  · rw [if_pos (hown ▸ hlabel), ← hown, AddressTable.lookup_concat_self hnew]
  · have hother : ¬ statement.label = some name := by simp [hlabel, hown]
    have hmem : name ∈ labels before ↔ name ∈ symbols.entries.map Prod.fst := by
      rw [← hnames]
      rfl
    rw [if_neg hother]
    simp only [hmem, AddressTable.lookup_append, AddressTable.lookup_cons, if_neg hown,
      AddressTable.lookup_nil]
    split <;> rfl

theorem Defines.enters (h : statement.Defines symbols next faults)
    (hnames : symbols.names = labels before) : statement.Enters next before faults := by
  cases h with
  | unlabeled hlabel => exact .unlabeled hlabel
  | again hlabel hold => exact .again hlabel (hnames ▸ hold)
  | first hlabel hnew hgives =>
      refine .first hlabel (hnames ▸ hnew) ?_ (AddressTable.lookup_concat_self hnew)
      rwa [knownValue_eq_lookup hnames hlabel hnew]

/-- **Entered values stay** when names are put behind those of the table. -/
theorem Enters.append (h : statement.Enters symbols before faults)
    (hbefore : ∀ label ∈ labels before, label ∈ symbols.names)
    {added : List (String × Option Nat)} (hnext : next.entries = symbols.entries ++ added) :
    statement.Enters next before faults := by
  have hkeep : ∀ name ∈ symbols.names, next.lookup name = symbols.lookup name := by
    intro name hname
    rw [show next = ⟨symbols.entries ++ added⟩ from congrArg AddressTable.mk hnext,
      AddressTable.lookup_append_of_mem hname]
  cases h with
  | unlabeled hlabel => exact .unlabeled hlabel
  | again hlabel hold => exact .again hlabel hold
  | first hlabel hnew hgives hvalue =>
      have hknown : knownValue next before statement = knownValue symbols before statement := by
        funext name
        unfold knownValue
        split
        · rfl
        · split
          · next hmem => exact hkeep name (hbefore name hmem)
          · rfl
      refine .first hlabel hnew (hknown ▸ hgives) ?_
      rw [hkeep _ (AddressTable.mem_names_of_lookup hvalue), hvalue]

/-- What a statement enters does not depend on lengths and object code. -/
theorem Enters.of_same {other : Statement} {others : List Statement}
    (h : statement.Enters symbols before faults) (hbefore : labels others = labels before)
    (hlabel : other.label = statement.label) (hoperator : other.operator = statement.operator)
    (hoperands : other.operands = statement.operands)
    (haddress : other.address = statement.address) :
    other.Enters symbols others faults := by
  have hdirective : other.directive? = statement.directive? :=
    congrArg Operator.directive? hoperator
  have hknown : knownValue symbols others other = knownValue symbols before statement := by
    funext name
    rw [knownValue, knownValue, hbefore, hlabel, haddress]
  cases h with
  | unlabeled hnone => exact .unlabeled (hlabel.trans hnone)
  | again hsome hold => exact .again (hlabel.trans hsome) (hbefore ▸ hold)
  | first hsome hnew hgives hvalue =>
      refine .first (hlabel.trans hsome) (hbefore ▸ hnew) ?_ hvalue
      rw [hknown]
      cases hgives with
      | located hplain => exact haddress ▸ .located (hdirective ▸ hplain)
      | equated hequ hequates =>
          refine .equated (hdirective.trans hequ) ?_
          rwa [haddress, hoperands]

/-- At most one thing is reported about a label, and that is about a label. -/
theorem Enters.faults_eq (h : statement.Enters symbols before faults) :
    faults = [] ∨ ∃ fault, faults = [fault] ∧ fault.ofDefinition statement.directive? = true := by
  cases h with
  | unlabeled => exact Or.inl rfl
  | again => exact Or.inr ⟨_, rfl, rfl⟩
  | first hlabel hnew hgives hvalue =>
      cases hgives with
      | located => exact Or.inl rfl
      | equated hequ hequates => exact hequ ▸ hequates.faults_eq

end

end Statement

/-! ## sections -/

namespace Layout

/-- The symbols of a layout are what its statements enter, and the labels are reported as they
say. -/
structure SymbolsEntered (layout : Layout) (reported : List Diagnostic) : Prop where
  names : layout.symbols.names = Statement.labels layout.statements
  entered : ∀ before statement after, layout.statements = before ++ statement :: after →
    ∃ faults, statement.Enters layout.symbols before faults ∧
      (reported.filter fun diagnostic => diagnostic.line = statement.line) =
        (operatorFaults statement ++ faults).map fun fault => ⟨statement.line, fault⟩

theorem filter_ofLine_self (number : Nat) (faults : List Fault) :
    ((faults.map fun fault => Diagnostic.mk number fault).filter fun diagnostic =>
      diagnostic.line = number) = faults.map fun fault => ⟨number, fault⟩ := by
  rw [List.filter_eq_self]
  intro diagnostic hmem
  obtain ⟨fault, -, rfl⟩ := List.mem_map.mp hmem
  exact decide_eq_true rfl

theorem filter_ofLine_of_ne {number other : Nat} (h : number ≠ other) (faults : List Fault) :
    ((faults.map fun fault => Diagnostic.mk number fault).filter fun diagnostic =>
      diagnostic.line = other) = [] := by
  refine Diagnostic.filter_line_eq_nil fun hmem => ?_
  obtain ⟨fault, -, hsame⟩ := List.mem_map.mp (List.map_map ▸ hmem)
  exact h hsame

/-- **Keeping a statement** enters its symbol and leaves the others as they are. -/
theorem SymbolsEntered.keep {layout : Layout} {reported : List Diagnostic} {statement : Statement}
    (h : layout.SymbolsEntered reported)
    (hstatements : statement.line ∉ layout.statements.map Statement.line)
    (hreported : statement.line ∉ reported.map Diagnostic.line) :
    (layout.keep statement).SymbolsEntered (reported ++
      (layout.enterFaults statement).map fun fault => ⟨statement.line, fault⟩) := by
  obtain ⟨faults, hdefines, hfaults⟩ := defines_obeyed layout statement
  have hkept := statements_kept layout statement
  rw [hfaults]
  refine ⟨?_, fun before other after hsplit => ?_⟩
  · rw [hkept]
    exact (hdefines.names h.names).trans (Statement.labels_concat_congr rfl)
  · rw [hkept] at hsplit
    rcases split_concat hsplit with ⟨rfl, rfl, rfl⟩ | ⟨rest, -, hbefore⟩
    · have hnone := Diagnostic.filter_line_eq_nil hreported
      refine ⟨faults, (hdefines.enters h.names).of_same rfl rfl rfl rfl rfl, ?_⟩
      rw [List.filter_append, show (layout.resized statement).line = statement.line from rfl,
        hnone, List.nil_append, filter_ofLine_self]
      rfl
    · obtain ⟨own, henters, hown⟩ := h.entered before other rest hbefore
      have hother : statement.line ≠ other.line := by
        intro hsame
        exact hstatements (hsame ▸ List.mem_map_of_mem (by simp [hbefore]))
      obtain ⟨added, hadded⟩ := hdefines.entries_eq
      refine ⟨own, henters.append (fun label hmem => ?_) hadded, ?_⟩
      · rw [h.names, hbefore, Statement.labels, mem_firstOccurrences]
        obtain ⟨defining, hdefining, hlabel⟩ := mem_firstOccurrences.mp hmem
        exact ⟨defining, List.mem_append_left _ hdefining, hlabel⟩
      · rw [List.filter_append, hown, filter_ofLine_of_ne hother, List.append_nil]

/-- **Symbols of a section that stays in memory** are what its statements enter. -/
theorem symbolsEntered_addLines {registry : Registry} {lines : List (Nat × String)}
    (hnodup : (lines.map Prod.fst).Nodup)
    (hstays : StayInMemory (addLines registry {} lines).2.diagnostics) :
    (addLines registry {} lines).1.SymbolsEntered (addLines registry {} lines).2.diagnostics := by
  refine kept_invariant (P := SymbolsEntered) hnodup hstays ?_ ?_ ?_ ?_
  · refine ⟨rfl, fun before statement after hsplit => ?_⟩
    simp at hsplit
  · intro layout reported statement h
    constructor
    · rw [symbols_openSection, statements_openSection]
      exact h.names
    · rw [symbols_openSection, statements_openSection]
      exact h.entered
  · intro layout reported more hmore h
    refine ⟨h.names, fun before statement after hsplit => ?_⟩
    obtain ⟨faults, henters, hown⟩ := h.entered before statement after hsplit
    refine ⟨faults, henters, ?_⟩
    have hnone : (more.filter fun diagnostic => diagnostic.line = statement.line) = [] := by
      refine Diagnostic.filter_line_eq_nil fun hmem => ?_
      obtain ⟨diagnostic, hreport, hline⟩ := List.mem_map.mp hmem
      exact hmore diagnostic hreport (hline ▸ List.mem_map_of_mem (by simp [hsplit]))
    rw [List.filter_append, hown, hnone, List.append_nil]
  · exact fun layout reported statement hstatements hreported h => h.keep hstatements hreported

end Layout

namespace Program

/-- What laying out reports on the line of a statement, as far as it is about its label. -/
theorem filter_ofDefinition_map {symbols : AddressTable} {before : List Statement}
    {statement : Statement} {faults : List Fault} (h : statement.Enters symbols before faults)
    (number : Nat) :
    (((Layout.operatorFaults statement ++ faults).map fun fault =>
      Diagnostic.mk number fault).filter fun diagnostic =>
        diagnostic.fault.ofDefinition statement.directive?) =
      faults.map fun fault => ⟨number, fault⟩ := by
  have hoperator : ((Layout.operatorFaults statement).map fun fault =>
      Diagnostic.mk number fault).filter (fun diagnostic =>
        diagnostic.fault.ofDefinition statement.directive?) = [] := by
    unfold Layout.operatorFaults
    split <;> rfl
  rw [List.map_append, List.filter_append, hoperator, List.nil_append]
  rcases h.faults_eq with rfl | ⟨fault, rfl, hkind⟩
  · rfl
  · simp [hkind]

/-- **Symbols are first definitions.**  In a program that stays in memory, the symbols of a section
are the labels of its statements.  Each statement enters its label with the value that it gives
it, unless the label is there already, and what is reported about labels on its line is just what
it enters with. -/
theorem symbols_are_first_definitions {registry : Registry} {source : String}
    (hstays : StayInMemory (assemble registry source).diagnostics) {sect : Section}
    (hsect : sect ∈ (assemble registry source).sections) :
    sect.symbols.names = Statement.labels sect.statements ∧ sect.symbols.names.Nodup ∧
    ∀ before statement after, sect.statements = before ++ statement :: after →
      ∃ faults, statement.Enters sect.symbols before faults ∧
        (((assemble registry source).diagnosticsOn statement.line).filter fun diagnostic =>
          diagnostic.fault.ofDefinition statement.directive?) =
            faults.map fun fault => ⟨statement.line, fault⟩ := by
  rw [sections_assemble] at hsect
  obtain ⟨lines, hlines, rfl⟩ := List.mem_map.mp hsect
  have hentered := Layout.symbolsEntered_addLines (nodup_lines_of_mem_cutSections hlines)
    (stayInMemory_of_mem_cutSections hstays hlines)
  have hstatements := statements_layoutOf registry lines
  have hnames : (assembleSection registry lines).1.symbols.names =
      Statement.labels (assembleSection registry lines).1.statements := by
    rw [← Statement.labels_map_withoutCode, ← hstatements]
    exact hentered.names
  refine ⟨hnames, hnames ▸ nodup_firstOccurrences .., fun before statement after hsplit => ?_⟩
  rw [hsplit, List.map_append, List.map_cons] at hstatements
  obtain ⟨faults, henters, hreported⟩ := hentered.entered _ _ _ hstatements
  replace henters : statement.Enters (assembleSection registry lines).1.symbols before faults :=
    henters.of_same (Statement.labels_map_withoutCode before).symm rfl rfl rfl rfl
  refine ⟨faults, henters, ?_⟩
  have hmem : statement ∈ (assembleSection registry lines).1.statements := by simp [hsplit]
  have hperm := filter_ofDefinition_perm hlines hmem
  rw [show statement.withoutCode.line = statement.line from rfl] at hreported
  rw [hreported, show Layout.operatorFaults statement.withoutCode =
    Layout.operatorFaults statement from rfl, filter_ofDefinition_map henters] at hperm
  rcases henters.faults_eq with rfl | ⟨fault, rfl, -⟩
  · exact List.perm_nil.mp hperm
  · exact List.perm_singleton.mp hperm

/-- Definitions by `EQU` of every kind, and one more of a label that is there. -/
def chainedEquates : String :=
  "P\tSTART\t0\nA\tRESW\t1\nB\tEQU\t*\nC\tEQU\tB-A\nD\tEQU\tNONE\nC\tEQU\t-9\n"

theorem chainedEquates_facts :
    StayInMemory (assemble loadRegistry chainedEquates).diagnostics ∧
    onlySection chainedEquates ∈ (assemble loadRegistry chainedEquates).sections ∧
    (onlySection chainedEquates).statements =
      (onlySection chainedEquates).statements.dropLast ++ lastStatement chainedEquates :: [] ∧
    (onlySection chainedEquates).symbols.located =
      [("P", 0), ("A", 0), ("B", 3), ("C", 3), ("D", 3)] ∧
    (lastStatement chainedEquates).label = some "C" ∧
    (lastStatement chainedEquates).line = 6 ∧
    (lastStatement chainedEquates).directive? = some .equ ∧
    "C" ∈ Statement.labels (onlySection chainedEquates).statements.dropLast := by
  unfold StayInMemory
  decide +kernel

/-- In `chainedEquates`, `C` keeps its first value, and its second definition is reported. -/
theorem symbols_of_chainedEquates :
    StayInMemory (assemble loadRegistry chainedEquates).diagnostics ∧
    (onlySection chainedEquates).symbols.located =
      [("P", 0), ("A", 0), ("B", 3), ("C", 3), ("D", 3)] ∧
    (((assemble loadRegistry chainedEquates).diagnosticsOn 6).filter fun diagnostic =>
      diagnostic.fault.ofDefinition (some .equ)) = [⟨6, .duplicateSymbol "C"⟩] := by
  obtain ⟨hstays, hsect, hsplit, hvalues, hlast, hline, hequ, hold⟩ := chainedEquates_facts
  obtain ⟨-, -, hentered⟩ := symbols_are_first_definitions hstays hsect
  obtain ⟨faults, henters, hreported⟩ := hentered _ _ [] hsplit
  rw [hline, hequ] at hreported
  refine ⟨hstays, hvalues, ?_⟩
  cases henters with
  | unlabeled hnone => simp [hlast] at hnone
  | again hlabel =>
      obtain rfl : "C" = _ := Option.some.inj (hlast.symm.trans hlabel)
      exact hreported
  | first hlabel hnew =>
      obtain rfl : "C" = _ := Option.some.inj (hlast.symm.trans hlabel)
      exact absurd hold hnew

end Program

end SicXe
