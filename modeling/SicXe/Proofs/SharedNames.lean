import SicXe.Proofs.LinkerNames
import SicXe.Proofs.PrefixStability

/-!
# SicXe.Proofs.SharedNames

One lookup for two tables.

A section looks a name up among its symbols first and then among its literals.  A literal goes by
its text, which starts with `=`; a symbol goes by a label, which is whatever stands in the first
field of a line.  So a literal is found in the pool unless its text is the label of a line that has
a place (`literals_resolve_unless_labels`), and a label that is written like a literal hides the
literal (`literal_is_hidden`).

A label is entered where its line has a place, even if a literal pool on that line then turns out
too long for the memory: the lines that enter their labels are not only those that are kept.
-/

namespace SicXe

theorem Statement.Defines.mem_names_iff {symbols next : AddressTable} {statement : Statement}
    {faults : List Fault} (h : statement.Defines symbols next faults) (name : String) :
    name ∈ next.names ↔ name ∈ symbols.names ∨ statement.label = some name := by
  cases h with
  | unlabeled hlabel => simp [hlabel]
  | again hlabel hold =>
      constructor
      · exact Or.inl
      · rintro (hmem | hsome)
        · exact hmem
        · obtain rfl := Option.some.inj (hlabel.symm.trans hsome)
          exact hold
  | first hlabel => simp [AddressTable.names, hlabel, eq_comm]

theorem Literal.head?_text (literal : Literal) : literal.text.toList.head? = some '=' := by
  cases literal with
  | bytes constant => simp [text]
  | word value => simp [text]

namespace Layout

/-! ## lines that have a place -/

/-- A line has a place behind a layout: it holds a statement, whose length is known and fits into
memory as long as the literals it may place are not counted. -/
structure HasPlace (registry : Registry) (layout : Layout) (line : Nat × String)
    (statement : Statement) (length : Nat) : Prop where
  drafted : draft registry line.1 line.2 = .ok (some statement)
  sized : lengthOf registry statement = .ok length
  fitting : fits (layout.placed statement length).address length = true

section
variable {registry : Registry} {layout : Layout} {line : Nat × String} {statement : Statement}
  {length : Nat}

/-- A statement that fits with the literals it places fits without them. -/
theorem fits_of_fits_resized (hlength : lengthOf registry statement = .ok length)
    (hfits : fits (layout.placed statement length).address
      ((layout.openSection statement).resized (layout.placed statement length)).length = true) :
    fits (layout.placed statement length).address length = true := by
  have hresized := length_resized (layout.openSection statement) (layout.placed statement length)
  cases hplaces : (layout.placed statement length).placesLiterals with
  | false =>
      rw [hplaces, if_neg Bool.false_ne_true] at hresized
      rw [hresized] at hfits
      exact hfits
  | true =>
      have hzero : lengthOf registry statement = .ok 0 := lengthOf_of_placesLiterals hplaces
      rw [hlength, Except.ok.injEq] at hzero
      have hbound := of_decide_eq_true hfits
      exact decide_eq_true (by omega)

/-- A line with a place has one statement and one length. -/
theorem HasPlace.unique {other : Statement} {otherLength : Nat}
    (h : HasPlace registry layout line statement length)
    (hother : HasPlace registry layout line other otherLength) :
    other = statement ∧ otherLength = length := by
  have hsame := hother.drafted
  rw [h.drafted, Except.ok.injEq, Option.some.injEq] at hsame
  subst hsame
  exact ⟨rfl, Except.ok.inj (hother.sized.symm.trans h.sized)⟩

/-- **A line leaves the tables alone unless it has a place.**  If it has one, its statement goes
into the tables, whether or not it is kept. -/
theorem tables_addLine (registry : Registry) (layout : Layout) (line : Nat × String) :
    ((∀ statement length, ¬ HasPlace registry layout line statement length) ∧
      (layout.addLine registry line).1.symbols = layout.symbols ∧
      (layout.addLine registry line).1.literals = layout.literals) ∨
    ∃ statement length, HasPlace registry layout line statement length ∧
      (layout.addLine registry line).1.symbols =
        ((layout.openSection statement).obeyed (layout.placed statement length)).symbols ∧
      (layout.addLine registry line).1.literals =
        ((layout.openSection statement).obeyed (layout.placed statement length)).literals := by
  have hadded := added_addLine registry layout line
  generalize layout.addLine registry line = result at hadded
  cases hadded with
  | blank hdraft =>
      refine Or.inl ⟨fun _ _ hplace => ?_, rfl, rfl⟩
      rw [hplace.drafted] at hdraft
      cases hdraft
  | unreadable fault hdraft =>
      refine Or.inl ⟨fun _ _ hplace => ?_, rfl, rfl⟩
      rw [hplace.drafted] at hdraft
      cases hdraft
  | unsized statement fault events hdraft hlength =>
      refine Or.inl ⟨fun _ _ hplace => ?_, symbols_openSection .., literals_openSection ..⟩
      obtain ⟨hother, hsized, -⟩ := hplace
      rw [hdraft, Except.ok.injEq, Option.some.injEq] at hother
      rw [← hother, hlength] at hsized
      cases hsized
  | unfit statement length events hdraft hlength hfits =>
      refine Or.inl ⟨fun _ _ hplace => ?_, symbols_openSection .., literals_openSection ..⟩
      obtain ⟨hother, hsized, hfitting⟩ := hplace
      rw [hdraft, Except.ok.injEq, Option.some.injEq] at hother
      rw [← hother, hlength, Except.ok.injEq] at hsized
      rw [← hother, ← hsized, hfits] at hfitting
      cases hfitting
  | overflowed statement length events hdraft hlength hfits hsized =>
      exact Or.inr ⟨statement, length, ⟨hdraft, hlength, hsized⟩, rfl, rfl⟩
  | kept statement length events hdraft hlength hfits =>
      exact Or.inr ⟨statement, length, ⟨hdraft, hlength, fits_of_fits_resized hlength hfits⟩,
        rfl, rfl⟩

theorem mem_symbols_addLine_iff (name : String) :
    name ∈ (layout.addLine registry line).1.symbols.names ↔ name ∈ layout.symbols.names ∨
      ∃ statement length, HasPlace registry layout line statement length ∧
        statement.label = some name := by
  rcases tables_addLine registry layout line with
    ⟨hnone, hsymbols, -⟩ | ⟨statement, length, hplace, hsymbols, -⟩
  · rw [hsymbols]
    refine ⟨Or.inl, ?_⟩
    rintro (hmem | ⟨statement, length, hplace, -⟩)
    · exact hmem
    · exact absurd hplace (hnone statement length)
  · obtain ⟨faults, hdefines, -⟩ :=
      defines_obeyed (layout.openSection statement) (layout.placed statement length)
    rw [hsymbols, hdefines.mem_names_iff, symbols_openSection]
    refine or_congr_right ⟨fun hlabel => ⟨statement, length, hplace, hlabel⟩, ?_⟩
    rintro ⟨other, otherLength, hother, hlabel⟩
    obtain ⟨rfl, rfl⟩ := hplace.unique hother
    exact hlabel

end

/-! ## the names of both tables -/

/-- A text is the label of one of the lines of a section, which has a place behind those before
it. -/
def IsLabel (registry : Registry) (lines : List (Nat × String)) (name : String) : Prop :=
  ∃ before line after statement length, lines = before ++ line :: after ∧
    HasPlace registry (addLines registry {} before).1 line statement length ∧
    statement.label = some name

/-- **Symbols are the labels of lines that have a place.** -/
theorem mem_symbols_addLines_iff (registry : Registry) (lines : List (Nat × String))
    (name : String) :
    name ∈ (addLines registry {} lines).1.symbols.names ↔ IsLabel registry lines name := by
  induction lines using List.reverseRecOn with
  | nil => simp [addLines, IsLabel, AddressTable.names, EmptyCollection.emptyCollection,
      AddressTable.empty]
  | append_singleton lines line ih =>
      rw [addLines_append, addLines, addLines, mem_symbols_addLine_iff, ih]
      constructor
      · rintro (⟨before, other, after, statement, length, rfl, hplace, hlabel⟩ |
          ⟨statement, length, hplace, hlabel⟩)
        · exact ⟨before, other, after ++ [line], statement, length, by simp, hplace, hlabel⟩
        · exact ⟨lines, line, [], statement, length, rfl, hplace, hlabel⟩
      · rintro ⟨before, other, after, statement, length, hsplit, hplace, hlabel⟩
        rcases split_concat hsplit with ⟨rfl, rfl, -⟩ | ⟨rest, -, rfl⟩
        · exact Or.inr ⟨statement, length, hplace, hlabel⟩
        · exact Or.inl ⟨before, other, rest, statement, length, rfl, hplace, hlabel⟩

/-- A label stands in the first field of its line. -/
theorem IsLabel.exists_field {registry : Registry} {lines : List (Nat × String)} {name : String}
    (h : IsLabel registry lines name) :
    ∃ line ∈ lines, ∃ fields, LineFields.read line.2 = .ok (some fields) ∧
      fields.label = some name := by
  obtain ⟨before, line, after, statement, length, rfl, hplace, hlabel⟩ := h
  obtain ⟨fields, hread, hfields⟩ := exists_fields_of_draft hplace.drafted
  exact ⟨line, by simp, fields, hread, label_draftFields hfields ▸ hlabel⟩

/-- **Literals go by their texts.** -/
theorem exists_literal_of_mem_names {registry : Registry} {lines : List (Nat × String)} :
    ∀ name ∈ (addLines registry {} lines).1.literals.names, ∃ value : Literal,
      name = value.text := by
  refine addLines_invariant (P := fun layout => ∀ name ∈ layout.literals.names,
      ∃ value : Literal, name = value.text) ?_ {} (fun h : False => h.elim) ?_
  · intro layout line _ _ h
    rcases tables_addLine registry layout line with
      ⟨-, -, hliterals⟩ | ⟨statement, length, -, -, hliterals⟩
    · rwa [hliterals]
    · rw [hliterals, names_literals_obeyed]
      rcases literals_defined (layout.openSection statement) (layout.placed statement length) with
        hsame | ⟨value, -, -, hnew⟩
      · rwa [hsame, literals_openSection]
      · rw [hnew, literals_openSection, AddressTable.names, List.map_append, List.forall_mem_append]
        exact ⟨h, fun name hname => ⟨value, List.mem_singleton.mp hname⟩⟩
  · intro name hmem
    cases hmem

end Layout

/-! ## looking a literal up -/

namespace Program

/-- What looking up the name of a literal comes to in a section of the given lines. -/
structure LiteralResolves (registry : Registry) (lines : List (Nat × String)) (sect : Section)
    (name : String) : Prop where
  sign : name.toList.head? = some '='
  shared : name ∈ sect.symbols.names ↔ Layout.IsLabel registry lines name
  /-- A literal whose text is no label is found in the pool. -/
  literal : ¬ Layout.IsLabel registry lines name → sect.lookup name = sect.literals.lookup name
  /-- A literal whose text is a label is hidden by the symbol. -/
  symbol : Layout.IsLabel registry lines name →
    ∃ value, sect.symbols.lookup name = some value ∧ sect.lookup name = some value

theorem lookup_of_notMem_symbols {sect : Section} {name : String}
    (h : name ∉ sect.symbols.names) : sect.lookup name = sect.literals.lookup name := by
  rw [Section.lookup]
  cases hlookup : sect.symbols.lookup name with
  | none => rfl
  | some value => exact absurd (AddressTable.mem_names_of_lookup hlookup) h

/-- **Literals resolve to the pool unless their texts are labels.**  The names of the literals of a
section all start with `=`.  Such a name is a symbol of the section as well just if a line that has
a place there has it as its label; if none has, and so if no label of the section starts with
`=`, looking the name up gives what the literal table has for it.  If one has, the symbol is
found. -/
theorem literals_resolve_unless_labels (registry : Registry) (source : String) {i : Nat}
    {lines : List (Nat × String)} {sect : Section}
    (hlines : (cutSections (numberedLines source)).2[i]? = some lines)
    (hsect : (assemble registry source).sections[i]? = some sect) :
    (∀ name ∈ sect.literals.names, LiteralResolves registry lines sect name) ∧
    ((∀ line ∈ lines, ∀ fields, LineFields.read line.2 = .ok (some fields) →
        ∀ label ∈ fields.label, label.toList.head? ≠ some '=') →
      ∀ name ∈ sect.literals.names, name ∉ sect.symbols.names ∧
        sect.lookup name = sect.literals.lookup name) := by
  have hmem := List.mem_of_getElem? hsect
  rw [sections_assemble, List.getElem?_map, hlines, Option.map_some, Option.some.injEq] at hsect
  subst hsect
  have hshared : ∀ name, name ∈ (assembleSection registry lines).1.symbols.names ↔
      Layout.IsLabel registry lines name := Layout.mem_symbols_addLines_iff registry lines
  have hsign : ∀ name ∈ (assembleSection registry lines).1.literals.names,
      name.toList.head? = some '=' := by
    intro name hname
    obtain ⟨value, rfl⟩ := Layout.exists_literal_of_mem_names name hname
    exact value.head?_text
  constructor
  · intro name hname
    refine ⟨hsign name hname, hshared name, fun hfree => ?_, fun hlabel => ?_⟩
    · exact lookup_of_notMem_symbols (mt (hshared name).mp hfree)
    · have hlocated : ∀ entry ∈ (assembleSection registry lines).1.symbols.entries,
          entry.2.isSome := fun entry hentry => (listable_of_mem_symbols hmem entry hentry).1
      obtain ⟨value, hvalue⟩ := Option.isSome_iff_exists.mp
        (AddressTable.isSome_lookup hlocated ((hshared name).mpr hlabel))
      exact ⟨value, hvalue, by rw [Section.lookup, hvalue, Option.some_or]⟩
  · intro hplain name hname
    have hfree : name ∉ (assembleSection registry lines).1.symbols.names := by
      intro hlabel
      obtain ⟨line, hline, fields, hread, hfield⟩ := ((hshared name).mp hlabel).exists_field
      exact hplain line hline fields hread name hfield (hsign name hname)
    exact ⟨hfree, lookup_of_notMem_symbols hfree⟩

/-- A program with a label that is written like one of its two literals. -/
def hiddenLiteral : String := "P\tSTART\t0\n=C'EOF'\tLDA\t=C'EOF'\n\tLDA\t=X'05'\n\tEND\n"

/-- The lines of `hiddenLiteral`. -/
def hiddenLiteralLines : List (Nat × String) :=
  [(1, "P\tSTART\t0"), (2, "=C'EOF'\tLDA\t=C'EOF'"), (3, "\tLDA\t=X'05'"), (4, "\tEND")]

theorem hiddenLiteral_facts :
    (cutSections (numberedLines hiddenLiteral)).2[0]? = some hiddenLiteralLines ∧
    (assemble loadRegistry hiddenLiteral).sections[0]? = some (onlySection hiddenLiteral) ∧
    (onlySection hiddenLiteral).symbols.entries = [("P", some 0), ("=C'EOF'", some 0)] ∧
    (onlySection hiddenLiteral).literals.entries = [("=C'EOF'", some 6), ("=X'05'", some 9)] := by
  decide +kernel

/-- In `hiddenLiteral`, looking up the first literal finds the symbol, and looking up the second one
finds the literal. -/
theorem literals_resolve_hiddenLiteral :
    Layout.IsLabel loadRegistry hiddenLiteralLines "=C'EOF'" ∧
    (∃ value, (onlySection hiddenLiteral).symbols.lookup "=C'EOF'" = some value ∧
      (onlySection hiddenLiteral).lookup "=C'EOF'" = some value) ∧
    ¬ Layout.IsLabel loadRegistry hiddenLiteralLines "=X'05'" ∧
    (onlySection hiddenLiteral).lookup "=X'05'" =
      (onlySection hiddenLiteral).literals.lookup "=X'05'" := by
  obtain ⟨hlines, hsect, hsymbols, hliterals⟩ := hiddenLiteral_facts
  have hresolves := (literals_resolve_unless_labels loadRegistry hiddenLiteral hlines hsect).1
  have hfirst := hresolves "=C'EOF'" (by simp [AddressTable.names, hliterals])
  have hsecond := hresolves "=X'05'" (by simp [AddressTable.names, hliterals])
  have hlabel := hfirst.shared.mp (by simp [AddressTable.names, hsymbols])
  have hfree := mt hsecond.shared.mpr (by simp [AddressTable.names, hsymbols])
  exact ⟨hlabel, hfirst.symbol hlabel, hfree, hsecond.literal hfree⟩

/-- **A label can hide a literal**: there is a program with a name in both tables, which is at 6 in
the literal table and found at 0. -/
theorem literal_is_hidden :
    (¬ ∀ registry source, ∀ sect ∈ (assemble registry source).sections,
      ∀ name ∈ sect.literals.names, sect.lookup name = sect.literals.lookup name) ∧
    (¬ ∀ registry source, ∀ sect ∈ (assemble registry source).sections,
      ∀ name ∈ sect.literals.names, name ∉ sect.symbols.names) := by
  obtain ⟨-, hsect, hsymbols, hliterals⟩ := hiddenLiteral_facts
  have hmem := List.mem_of_getElem? hsect
  have hliteral : "=C'EOF'" ∈ (onlySection hiddenLiteral).literals.names := by
    simp [AddressTable.names, hliterals]
  have hsymbol : "=C'EOF'" ∈ (onlySection hiddenLiteral).symbols.names := by
    simp [AddressTable.names, hsymbols]
  refine ⟨fun h => ?_, fun h => h _ _ _ hmem _ hliteral hsymbol⟩
  have hlookup := h _ _ _ hmem _ hliteral
  simp [Section.lookup, AddressTable.lookup, hsymbols, hliterals] at hlookup

end Program

end SicXe
