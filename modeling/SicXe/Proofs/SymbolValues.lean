import SicXe.Proofs.LayoutStep

/-!
# SicXe.Proofs.SymbolValues

What stands in the symbol table of a section.

A symbol is the label of a line, and its value is the address of the line or what `EQU` gives it.
So a property that the labels of all lines have with such values holds of all symbols
(`forall_symbols_addLines`).  The addresses lie in memory, and `EQU` gives a value cut to a word,
the value of another symbol or the difference of two, cut to a word again.  So all symbols of a
section have values that fit in a word (`below_addLines`).
-/

namespace SicXe

namespace AddressTable

section
variable {table next : AddressTable} {name : String} {address bound : Nat}
  {P : String × Option Nat → Prop}

/-- A new name keeps what holds of all entries, if it holds of the new one. -/
theorem forall_entries_insert (h : ∀ entry ∈ table.entries, P entry)
    (hnew : P (name, some address)) (hnext : table.insert name address = .ok next) :
    ∀ entry ∈ next.entries, P entry := by
  unfold AddressTable.insert add at hnext
  split at hnext
  · cases hnext
  · cases hnext
    exact List.forall_mem_append.mpr ⟨h, by simpa using hnew⟩

theorem forall_setAddress {entries : List (String × Option Nat)} (h : ∀ entry ∈ entries, P entry)
    (hnew : P (name, some address)) : ∀ entry ∈ setAddress name address entries, P entry := by
  induction entries with
  | nil => simp [setAddress]
  | cons first rest ih =>
      obtain ⟨hfirst, hrest⟩ := List.forall_mem_cons.mp h
      unfold setAddress
      split
      · exact List.forall_mem_cons.mpr ⟨hnew, hrest⟩
      · exact List.forall_mem_cons.mpr ⟨hfirst, ih hrest⟩

/-- A new address keeps what holds of all entries, if it holds of the changed one. -/
theorem forall_entries_assign (h : ∀ entry ∈ table.entries, P entry)
    (hnew : P (name, some address)) (hnext : table.assign name address = .ok next) :
    ∀ entry ∈ next.entries, P entry := by
  unfold AddressTable.assign at hnext
  split at hnext
  · cases hnext
    exact forall_setAddress h hnew
  · cases hnext

/-- All located names of a table lie below a bound. -/
def Below (table : AddressTable) (bound : Nat) : Prop :=
  ∀ entry ∈ table.entries, ∀ address ∈ entry.2, address < bound

/-- What is found in a table below a bound is below it. -/
theorem Below.lookup_lt (h : table.Below bound) (hlookup : table.lookup name = some address) :
    address < bound := by
  obtain ⟨entry, hfound, haddress⟩ := Option.bind_eq_some_iff.mp hlookup
  exact h entry (List.mem_of_find?_eq_some hfound) address haddress

end

end AddressTable

namespace Layout

/-! ## the origin of symbols -/

@[simp] theorem symbols_openSection (layout : Layout) (statement : Statement) :
    (layout.openSection statement).symbols = layout.symbols := by
  unfold openSection; split <;> rfl

section
variable {P : String × Option Nat → Prop}

/-- Whatever can become of a label: it keeps a property of symbols at every address in memory, and
with every value that `EQU` can give it in a table whose symbols have the property. -/
structure Settles (P : String × Option Nat → Prop) (label : String) : Prop where
  located : ∀ address ≤ memorySize, P (label, some address)
  equated : ∀ (symbols : AddressTable) (operands : List Operand) (value : Nat),
    (∀ entry ∈ symbols.entries, P entry) → equatedValue symbols operands = .ok (some value) →
      P (label, some value)

variable {layout : Layout} {statement : Statement}

/-- Entering a label at the address of its line keeps what holds of all symbols. -/
theorem forall_symbols_defineLabel (h : ∀ entry ∈ layout.symbols.entries, P entry)
    (hlabel : ∀ label ∈ statement.label, Settles P label)
    (haddress : statement.address ≤ memorySize) :
    ∀ entry ∈ (layout.defineLabel statement).symbols.entries, P entry := by
  unfold defineLabel
  split
  · exact h
  · next label hsome =>
      split
      · next symbols hsymbols =>
          exact AddressTable.forall_entries_insert h
            ((hlabel label hsome).located _ haddress) hsymbols
      · exact h

/-- So does `EQU`, whose values are values of one word or of other symbols. -/
theorem forall_symbols_equate (h : ∀ entry ∈ layout.symbols.entries, P entry) {label : String}
    (hlabel : Settles P label) (operands : List Operand) :
    ∀ entry ∈ (layout.equate label operands).symbols.entries, P entry := by
  unfold equate
  split
  · next value hvalue =>
      split
      · next symbols hsymbols =>
          exact AddressTable.forall_entries_assign h (hlabel.equated _ _ value h hvalue) hsymbols
      · exact h
  · exact h

/-- So does every directive, since no other one changes symbols. -/
theorem forall_symbols_obeyDirective (h : ∀ entry ∈ layout.symbols.entries, P entry)
    (hlabel : ∀ label ∈ statement.label, Settles P label) (labeled : Bool) :
    ∀ entry ∈ (layout.obeyDirective statement labeled).symbols.entries, P entry := by
  unfold obeyDirective
  split
  · exact h
  · split
    · next label hsome => exact forall_symbols_equate h (hlabel label hsome) statement.operands
    · exact h
  · split <;> exact h
  · exact h

theorem forall_symbols_obeyed (h : ∀ entry ∈ layout.symbols.entries, P entry)
    (hlabel : ∀ label ∈ statement.label, Settles P label)
    (haddress : statement.address ≤ memorySize) :
    ∀ entry ∈ (layout.obeyed statement).symbols.entries, P entry := by
  obtain ⟨literals, firstUses, hnote⟩ := noteLiteral_eq (layout.defineLabel statement) statement
  have hdefined : ∀ entry ∈ (layout.defined statement).symbols.entries, P entry := by
    rw [defined, hnote]
    exact forall_symbols_defineLabel h hlabel haddress
  exact forall_symbols_obeyDirective hdefined hlabel _

end

/-- **One line** keeps what holds of all symbols, if it holds of the label of the line whatever the
label is settled to. -/
theorem forall_symbols_addLine {P : String × Option Nat → Prop} {registry : Registry}
    {layout : Layout} {line : Nat × String} (h : ∀ entry ∈ layout.symbols.entries, P entry)
    (hlabel : ∀ statement, draft registry line.1 line.2 = .ok (some statement) →
      ∀ label ∈ statement.label, Settles P label) :
    ∀ entry ∈ (layout.addLine registry line).1.symbols.entries, P entry := by
  have hobeyed : ∀ statement length bytes,
      draft registry line.1 line.2 = .ok (some statement) →
      fits (layout.placed statement length).address bytes = true →
      ∀ entry ∈ ((layout.openSection statement).obeyed
        (layout.placed statement length)).symbols.entries, P entry := by
    intro statement length bytes hdraft hfits
    have haddress : (layout.placed statement length).address + bytes ≤ memorySize :=
      of_decide_eq_true hfits
    exact forall_symbols_obeyed ((symbols_openSection layout statement).symm ▸ h)
      (hlabel statement hdraft) (Nat.le_trans (Nat.le_add_right ..) haddress)
  have hadded := added_addLine registry layout line
  generalize layout.addLine registry line = result at hadded
  cases hadded with
  | blank => exact h
  | unreadable => exact h
  | unsized statement => rwa [symbols_openSection]
  | unfit statement => rwa [symbols_openSection]
  | overflowed statement length events hdraft hlength hfits hsized =>
      -- The literals do not fit, but the label was defined before they were counted.
      exact hobeyed statement length _ hdraft hsized
  | kept statement length events hdraft hlength hfits =>
      exact hobeyed statement length _ hdraft hfits

/-- **Symbols are the labels of lines**: a property that the labels of all lines settle holds of all
symbols of a section. -/
theorem forall_symbols_addLines {P : String × Option Nat → Prop} {registry : Registry}
    {lines : List (Nat × String)}
    (hlabel : ∀ line ∈ lines, ∀ statement, draft registry line.1 line.2 = .ok (some statement) →
      ∀ label ∈ statement.label, Settles P label) :
    ∀ entry ∈ (addLines registry {} lines).1.symbols.entries, P entry := by
  refine addLines_invariant (P := fun layout => ∀ entry ∈ layout.symbols.entries, P entry) ?_ {}
    (fun h : False => h.elim) ?_
  · exact fun layout line hmem _ h => forall_symbols_addLine h (hlabel line hmem)
  · intro entry hmem
    cases hmem

/-! ## the values of symbols -/

/-- The value of a symbol that an operand names fits into a word, if all of them do. -/
theorem lt_of_symbolAddress {symbols : AddressTable} {name : String} {address : Nat}
    (h : symbols.Below wordSize) (haddress : symbolAddress symbols name = .ok address) :
    address < wordSize := by
  unfold symbolAddress at haddress
  split at haddress
  · next found hlookup =>
      cases haddress
      exact h.lookup_lt hlookup
  · cases haddress

/-- What `EQU` gives a label fits in a word. -/
theorem lt_of_equatedValue {symbols : AddressTable} {operands : List Operand} {value : Nat}
    (h : symbols.Below wordSize) (hvalue : equatedValue symbols operands = .ok (some value)) :
    value < wordSize := by
  have hcut : ∀ number : Int, (number % wordSize).toNat < wordSize := by
    intro number
    have hpos : (0 : Int) < wordSize := by decide
    have hlow := Int.emod_nonneg number (Int.ne_of_gt hpos)
    have hhigh := Int.emod_lt_of_pos number hpos
    omega
  unfold equatedValue at hvalue
  split at hvalue
  · cases hvalue
  · next number =>
      cases hvalue
      exact hcut number
  · next name =>
      cases haddress : symbolAddress symbols name with
      | error fault => rw [haddress] at hvalue; cases hvalue
      | ok address =>
          rw [haddress] at hvalue
          cases hvalue
          exact lt_of_symbolAddress h haddress
  · split at hvalue
    · cases hvalue
    · cases hvalue
    · cases hvalue
      exact hcut _
  · cases hvalue

/-- **Symbols fit in a word**, whatever lines a section is laid out from. -/
theorem below_addLines (registry : Registry) (lines : List (Nat × String)) :
    (addLines registry {} lines).1.symbols.Below wordSize := by
  have hsmall : memorySize < wordSize := by decide
  refine forall_symbols_addLines fun line _ statement _ label _ => ⟨?_, ?_⟩
  · intro address hle value hvalue
    cases hvalue
    exact Nat.lt_of_le_of_lt hle hsmall
  · intro symbols operands value hbelow hequated address haddress
    cases haddress
    exact lt_of_equatedValue hbelow hequated

end Layout

end SicXe
