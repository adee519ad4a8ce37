import SicXe.Diagnostic

/-!
# SicXe.Journal

What happens while a section is assembled, apart from the section itself: diagnostics for the
author of the source, and events for whoever follows the assembler at work.  Both are kept in
the order they come in.
-/

namespace SicXe

/-- How closely one has to look to see an event. -/
inductive Detail where
  /-- Once or a few times a section. -/
  | debug
  /-- Once or twice a statement. -/
  | trace
  deriving Repr, DecidableEq

/-- Something that happens while a section is assembled. -/
inductive Event where
  /-- A section starts. -/
  | openedSection (name : String)
  /-- The pending literals are placed from an address on. -/
  | placedLiterals (address length : Nat)
  /-- A statement has its place. -/
  | located (operator : String) (line address length : Nat)
  /-- A statement has its object code. -/
  | encoded (operator : String) (line address : Nat) (code : List UInt8)
  /-- All statements of a section are encoded. -/
  | generatedSection (name : String) (length : Nat)
  deriving Repr, DecidableEq

/-- How closely one has to look to see an event. -/
def Event.detail : Event → Detail
  | openedSection _ | placedLiterals _ _ | generatedSection _ _ => .debug
  | located _ _ _ _ | encoded _ _ _ _ => .trace

/-- Diagnostics and events, each in the order they came in. -/
structure Journal where
  diagnostics : List Diagnostic := []
  events : List Event := []
  deriving Repr, DecidableEq, Inhabited

namespace Journal

instance : EmptyCollection Journal := ⟨{}⟩

/-- One journal followed by another. -/
def append (first second : Journal) : Journal :=
  ⟨first.diagnostics ++ second.diagnostics, first.events ++ second.events⟩

instance : Append Journal := ⟨append⟩

/-- The journal of one line. -/
def ofLine (line : Nat) (faults : List Fault) (events : List Event) : Journal :=
  ⟨faults.map fun fault => ⟨line, fault⟩, events⟩

@[simp] theorem diagnostics_empty : (∅ : Journal).diagnostics = [] := rfl

@[simp] theorem events_empty : (∅ : Journal).events = [] := rfl

@[simp] theorem diagnostics_append (first second : Journal) :
    (first ++ second).diagnostics = first.diagnostics ++ second.diagnostics := rfl

@[simp] theorem events_append (first second : Journal) :
    (first ++ second).events = first.events ++ second.events := rfl

@[simp] theorem diagnostics_ofLine (line : Nat) (faults : List Fault) (events : List Event) :
    (ofLine line faults events).diagnostics = faults.map fun fault => ⟨line, fault⟩ := rfl

@[simp] theorem events_ofLine (line : Nat) (faults : List Fault) (events : List Event) :
    (ofLine line faults events).events = events := rfl

end Journal

end SicXe
