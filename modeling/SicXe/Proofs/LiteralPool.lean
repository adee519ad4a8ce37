import SicXe.Proofs.LayoutStep
import SicXe.Proofs.TextImage

/-!
# SicXe.Proofs.LiteralPool

The two views of a literal pool.

Laying a section out places the pending literals one behind another where a statement asks for
it; producing object code looks for the literals whose addresses lie within that statement.  The
two agree (`poolsFilled_layOut`): the literals found take as many bytes as the statement does, and
every placed literal is found in some statement at the address it was given.

The literals found in a range may include some that were placed earlier, but only such as take no
bytes, because every literal placed so far ends at or before the location counter.
-/

namespace SicXe

open Layout (literalSize)
open Encoding (literalContents poolContents)

/-- The room of a name in a pool is what its literal fills. -/
theorem length_literalContents (name : String) :
    (literalContents name).length = literalSize name := by
  unfold literalContents literalSize
  cases Literal.read name with
  | ok value => exact value.length_contents
  | error error => rfl

/-! ## contents of a range of addresses -/

/-- The bytes that an entry of a literal table adds to a range of addresses. -/
def entryContents (start stop : Nat) : String × Option Nat → List UInt8
  | (_, none) => []
  | (name, some address) => if start ≤ address ∧ address < stop then literalContents name else []

/-- The bytes of the literals placed from `start` to before `stop`. -/
def rangeContents (entries : List (String × Option Nat)) (start stop : Nat) : List UInt8 :=
  entries.flatMap (entryContents start stop)

/-- The bytes of the pending literals. -/
def pendingContents (entries : List (String × Option Nat)) : List UInt8 :=
  entries.flatMap fun entry => if entry.2.isNone then literalContents entry.1 else []

theorem poolContents_eq (sect : Section) (start stop : Nat) :
    poolContents sect start stop = rangeContents sect.literals.entries start stop := by
  unfold poolContents rangeContents AddressTable.located
  induction sect.literals.entries with
  | nil => rfl
  | cons entry rest ih =>
      obtain ⟨name, _ | address⟩ := entry
      · simpa [entryContents] using ih
      · simpa [entryContents] using ih

theorem rangeContents_append_pending (entries : List (String × Option Nat)) (name : String)
    (start stop : Nat) :
    rangeContents (entries ++ [(name, none)]) start stop = rangeContents entries start stop := by
  simp [rangeContents, entryContents]

/-! ## placing the pending literals -/

/- Each lemma follows the recursion of `placeFrom`: an entry that has an address is passed over,
and a pending one takes the address in hand. -/

theorem placeFrom_snd (entries : List (String × Option Nat)) (address : Nat) :
    (AddressTable.placeFrom literalSize address entries).2 =
      address + (pendingContents entries).length := by
  induction entries generalizing address with
  | nil => rfl
  | cons entry rest ih =>
      obtain ⟨name, _ | located⟩ := entry
      · simp only [AddressTable.placeFrom]
        rw [ih]
        simp [pendingContents, length_literalContents, Nat.add_assoc]
      · simp only [AddressTable.placeFrom]
        rw [ih]
        simp [pendingContents]

/-- Placing literals from an address on leaves the contents before it as they are. -/
theorem rangeContents_placeFrom_before (entries : List (String × Option Nat))
    {start stop address : Nat} (h : stop ≤ address) :
    rangeContents (AddressTable.placeFrom literalSize address entries).1 start stop =
      rangeContents entries start stop := by
  induction entries generalizing address with
  | nil => rfl
  | cons entry rest ih =>
      obtain ⟨name, _ | located⟩ := entry
      · have hout : entryContents start stop (name, some address) = [] :=
          if_neg (by omega)
        have hrest := ih (show stop ≤ address + literalSize name by omega)
        simp only [rangeContents] at hrest
        simp only [AddressTable.placeFrom, rangeContents, List.flatMap_cons]
        rw [hout, hrest]
        rfl
      · have hrest := ih h
        simp only [rangeContents] at hrest
        simp only [AddressTable.placeFrom, rangeContents, List.flatMap_cons]
        rw [hrest]

/-- What is found where the pending literals were placed is just these literals. -/
theorem rangeContents_placeFrom (entries : List (String × Option Nat)) {start stop address : Nat}
    (hplaced : ∀ name located, (name, some located) ∈ entries →
      located + literalSize name ≤ start)
    (hstart : start ≤ address)
    (hstop : (AddressTable.placeFrom literalSize address entries).2 ≤ stop) :
    rangeContents (AddressTable.placeFrom literalSize address entries).1 start stop =
      pendingContents entries := by
  induction entries generalizing address with
  | nil => rfl
  | cons entry rest ih =>
      have hplaced' : ∀ name located, (name, some located) ∈ rest →
          located + literalSize name ≤ start :=
        fun name located hmem => hplaced name located (List.mem_cons_of_mem _ hmem)
      obtain ⟨name, _ | located⟩ := entry
      · simp only [AddressTable.placeFrom] at hstop
        have hend := placeFrom_snd rest (address + literalSize name)
        -- A literal placed at the very end of the range takes no bytes.
        have hfirst : entryContents start stop (name, some address) = literalContents name := by
          by_cases hin : address < stop
          · exact if_pos ⟨hstart, hin⟩
          · have hempty : literalContents name = [] := by
              rw [← List.length_eq_zero_iff, length_literalContents]
              omega
            rw [hempty, entryContents, hempty]
            split <;> rfl
        have hrest := ih hplaced' (by omega) hstop
        simp only [rangeContents, pendingContents] at hrest
        simp only [AddressTable.placeFrom, rangeContents, pendingContents, List.flatMap_cons]
        rw [hfirst, hrest]
        rfl
      · -- So does one that was placed before and lies at the start of the range.
        have hfirst : entryContents start stop (name, some located) = [] := by
          have hle := hplaced name located List.mem_cons_self
          by_cases hin : start ≤ located ∧ located < stop
          · rw [entryContents, if_pos hin, ← List.length_eq_zero_iff, length_literalContents]
            omega
          · exact if_neg hin
        have hrest := ih hplaced' hstart hstop
        simp only [rangeContents, pendingContents] at hrest
        simp only [AddressTable.placeFrom, rangeContents, pendingContents, List.flatMap_cons]
        rw [hfirst, hrest]
        rfl

/-- A literal that has an address after placing had it before, or lies among the literals that
were pending. -/
theorem mem_placeFrom {entries : List (String × Option Nat)} {address located : Nat}
    {name : String}
    (h : (name, some located) ∈ (AddressTable.placeFrom literalSize address entries).1) :
    (name, some located) ∈ entries ∨
      (located + literalSize name ≤ (AddressTable.placeFrom literalSize address entries).2 ∧
        ∀ cell ∈ Bytes.cells located (literalContents name),
          cell ∈ Bytes.cells address (pendingContents entries)) := by
  induction entries generalizing address with
  | nil => simp [AddressTable.placeFrom] at h
  | cons entry rest ih =>
      obtain ⟨first, _ | old⟩ := entry
      · have hcells : Bytes.cells address (pendingContents ((first, none) :: rest)) =
            Bytes.cells address (literalContents first) ++
              Bytes.cells (address + literalSize first) (pendingContents rest) := by
          rw [← length_literalContents, ← Bytes.cells_append]
          rfl
        simp only [AddressTable.placeFrom, List.mem_cons] at h ⊢
        rw [hcells]
        rcases h with hfirst | hrest
        · cases hfirst
          refine Or.inr ⟨?_, fun cell hcell => List.mem_append_left _ hcell⟩
          rw [placeFrom_snd]
          omega
        · rcases ih hrest with hold | ⟨hend, hnew⟩
          · exact Or.inl (Or.inr hold)
          · exact Or.inr ⟨hend, fun cell hcell => List.mem_append_right _ (hnew cell hcell)⟩
      · have hpending : pendingContents ((first, some old) :: rest) = pendingContents rest := rfl
        simp only [AddressTable.placeFrom, List.mem_cons] at h ⊢
        rw [hpending]
        rcases h with hfirst | hrest
        · exact Or.inl (Or.inl hfirst)
        · rcases ih hrest with hold | hnew
          · exact Or.inl (Or.inr hold)
          · exact Or.inr hnew

/-! ## the invariant -/

namespace Layout

/-- The literal pools of a layout are filled by the literals placed in them. -/
structure PoolsFilled (layout : Layout) : Prop where
  stops : ∀ statement ∈ layout.statements, statement.stop ≤ layout.counter
  /-- Every placed literal ends at or before the location counter. -/
  placed : ∀ name address, (name, some address) ∈ layout.literals.entries →
    address + literalSize name ≤ layout.counter
  /-- The literals found in a statement that places literals take the bytes it does. -/
  filled : ∀ statement ∈ layout.statements, statement.placesLiterals = true →
    (rangeContents layout.literals.entries statement.address statement.stop).length =
      statement.length
  /-- Every placed literal is found in a statement, at its own address. -/
  found : ∀ name address, (name, some address) ∈ layout.literals.entries →
    ∀ cell ∈ Bytes.cells address (literalContents name),
      ∃ statement ∈ layout.statements, statement.placesLiterals = true ∧
        cell ∈ Bytes.cells statement.address
          (rangeContents layout.literals.entries statement.address statement.stop)

/-- Noting a literal puts none into the pools. -/
theorem PoolsFilled.note {layout : Layout} (h : layout.PoolsFilled) {noted : AddressTable}
    (hnoted : noted = layout.literals ∨
      ∃ name, noted = ⟨layout.literals.entries ++ [(name, none)]⟩) :
    PoolsFilled { layout with literals := noted } := by
  rcases hnoted with rfl | ⟨new, rfl⟩
  · exact h
  · have hmem : ∀ name address,
        (name, some address) ∈ layout.literals.entries ++ [(new, none)] →
          (name, some address) ∈ layout.literals.entries := by
      intro name address hmem
      simpa using hmem
    constructor
    · exact h.stops
    · exact fun name address hentry => h.placed name address (hmem name address hentry)
    · simp only [rangeContents_append_pending]
      exact h.filled
    · simp only [rangeContents_append_pending]
      exact fun name address hentry => h.found name address (hmem name address hentry)

section
variable {registry : Registry} {number : Nat} {layout next : Layout} {statement : Statement}
  {noted : AddressTable}

theorem PoolsFilled.stops_grows (h : layout.PoolsFilled)
    (hgrows : Grows registry number layout next statement noted) :
    ∀ other ∈ next.statements, other.stop ≤ next.counter := by
  intro other hmem
  rcases hgrows.mem_statements.mp hmem with hold | rfl
  · exact Nat.le_trans (h.stops other hold) hgrows.counter_le
  · exact Nat.le_of_eq hgrows.counter.symm

/-- A statement that places no literals keeps the pools as they are. -/
theorem PoolsFilled.concat (h : layout.PoolsFilled)
    (hgrows : Grows registry number layout next statement noted)
    (hplaces : statement.placesLiterals = false) : next.PoolsFilled := by
  have hnoted := h.note hgrows.notes
  have hliterals : next.literals = noted := by
    rw [hgrows.literals, hplaces]; rfl
  constructor
  · exact h.stops_grows hgrows
  · intro name address hentry
    rw [hliterals] at hentry
    exact Nat.le_trans (hnoted.placed name address hentry) hgrows.counter_le
  · intro other hmem hother
    rw [hliterals]
    rcases hgrows.mem_statements.mp hmem with hold | rfl
    · exact hnoted.filled other hold hother
    · rw [hplaces] at hother
      cases hother
  · intro name address hentry cell hcell
    rw [hliterals] at hentry ⊢
    obtain ⟨other, hmem, hother, hin⟩ := hnoted.found name address hentry cell hcell
    exact ⟨other, hgrows.mem_statements.mpr (Or.inl hmem), hother, hin⟩

/-- A statement that places the pending literals is as long as they are. -/
theorem Grows.length_of_places (hgrows : Grows registry number layout next statement noted)
    (hplaces : statement.placesLiterals = true) :
    statement.length = (pendingContents noted.entries).length := by
  have hend := placeFrom_snd noted.entries statement.address
  have hlength := hgrows.length
  rw [hplaces, if_pos rfl, AddressTable.placePending] at hlength
  dsimp only at hlength
  omega

/-- A statement that places the pending literals adds a pool that holds them. -/
theorem PoolsFilled.place (h : layout.PoolsFilled)
    (hgrows : Grows registry number layout next statement noted)
    (hplaces : statement.placesLiterals = true) : next.PoolsFilled := by
  have hnoted := h.note hgrows.notes
  have hentries : next.literals.entries =
      (AddressTable.placeFrom literalSize statement.address noted.entries).1 := by
    rw [hgrows.literals, hplaces]; rfl
  have hlength := hgrows.length_of_places hplaces
  have hstop : (AddressTable.placeFrom literalSize statement.address noted.entries).2 =
      statement.stop := by
    rw [placeFrom_snd, Statement.stop, hlength]
  -- The pools before the new one lie before its address, where nothing is placed now.
  have hkept : ∀ other ∈ layout.statements,
      rangeContents next.literals.entries other.address other.stop =
        rangeContents noted.entries other.address other.stop := by
    intro other hmem
    rw [hentries]
    apply rangeContents_placeFrom_before
    rw [hgrows.address]
    exact h.stops other hmem
  have hnew : rangeContents next.literals.entries statement.address statement.stop =
      pendingContents noted.entries := by
    rw [hentries]
    apply rangeContents_placeFrom _ _ (Nat.le_refl _) (Nat.le_of_eq hstop)
    rw [hgrows.address]
    exact hnoted.placed
  constructor
  · exact h.stops_grows hgrows
  · intro name address hentry
    rw [hentries] at hentry
    rcases mem_placeFrom hentry with hold | ⟨hlast, -⟩
    · exact Nat.le_trans (hnoted.placed name address hold) hgrows.counter_le
    · rw [hgrows.counter, ← hstop]
      exact hlast
  · intro other hmem hother
    rcases hgrows.mem_statements.mp hmem with hold | rfl
    · rw [hkept other hold]
      exact hnoted.filled other hold hother
    · rw [hnew, hlength]
  · intro name address hentry cell hcell
    rw [hentries] at hentry
    rcases mem_placeFrom hentry with hold | ⟨-, hcells⟩
    · obtain ⟨other, hmem, hother, hin⟩ := hnoted.found name address hold cell hcell
      refine ⟨other, hgrows.mem_statements.mpr (Or.inl hmem), hother, ?_⟩
      rw [hkept other hmem]
      exact hin
    · refine ⟨statement, hgrows.mem_statements.mpr (Or.inr rfl), hplaces, ?_⟩
      rw [hnew]
      exact hcells cell hcell

end

/-- **Both views agree**: the literal pools of a section that stays in memory are filled. -/
theorem poolsFilled_layOut {registry : Registry} {lines : List (Nat × String)}
    (honce : Program.OpenedOnce lines)
    (hstays : StayInMemory (addLines registry {} lines).2.diagnostics) :
    (addLines registry {} lines).1.PoolsFilled := by
  apply layOut_invariant honce
  · constructor <;> simp [AddressTable.empty, EmptyCollection.emptyCollection]
  · intro layout next hrests hliterals h
    constructor
    · rw [hrests.statements, hrests.counter]
      exact h.stops
    · rw [hliterals hstays, hrests.counter]
      exact h.placed
    · rw [hliterals hstays, hrests.statements]
      exact h.filled
    · rw [hliterals hstays, hrests.statements]
      exact h.found
  · intro layout next number statement noted hgrows h
    cases hplaces : statement.placesLiterals with
    | true => exact h.place hgrows hplaces
    | false => exact h.concat hgrows hplaces

end Layout

end SicXe
