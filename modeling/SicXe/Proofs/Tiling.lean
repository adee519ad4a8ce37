import SicXe.Proofs.LayoutStep
import SicXe.Proofs.TextImage

/-!
# SicXe.Proofs.Tiling

Statements that lie one behind another.

The statements of a section that is opened once tile its addresses from 0 to the location counter
(`tile_layOut`).  Whatever cells such statements contribute, each within its own addresses, an
address inside one of them holds the cells of that statement and of no other
(`bytesAt_of_mem_tile`).
-/

namespace SicXe

namespace Statement

/-- Statements lie one behind another, from `start` to before `stop`. -/
def Tile : (start : Nat) → List Statement → (stop : Nat) → Prop
  | start, [], stop => start = stop
  | start, statement :: rest, stop => statement.address = start ∧ Tile statement.stop rest stop

theorem tile_concat {start stop : Nat} {statements : List Statement} {statement : Statement}
    (h : Tile start statements stop) (haddr : statement.address = stop) :
    Tile start (statements ++ [statement]) statement.stop := by
  induction statements generalizing start with
  | nil =>
      have hstart : start = stop := h
      exact ⟨by omega, rfl⟩
  | cons first rest ih => exact ⟨h.1, ih h.2⟩

theorem Tile.stop_eq {start stop : Nat} {statements : List Statement}
    (h : Tile start statements stop) : stop = start + totalLength statements := by
  induction statements generalizing start with
  | nil => exact h.symm
  | cons first rest ih =>
      obtain ⟨haddr, hrest⟩ := h
      have hlength := ih hrest
      simp only [Statement.stop, totalLength] at hlength ⊢
      omega

/-- A statement of a tiling ends before it does, and starts behind its start. -/
theorem Tile.bounds {start stop : Nat} {statements : List Statement}
    (h : Tile start statements stop) {statement : Statement} (hmem : statement ∈ statements) :
    start ≤ statement.address ∧ statement.stop ≤ stop := by
  induction statements generalizing start with
  | nil => simp at hmem
  | cons first rest ih =>
      obtain ⟨haddr, hrest⟩ := h
      have hstop := hrest.stop_eq
      have hfirst : start ≤ first.stop := by rw [← haddr]; exact Nat.le_add_right ..
      rcases List.mem_cons.mp hmem with rfl | hmem
      · exact ⟨by omega, by omega⟩
      · have hbounds := ih hrest hmem
        exact ⟨by omega, hbounds.2⟩

/-- Every address of a tiling lies inside a statement. -/
theorem Tile.exists_of_lt {start stop address : Nat} {statements : List Statement}
    (h : Tile start statements stop) (hstart : start ≤ address) (hstop : address < stop) :
    ∃ statement ∈ statements, statement.address ≤ address ∧ address < statement.stop := by
  induction statements generalizing start with
  | nil =>
      have hempty : start = stop := h
      omega
  | cons first rest ih =>
      obtain ⟨haddr, hrest⟩ := h
      by_cases hin : address < first.stop
      · exact ⟨first, List.mem_cons_self, by omega, hin⟩
      · obtain ⟨statement, hmem, hle, hlt⟩ := ih hrest (by omega)
        exact ⟨statement, List.mem_cons_of_mem _ hmem, hle, hlt⟩

/-! ## cells -/

/-- The cells of a statement lie inside it. -/
def CellsInside (statement : Statement) : Prop :=
  ∀ cell ∈ statement.cells, statement.address ≤ cell.1 ∧ cell.1 < statement.stop

/-- Outside a tiling nothing is placed. -/
theorem bytesAt_outside_tile {start stop address : Nat} {statements : List Statement}
    (h : Tile start statements stop) (hinside : ∀ statement ∈ statements, statement.CellsInside)
    (hout : address < start ∨ stop ≤ address) :
    Bytes.bytesAt (statements.flatMap cells) address = [] := by
  apply Bytes.bytesAt_eq_nil
  intro cell hcell
  obtain ⟨statement, hmem, hcell⟩ := List.mem_flatMap.mp hcell
  have hbounds := h.bounds hmem
  have hcell := hinside statement hmem cell hcell
  omega

/-- **One statement an address**: inside a statement of a tiling, there is what that statement
contributes and nothing else. -/
theorem bytesAt_of_mem_tile {start stop address : Nat} {statements : List Statement}
    (h : Tile start statements stop) (hinside : ∀ statement ∈ statements, statement.CellsInside)
    {statement : Statement} (hmem : statement ∈ statements) (hstart : statement.address ≤ address)
    (hstop : address < statement.stop) :
    Bytes.bytesAt (statements.flatMap cells) address = Bytes.bytesAt statement.cells address := by
  induction statements generalizing start with
  | nil => simp at hmem
  | cons first rest ih =>
      obtain ⟨haddr, hrest⟩ := h
      have hinside' : ∀ other ∈ rest, other.CellsInside :=
        fun other hother => hinside other (List.mem_cons_of_mem _ hother)
      rw [List.flatMap_cons, Bytes.bytesAt_append]
      rcases List.mem_cons.mp hmem with rfl | hmem
      · rw [bytesAt_outside_tile hrest hinside' (Or.inl hstop), List.append_nil]
      · have hbounds := hrest.bounds hmem
        have hfirst : Bytes.bytesAt first.cells address = [] := by
          apply Bytes.bytesAt_eq_nil
          intro cell hcell
          have hcell := hinside first List.mem_cons_self cell hcell
          omega
        rw [hfirst, List.nil_append, ih hrest hinside' hmem]

end Statement

namespace Layout

/-- **Statements tile their section**: the statements of a section that is opened once lie one
behind another from address 0 to the location counter, which stays within memory. -/
theorem tile_layOut {registry : Registry} {lines : List (Nat × String)}
    (honce : Program.OpenedOnce lines) :
    Statement.Tile 0 (addLines registry {} lines).1.statements
        (addLines registry {} lines).1.counter ∧
      (addLines registry {} lines).1.counter ≤ memorySize := by
  apply layOut_invariant honce
    (P := fun layout => Statement.Tile 0 layout.statements layout.counter ∧
      layout.counter ≤ memorySize)
  · exact ⟨rfl, Nat.zero_le _⟩
  · intro layout next hrests _ h
    rw [hrests.statements, hrests.counter]
    exact h
  · intro layout next number statement noted hgrows h
    rw [hgrows.statements, hgrows.counter]
    exact ⟨Statement.tile_concat h.1 hgrows.address, hgrows.bounded⟩

end Layout

end SicXe
