import SicXe.Proofs.Revision

/-!
# SicXe.Proofs.LineNumbers

Assembling lines further down in a source text.

A section whose lines are all moved down by some number of lines is the same section, with its
statements moved down as far (`assembleSection_shiftLines`).  Moving lines down is one way of
revising them.
-/

namespace SicXe

/-- A statement that stands `n` lines further down. -/
def Statement.shiftLine (n : Nat) (statement : Statement) : Statement :=
  { statement with line := statement.line + n }

/-- A section that stands `n` lines further down. -/
def Section.shiftLines (n : Nat) (sect : Section) : Section :=
  { sect with statements := sect.statements.map (Statement.shiftLine n) }

/-- Numbers moved on twice are moved on by the sum. -/
theorem Section.shiftLines_shiftLines (sect : Section) (m n : Nat) :
    (sect.shiftLines m).shiftLines n = sect.shiftLines (m + n) := by
  simp only [shiftLines, List.map_map]
  congr 1
  apply List.map_congr_left
  intro statement _
  simp only [Function.comp_apply, Statement.shiftLine, Nat.add_assoc]

namespace Program

/-- Numbered lines that stand `n` lines further down. -/
def shiftLines (n : Nat) (lines : List (Nat × String)) : List (Nat × String) :=
  lines.map fun line => (line.1 + n, line.2)

/-- The revision that moves all lines down. -/
def shift (n : Nat) : Revision := ⟨(· + n), fun _ comment => comment⟩

/-- Moving on the numbers of lines is a revision that carries each line to its new place. -/
theorem carries_shiftLines (n : Nat) (lines : List (Nat × String)) :
    List.Forall₂ (shift n).Carries lines (shiftLines n lines) := by
  induction lines with
  | nil => exact .nil
  | cons line rest ih =>
      refine .cons ⟨rfl, ?_⟩ ih
      cases LineFields.read line.2 with
      | error error => rfl
      | ok read => cases read <;> rfl

/-- **Line numbers decide nothing**: a section that stands further down in its source is the same
section, with its statements further down. -/
theorem assembleSection_shiftLines (n : Nat) (registry : Registry) (lines : List (Nat × String)) :
    (assembleSection registry (shiftLines n lines)).1 =
      (assembleSection registry lines).1.shiftLines n := by
  rw [assembleSection_revise (shift n) registry (carries_shiftLines n lines)]
  rfl

end Program

end SicXe
