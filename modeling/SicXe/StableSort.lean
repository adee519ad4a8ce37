/-!
# SicXe.StableSort

Sorting that keeps elements of one rank in the order they came in.  It is insertion from the
end, structural on the list.
-/

namespace SicXe

/-- Insert an element into a sorted list, in front of those of its own rank. -/
def insertSorted (le : α → α → Bool) (x : α) : List α → List α
  | [] => [x]
  | y :: rest => if le x y then x :: y :: rest else y :: insertSorted le x rest

/-- Sort a list; of two elements of one rank the earlier one stays in front. -/
def stableSort (le : α → α → Bool) (xs : List α) : List α :=
  xs.foldr (insertSorted le) []

end SicXe
