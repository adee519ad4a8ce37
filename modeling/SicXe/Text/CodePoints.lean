/-!
# SicXe.Text.CodePoints

Classes of characters given as a list of closed ranges of code points.
-/

namespace SicXe.Text

/-- Whether a code point lies in one of the closed ranges. -/
def inRanges (ranges : List (Nat × Nat)) (code : Nat) : Bool :=
  ranges.any fun range => range.1 ≤ code && code ≤ range.2

end SicXe.Text
