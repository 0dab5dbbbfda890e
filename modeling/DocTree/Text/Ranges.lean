/-!
# Ranges of characters

A class of characters is given by ranges of code points, in increasing order.
-/

namespace DocTree.Text

/-- Whether a character is in one of the ranges, whose ends are included. -/
def inRanges (ranges : List (Nat × Nat)) (c : Char) : Bool :=
  ranges.any fun (first, last) => first ≤ c.toNat && c.toNat ≤ last

end DocTree.Text
