/-!
# Ranges of characters

A set of characters given as a list of inclusive ranges of code points, in ascending order.
-/

namespace WorkflowEngine.Text

def inRanges (ranges : List (Nat × Nat)) (c : Char) : Bool :=
  ranges.any fun range => decide (range.1 ≤ c.toNat) && decide (c.toNat ≤ range.2)

end WorkflowEngine.Text
