/-!
# Ranges of characters

* `inRanges` — does a character lie in one of the given ranges of numbers?
-/

namespace DealDesk.Text

/-- The first and the last number of each range; both belong to it. -/
abbrev Ranges := List (Nat × Nat)

def inRanges (ranges : Ranges) (c : Char) : Bool :=
  ranges.any fun (first, last) => first ≤ c.toNat && c.toNat ≤ last

end DealDesk.Text
