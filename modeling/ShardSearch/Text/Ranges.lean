/-!
Sets of characters given by ranges of code points. A list of ranges `(first, last)`, both ends
included, stands for the characters whose code point lies in one of them.
-/

set_option autoImplicit false

namespace ShardSearch.Text.Ranges

def contains (ranges : List (Nat × Nat)) (c : Char) : Bool :=
  ranges.any fun range ↦ range.1 ≤ c.toNat && c.toNat ≤ range.2

end ShardSearch.Text.Ranges
