/-!
# Ranges of code points

A character class above ASCII is a table of closed ranges; `inRanges` looks a character up.
-/

namespace Offside.Text

/-- Whether the code point of `c` lies in one of the closed ranges of `table`. -/
def inRanges (table : List (Nat × Nat)) (c : Char) : Bool :=
  table.any fun (low, high) => low ≤ c.toNat && c.toNat ≤ high

end Offside.Text
