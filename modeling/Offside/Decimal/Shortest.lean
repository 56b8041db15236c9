import Offside.Decimal.Digits

/-!
# Shortest digits

`shortest` finds the fewest decimal digits that read back as a positive float, and of those the
nearest to it; of two equally near the larger.
-/

namespace Offside.Decimal

open Float.Model

/-- A decimal number: `digits * 10 ^ exponent`. -/
structure Scientific where
  digits : Nat
  exponent : Int
  deriving DecidableEq

def Scientific.toFloat (s : Scientific) : Float := Decimal.toFloat s.digits s.exponent

/-- `m * 2 ^ e` divided by `10 ^ k` as a quotient of natural numbers. -/
def ratio (m : Nat) (e k : Int) : Nat × Nat :=
  (m * Nat.pow 2 e.toNat * Nat.pow 10 (-k).toNat, Nat.pow 2 (-e).toNat * Nat.pow 10 k.toNat)

/-- The power of ten just below or at `m * 2 ^ e`. -/
def leadingExponent (m : Nat) (e : Int) : Int :=
  let guess := (m.log2 + e) * 30103 / 100000
  let (top, bottom) := ratio m e (guess + 1)
  if bottom ≤ top then guess + 1 else guess

/-- The two neighbours of `m * 2 ^ e` on the grid of multiples of `10 ^ k`, the nearer first. -/
def neighbours (m : Nat) (e k : Int) : List Scientific :=
  let (top, bottom) := ratio m e k
  let below : Scientific := ⟨top / bottom, k⟩
  let above : Scientific := ⟨top / bottom + 1, k⟩
  if 2 * (top % bottom) < bottom then [below, above] else [above, below]

/-- All digits of `m * 2 ^ e`. -/
def exactly (m : Nat) (e : Int) : Scientific :=
  if 0 ≤ e then ⟨m * Nat.pow 2 e.toNat, 0⟩ else ⟨m * Nat.pow 5 (-e).toNat, e⟩

/-- Tries grids of rising fineness, `tries` of them, for a neighbour that reads back as `x`. -/
def search (x : Float) (m : Nat) (e k : Int) : Nat → Scientific
  | 0 => exactly m e
  | tries + 1 =>
    match (neighbours m e k).find? (·.toFloat == x) with
    | some found => found
    | none => search x m e (k - 1) tries

/-- The fewest digits that read back as the magnitude of `x`; seventeen always do. Zero if `x` is
zero or not finite. -/
def shortest (x : Float) : Scientific :=
  match x.abs.toModel.unpack with
  | .finite _ m e _ => search x.abs m e (leadingExponent m e) 17
  | _ => ⟨0, 0⟩

end Offside.Decimal
