/-!
# Exact operations on binary floats

A finite float is a signed significand times a power of two. The operations here work on that
integer form: `truncate?` and `remainder` compute the exact result and round it once.
-/

namespace Offside.Binary64

open Float.Model Float.Model.UnpackedFloat

/-- The float with this integer form, rounded to the nearest one and to even on a tie. -/
def ofUnpacked (x : UnpackedFloat) : Float := Float.ofModel (Float.Model.pack x)

def infinity : Float := ofUnpacked (.infinity .positive)

def nan : Float := ofUnpacked .notANumber

/-- Whether the sign is minus. It is not for the one that is no number. -/
def isNegative (x : Float) : Bool :=
  match x.toModel.unpack with
  | .infinity s | .zero s | .finite s _ _ _ => s == .negative
  | .notANumber => false

/-- A zero with the sign of `x`. -/
def zeroLike (x : Float) : Float := if isNegative x then -0.0 else 0.0

/-- The integer part, or nothing if `x` is not finite. -/
def truncate? (x : Float) : Option Int :=
  match x.toModel.unpack with
  | .infinity _ | .notANumber => none
  | .zero _ => some 0
  | .finite s m e _ =>
    some (s.apply (if 0 ≤ e then m * Nat.pow 2 e.toNat else m / Nat.pow 2 (-e).toNat : Nat))

def hasFraction (x : Float) : Bool :=
  match x.toModel.unpack with
  | .finite _ m e _ => e < 0 && m % Nat.pow 2 (-e).toNat != 0
  | _ => false

/-- The significand of `m * 2 ^ e` at the lower exponent `low`. -/
def scaleTo (low : Int) (m : Nat) (e : Int) : Nat := m * Nat.pow 2 (e - low).toNat

/-- What is left of `x` after taking away `y` a whole number of times toward zero. The result is
exact and has the sign of `x`. -/
def remainder (x y : Float) : Float :=
  match x.toModel.unpack, y.toModel.unpack with
  | .finite s m e _, .finite _ n f _ =>
    let low := min e f
    ofUnpacked (match scaleTo low m e % scaleTo low n f with
      | 0 => .zero s
      | r + 1 => round Format.binary64 s (r + 1) low)
  | .zero _, .finite .. | .zero _, .infinity _ | .finite .., .infinity _ => x
  | _, _ => nan

def powerOfTwo (e : Int) : Float := ofUnpacked (round Format.binary64 .positive 1 e)

/-- The square root `h` of `x * x + y * y` where neither square leaves the range and `y` is not the
larger. The rounded root is corrected by its error, `h * h - x * x - y * y` over twice the root. -/
def hypotInRange (x y : Float) : Float :=
  let h := (x * x + y * y).sqrt
  let excess :=
    if h ≤ 2.0 * y then
      let d := h - y
      x * (2.0 * d - x) + (d - 2.0 * (x - y)) * d
    else
      let d := h - x
      2.0 * d * (x - 2.0 * y) + ((4.0 * d - y) * y + d * d)
  h - excess / (2.0 * h)

/-- The square root of `x * x + y * y`. Very large and very small numbers are scaled first, and a
number too small beside the other to matter is added to it. -/
def hypot (x y : Float) : Float :=
  if x.isInf || y.isInf then infinity
  else if x.isNaN || y.isNaN then nan
  else
    let large := if x.abs < y.abs then y.abs else x.abs
    let small := if x.abs < y.abs then x.abs else y.abs
    let scale := powerOfTwo 600
    if small * powerOfTwo 54 ≤ large then large + small
    else if powerOfTwo 511 < large then hypotInRange (large / scale) (small / scale) * scale
    else if small < powerOfTwo (-459) then hypotInRange (large * scale) (small * scale) / scale
    else hypotInRange large small

end Offside.Binary64
