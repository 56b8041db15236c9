import Offside.Decimal.Binary64
import Offside.Value.Basic

/-!
# Arithmetic of complex numbers

The four operations by parts, and the polar form: `magnitude` and `angle`.
-/

namespace Offside.Complex

def zero : Complex := ⟨0.0, 0.0⟩

def one : Complex := ⟨1.0, 0.0⟩

def ofReal (x : Float) : Complex := ⟨x, 0.0⟩

instance : Neg Complex where
  neg z := ⟨-z.re, -z.im⟩

instance : Add Complex where
  add z w := ⟨z.re + w.re, z.im + w.im⟩

instance : Sub Complex where
  sub z w := ⟨z.re - w.re, z.im - w.im⟩

instance : Mul Complex where
  mul z w := ⟨z.re * w.re - z.im * w.im, z.re * w.im + z.im * w.re⟩

/-- Both parts are divided by the square of the divisor's magnitude. -/
instance : Div Complex where
  div z w :=
    let square := w.re * w.re + w.im * w.im
    ⟨(z.re * w.re + z.im * w.im) / square, (z.im * w.re - z.re * w.im) / square⟩

def magnitude (z : Complex) : Float := Binary64.hypot z.re z.im

/-- The angle to the positive real axis, in radians. -/
def angle (z : Complex) : Float := Float.atan2 z.im z.re

def isFinite (z : Complex) : Bool := z.re.isFinite && z.im.isFinite

end Offside.Complex
