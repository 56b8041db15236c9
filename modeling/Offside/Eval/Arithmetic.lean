import Offside.Eval.Integer
import Offside.Value.Complex
import Offside.Value.Equality

/-!
# Arithmetic

The operators `+ - * / // %` on numbers. `Numbers.arithmetic?` is what they do to two numbers of one
type; complex numbers have neither `//` nor `%`.
-/

namespace Offside

/-- The quotient rounded down and the remainder that goes with it, which has the sign of the
divisor. Zeros keep the sign of what they stand for. -/
def Binary64.floorDivMod (a b : Float) : Float × Float :=
  let rest := remainder a b
  let whole := (a - rest) / b
  let (whole, rest) :=
    if rest == 0.0 then (whole, zeroLike b)
    else if decide (b < 0.0) != decide (rest < 0.0) then (whole - 1.0, rest + b)
    else (whole, rest)
  let down := whole.floor
  if whole == 0.0 then (zeroLike (a / b), rest)
  else if 0.5 < whole - down then (down + 1.0, rest)
  else (down, rest)

/-- Division, which zero refuses whatever the signs of its parts. -/
def Complex.divide (z w : Complex) : Except Fault Complex :=
  if w.equals .zero then .error .divisionByZero else .ok (z / w)

def Integer.arithmetic? (op : BinaryOp) (m n : Int64) : Option (Except Fault Value) :=
  match op with
  | .add => some (.int <$> add m n)
  | .sub => some (.int <$> sub m n)
  | .mul => some (.int <$> mul m n)
  | .div =>
    if n = 0 then some (.error .divisionByZero)
    else some (.ok (.float (Float.ofInt m.toInt / Float.ofInt n.toInt)))
  | .floorDiv => some (.int <$> floorDiv m n)
  | .mod => some (.int <$> floorMod m n)
  | _ => none

/-- An operation that a zero divisor refuses. -/
def Binary64.dividing (f : Float → Float → Float) (x y : Float) : Except Fault Value :=
  if y == 0.0 then .error .divisionByZero else .ok (.float (f x y))

def Binary64.arithmetic? (op : BinaryOp) (x y : Float) : Option (Except Fault Value) :=
  match op with
  | .add => some (.ok (.float (x + y)))
  | .sub => some (.ok (.float (x - y)))
  | .mul => some (.ok (.float (x * y)))
  | .div => some (dividing (· / ·) x y)
  | .floorDiv => some (dividing (fun x y => (floorDivMod x y).1) x y)
  | .mod => some (dividing (fun x y => (floorDivMod x y).2) x y)
  | _ => none

def Complex.arithmetic? (op : BinaryOp) (z w : Complex) : Option (Except Fault Value) :=
  match op with
  | .add => some (.ok (.complex (z + w)))
  | .sub => some (.ok (.complex (z - w)))
  | .mul => some (.ok (.complex (z * w)))
  | .div => some (.complex <$> z.divide w)
  | _ => none

def Numbers.arithmetic? (op : BinaryOp) : Numbers → Option (Except Fault Value)
  | .ints m n => Integer.arithmetic? op m n
  | .floats x y => Binary64.arithmetic? op x y
  | .complexes z w => Complex.arithmetic? op z w

end Offside
