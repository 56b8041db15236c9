import Offside.Eval.Arithmetic

/-!
# Powers

`Value.power?` chooses the rule by the types of base and exponent: exact for integers, repeated
squaring for a complex number to a small integer, the polar form for other complex powers.
-/

namespace Offside

namespace Complex

/-- A power by the polar form. Zero to the power zero is one. -/
def pow (z w : Complex) : Except Fault Complex :=
  if w.equals .zero then .ok .one
  else if z.equals .zero then
    if w.im != 0.0 || w.re < 0.0 then .error .divisionByZero else .ok .zero
  else
    let length := z.magnitude.pow w.re
    let phase := z.angle * w.re
    let (length, phase) :=
      if w.im != 0.0 then
        (length / (z.angle * w.im).exp, phase + w.im * z.magnitude.log)
      else (length, phase)
    let result : Complex := ⟨length * phase.cos, length * phase.sin⟩
    if result.isFinite then .ok result else .error .overflow

/-- `result * base ^ n` by repeated squaring, an overflow once a product is not finite. -/
def powTimes (base result : Complex) (n : Nat) : Except Fault Complex :=
  if n = 0 then .ok result
  else if n % 2 = 0 then powTimes (base * base) result (n / 2)
  else if (result * base).isFinite then powTimes (base * base) (result * base) (n / 2)
  else .error .overflow
termination_by n
decreasing_by all_goals omega

/-- The largest exponent that repeated squaring is used for. -/
def squaringLimit : Nat := 100

def powInt (z : Complex) (n : Int64) : Except Fault Complex :=
  if n = 0 then .ok .one
  else if z.equals .zero && n < 0 then .error .divisionByZero
  else if squaringLimit < n.toInt.natAbs then z.pow (.ofReal (Float.ofInt n.toInt))
  else do
    let result ← powTimes z .one n.toInt.natAbs
    if n < 0 then divide .one result else return result

end Complex

/-- A power of floats. A negative number to a power with a fraction is complex. -/
def Binary64.pow (x y : Float) : Except Fault Value :=
  if x == 0.0 && y < 0.0 then .error .divisionByZero
  else if x < 0.0 && hasFraction y then .complex <$> (Complex.ofReal x).pow (.ofReal y)
  else if (x.pow y).isInf && x.isFinite && y.isFinite then .error .overflow
  else .ok (.float (x.pow y))

/-- A power of numbers of one type. A negative exponent takes integers to floats. -/
def Numbers.power : Numbers → Except Fault Value
  | .ints m n =>
    if n < 0 then Binary64.pow (Float.ofInt m.toInt) (Float.ofInt n.toInt)
    else .int <$> Integer.pow m n
  | .floats x y => Binary64.pow x y
  | .complexes z w => .complex <$> z.pow w

def Value.power? (base exponent : Value) : Option (Except Fault Value) :=
  match base, exponent.int? with
  | .complex z, some n => some (.complex <$> z.powInt n)
  | _, _ => (base.promote? exponent).map Numbers.power

end Offside
