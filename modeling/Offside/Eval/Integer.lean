import Offside.Eval.Fault

/-!
# Integer arithmetic

Integers are words of 64 bits. `narrow` takes an exact result back to a word, if one holds it, which is
how sums, differences and products are checked. Division, powers and shifts go step by step, and some
of their steps are on words and not checked.
-/

namespace Offside.Integer

/-- The integer with this value, or an overflow if it does not fit. -/
def narrow (n : Int) : Except Fault Int64 :=
  if -0x8000000000000000 ≤ n ∧ n < 0x8000000000000000 then .ok (Int64.ofInt n)
  else .error .overflow

def add (a b : Int64) : Except Fault Int64 := narrow (a.toInt + b.toInt)

def sub (a b : Int64) : Except Fault Int64 := narrow (a.toInt - b.toInt)

def mul (a b : Int64) : Except Fault Int64 := narrow (a.toInt * b.toInt)

def neg (a : Int64) : Except Fault Int64 := narrow (-a.toInt)

def abs (a : Int64) : Except Fault Int64 := narrow a.toInt.natAbs

/-- Whether a division toward zero has to be corrected to round down: something is left, and it lies
on the other side of zero than the divisor. -/
def roundsUp (rest b : Int64) : Bool := rest != 0 && decide (rest < 0) != decide (b < 0)

/-- The quotient rounded down, and what it leaves. -/
def divMod (a b : Int64) : Except Fault (Int64 × Int64) :=
  if b = 0 then .error .divisionByZero
  else do
    let quotient ← narrow (a.toInt.tdiv b.toInt)
    let rest := a % b
    return if roundsUp rest b then (quotient - 1, rest + b) else (quotient, rest)

def floorDiv (a b : Int64) : Except Fault Int64 := Prod.fst <$> divMod a b

/-- What the quotient rounded down leaves. A quotient that does not fit is an overflow here too. -/
def floorMod (a b : Int64) : Except Fault Int64 := Prod.snd <$> divMod a b

/-- `result * base ^ exponent` by repeated squaring. The base is squared only if the square is used. -/
def powTimes (base result : Int64) (exponent : Nat) : Except Fault Int64 :=
  if exponent = 0 then .ok result
  else if exponent = 1 then mul result base
  else do
    let result ← if exponent % 2 = 1 then mul result base else .ok result
    let square ← mul base base
    powTimes square result (exponent / 2)
termination_by exponent
decreasing_by omega

/-- A power with an exponent that is not negative. Squaring takes exponents of 32 bits; of the powers
with a larger one only those of -1, 0 and 1 fit. -/
def pow (base exponent : Int64) : Except Fault Int64 :=
  if exponent < 0x100000000 then powTimes base 1 exponent.toInt.toNat
  else if base = 0 ∨ base = 1 then .ok base
  else if base = -1 then .ok (if exponent % 2 = 0 then 1 else -1)
  else .error .overflow

/-- A shift count, which may not be negative. Counts beyond 32 bits act as the largest of them. -/
def shiftCount (count : Int64) : Except Fault Nat :=
  if count < 0 then .error (.invalidArgument .negativeShift)
  else .ok (min count.toInt.toNat 0xffffffff)

/-- Only zero can be shifted by 63 or more. -/
def shiftLeft (a count : Int64) : Except Fault Int64 := do
  let count ← shiftCount count
  if a = 0 then return 0
  else if 63 ≤ count then throw .overflow
  else narrow (a.toInt * Int.pow 2 count)

/-- A shift by 64 or more leaves the sign alone. -/
def shiftRight (a count : Int64) : Except Fault Int64 := do
  let count ← shiftCount count
  if 64 ≤ count then return if a < 0 then -1 else 0
  else return a >>> Int64.ofNat count

end Offside.Integer
