import Offside.Decimal.Binary64

/-!
# Digits and the numbers they spell

`natOf` reads digits in any base up to sixteen. `toFloat` is the float nearest to a decimal number,
and `float?` reads the text of one.
-/

namespace Offside.Decimal

/-- The value of a digit; letters continue after nine in either case. -/
def digitValue (c : Char) : Nat :=
  if c.isDigit then c.toNat - '0'.toNat
  else if c.isLower then c.toNat - 'a'.toNat + 10
  else c.toNat - 'A'.toNat + 10

def isDigit (radix : Nat) (c : Char) : Bool := c.isAlphanum && digitValue c < radix

/-- The number that digits in base `radix` spell, the highest digit first. -/
def natOf (radix : Nat) (digits : List Char) : Nat :=
  digits.foldl (fun n c => radix * n + digitValue c) 0

/-- The float nearest to `digits * 10 ^ exponent`, ties to even. Beyond the guards the number is
out of range whatever its digits are. -/
def toFloat (digits : Nat) (exponent : Int) : Float :=
  if digits = 0 ∨ exponent + digits.log2 < -400 then 0.0
  else if 400 < exponent then Binary64.infinity
  else Float.ofScientific digits (exponent < 0) exponent.natAbs

def splitSign : List Char → Bool × List Char
  | '-' :: rest => (true, rest)
  | '+' :: rest => (false, rest)
  | rest => (false, rest)

/-- An exponent with its mark; the empty text is the exponent zero. -/
def exponent? : List Char → Option Int
  | [] => some 0
  | mark :: rest =>
    let (negative, digits) := splitSign rest
    if (mark = 'e' || mark = 'E') && !digits.isEmpty && digits.all Char.isDigit then
      some (if negative then -(natOf 10 digits : Int) else natOf 10 digits)
    else none

/-- Digits with an optional point and exponent, at least one digit before the exponent. -/
def unsignedFloat? (text : List Char) : Option Float :=
  let whole := text.takeWhile Char.isDigit
  let (fraction, rest) := match text.dropWhile Char.isDigit with
    | '.' :: rest => (rest.takeWhile Char.isDigit, rest.dropWhile Char.isDigit)
    | rest => ([], rest)
  if whole.isEmpty && fraction.isEmpty then none
  else (exponent? rest).map fun e => toFloat (natOf 10 (whole ++ fraction)) (e - fraction.length)

/-- The number that a text spells: an optional sign before a decimal number, `inf`, `infinity` or
`nan`, the words in any case. -/
def float? (text : List Char) : Option Float :=
  let (negative, rest) := splitSign text
  let magnitude := match rest.map Char.toLower with
    | ['i', 'n', 'f'] | ['i', 'n', 'f', 'i', 'n', 'i', 't', 'y'] => some Binary64.infinity
    | ['n', 'a', 'n'] => some Binary64.nan
    | _ => unsignedFloat? rest
  magnitude.map fun x => if negative then -x else x

end Offside.Decimal
