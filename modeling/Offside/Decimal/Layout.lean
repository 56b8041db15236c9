import Offside.Decimal.Shortest

/-!
# The text of a float

`Layout.write` spells a float with its shortest digits, positionally from `10 ^ (-4)` up to
`10 ^ 16` and with an exponent outside. What is left open is a `Layout`.
-/

namespace Offside.Decimal

/-- How the text of a float looks where programs differ. -/
structure Layout where
  /-- Whole numbers end in `.0`. -/
  pointZero : Bool
  /-- Exponents have a sign and at least two digits. -/
  wideExponent : Bool
  nan : String := "nan"

/-- The text that programs print. -/
def Layout.printed : Layout := { pointZero := true, wideExponent := true }

/-- A part of a complex number. -/
def Layout.component : Layout := { pointZero := false, wideExponent := true }

/-- The text in token and tree listings. -/
def Layout.listed : Layout := { pointZero := true, wideExponent := false, nan := "NaN" }

def zeros (n : Nat) : List Char := List.replicate n '0'

/-- Digits with the point after the first `point` of them, which may lie outside the digits. -/
def positional (layout : Layout) (digits : List Char) (point : Int) : List Char :=
  if point ≤ 0 then '0' :: '.' :: zeros (-point).toNat ++ digits
  else if digits.length ≤ point.toNat then
    digits ++ zeros (point.toNat - digits.length) ++ if layout.pointZero then ['.', '0'] else []
  else digits.take point.toNat ++ '.' :: digits.drop point.toNat

/-- One digit, the others after a point, and the power of ten of the first. -/
def scientific (layout : Layout) (digits : List Char) (exponent : Int) : List Char :=
  let mantissa := match digits with
    | first :: second :: rest => first :: '.' :: second :: rest
    | _ => digits
  let power := Nat.toDigits 10 exponent.natAbs
  let sign := if exponent < 0 then ['-'] else if layout.wideExponent then ['+'] else []
  mantissa ++ 'e' :: sign ++ if layout.wideExponent then power.leftpad 2 '0' else power

def Layout.magnitude (layout : Layout) (x : Float) : List Char :=
  if x == 0.0 then if layout.pointZero then ['0', '.', '0'] else ['0']
  else
    let s := shortest x
    let spelled := Nat.toDigits 10 s.digits
    let digits := (spelled.reverse.dropWhile (· = '0')).reverse
    let exponent := s.exponent + spelled.length - 1
    if -4 ≤ exponent && exponent < 16 then positional layout digits (exponent + 1)
    else scientific layout digits exponent

def Layout.write (layout : Layout) (x : Float) : String :=
  if x.isNaN then layout.nan
  else
    let text := if x.isInf then ['i', 'n', 'f'] else layout.magnitude x.abs
    String.ofList (if Binary64.isNegative x then '-' :: text else text)

end Offside.Decimal
