import Offside.Eval.Integer
import Offside.Text.Blank

/-!
# Conversions

`Value.toInt` and `Value.toFloat` convert a value, reading a number from text. Blanks around the
text do not matter.
-/

namespace Offside

/-- Digits in groups with an underscore between two groups. -/
def Decimal.isGrouped : List Char → Bool
  | [] => false
  | [c] => c.isDigit
  | c :: '_' :: rest => c.isDigit && isGrouped rest
  | c :: rest => c.isDigit && isGrouped rest

/-- The integer that a text spells: an optional sign and grouped digits. -/
def Decimal.int? (text : List Char) : Option Int :=
  let (negative, digits) := splitSign text
  if isGrouped digits then
    let n : Int := natOf 10 (digits.filter (· ≠ '_'))
    some (if negative then -n else n)
  else none

def Integer.truncate (x : Float) : Except Fault Int64 :=
  match Binary64.truncate? x with
  | some n => narrow n
  | none => .error (.invalidArgument (.notFinite x))

/-- The integer that a text spells; one that does not fit is refused like any other text. -/
def Integer.ofText (text : String) : Except Fault Int64 :=
  match (Decimal.int? (Text.trim text.toList)).map narrow with
  | some (.ok n) => .ok n
  | _ => .error (.invalidArgument (.notInteger text))

namespace Value

def toInt (v : Value) : Except Fault Int64 :=
  match v with
  | .float x => Integer.truncate x
  | .str text => Integer.ofText text
  | v => v.int?.elim (.error (.invalidArgument (.notConvertible .int v.kind))) .ok

def toFloat (v : Value) : Except Fault Float :=
  match v with
  | .str text =>
    (Decimal.float? (Text.trim text.toList)).elim
      (.error (.invalidArgument (.notFloat text))) .ok
  | v => v.float?.elim (.error (.invalidArgument (.notConvertible .float v.kind))) .ok

end Value

end Offside
