import Offside.Decimal.Layout
import Offside.Text.Quoted
import Offside.Value.Basic

/-!
# The text of a value

`Value.text` is what a program prints; `Value.repr` differs from it in quoting text, so that it can
be told from a name or a number.
-/

namespace Offside

open Decimal

/-- The imaginary part alone if the real part is zero with a plus sign, otherwise both parts in
parentheses. -/
def Complex.text (z : Complex) : String :=
  if z.re == 0.0 && !Binary64.isNegative z.re then Layout.component.write z.im ++ "j"
  else
    let sign := if Binary64.isNegative z.im then "-" else "+"
    "(" ++ Layout.component.write z.re ++ sign ++ Layout.component.write z.im.abs ++ "j)"

namespace Value

def text : Value → String
  | .none => "None"
  | .bool true => "True"
  | .bool false => "False"
  | .int n => toString n.toInt
  | .float x => Layout.printed.write x
  | .complex z => z.text
  | .str text => text
  | .bytes data => String.ofList ('b' :: Text.quoteBytes data)

def repr : Value → String
  | .str text => String.ofList (Text.quoteText text.toList)
  | v => v.text

end Value

end Offside
