import Offside.Decimal.Layout
import Offside.Text.Dump
import Offside.Value.Basic

/-!
# Outlines

An `Outline` is data made ready for a listing. `Outline.inline` writes it on one line, and
`Outline.lines` gives every part a line of its own, indented by its depth.
-/

namespace Offside

inductive Outline where
  | leaf (text : String)
  | wrapped (name : String) (item : Outline)
  | record (name : String) (fields : List (String × Outline))
  | list (items : List Outline)

namespace Outline

mutual

def inline : Outline → String
  | .leaf text => text
  | .wrapped name item => name ++ "(" ++ item.inline ++ ")"
  | .record name fields => name ++ " \x7b " ++ ", ".intercalate (inlineFields fields) ++ " \x7d"
  | .list items => "[" ++ ", ".intercalate (inlineItems items) ++ "]"

def inlineFields : List (String × Outline) → List String
  | [] => []
  | (name, item) :: rest => (name ++ ": " ++ item.inline) :: inlineFields rest

def inlineItems : List Outline → List String
  | [] => []
  | item :: rest => item.inline :: inlineItems rest

end

/-- The lines of one part: indented, `label` before the first and a comma after the last. -/
def nested (label : String) : List String → List String
  | [] => []
  | first :: rest => (close ((label ++ first) :: rest)).map ("    " ++ ·)
where
  close : List String → List String
    | [] => []
    | [last] => [last ++ ","]
    | line :: rest => line :: close rest

mutual

def lines : Outline → List String
  | .leaf text => [text]
  | .wrapped name item => (name ++ "(") :: nested "" item.lines ++ [")"]
  | .record name fields => (name ++ " \x7b") :: fieldLines fields ++ ["\x7d"]
  | .list [] => ["[]"]
  | .list (item :: rest) => "[" :: itemLines (item :: rest) ++ ["]"]

def fieldLines : List (String × Outline) → List String
  | [] => []
  | (name, item) :: rest => nested (name ++ ": ") item.lines ++ fieldLines rest

def itemLines : List Outline → List String
  | [] => []
  | item :: rest => nested "" item.lines ++ itemLines rest

end

end Outline

/-- A complex number as the record of its parts. -/
def Complex.outline (z : Complex) : Outline :=
  .record "ComplexNumber" [
    ("real", .leaf (Decimal.Layout.listed.write z.re)),
    ("imaginary", .leaf (Decimal.Layout.listed.write z.im))]

def Value.outline : Value → Outline
  | .none => .leaf "None"
  | .bool b => .wrapped "Bool" (.leaf (if b then "true" else "false"))
  | .int n => .wrapped "Int" (.leaf (toString n.toInt))
  | .float x => .wrapped "Float" (.leaf (Decimal.Layout.listed.write x))
  | .complex z => .wrapped "Complex" z.outline
  | .str text => .wrapped "Str" (.leaf (Text.dump text))
  | .bytes data => .wrapped "Bytes" (.list (data.map fun byte => .leaf (toString byte.toNat)))

end Offside
