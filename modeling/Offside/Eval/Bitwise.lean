import Offside.Eval.Integer

/-!
# Bits and shifts

The operators `& | ^ << >>` on integers. On two booleans the first three give a boolean.
-/

namespace Offside

/-- The operator on integers. -/
def Integer.bitwise? (op : BinaryOp) (m n : Int64) : Option (Except Fault Value) :=
  match op with
  | .bitAnd => some (.ok (.int (m &&& n)))
  | .bitOr => some (.ok (.int (m ||| n)))
  | .bitXor => some (.ok (.int (m ^^^ n)))
  | .shiftLeft => some (.int <$> shiftLeft m n)
  | .shiftRight => some (.int <$> shiftRight m n)
  | _ => none

def Value.bitwise? (op : BinaryOp) (a b : Value) : Option (Except Fault Value) :=
  match op, a, b with
  | .bitAnd, .bool x, .bool y => some (.ok (.bool (x && y)))
  | .bitOr, .bool x, .bool y => some (.ok (.bool (x || y)))
  | .bitXor, .bool x, .bool y => some (.ok (.bool (x != y)))
  | op, a, b =>
    match a.int?, b.int? with
    | some m, some n => Integer.bitwise? op m n
    | _, _ => Option.none

end Offside
