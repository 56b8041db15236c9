import Offside.Eval.Operator

/-!
# Least and greatest

`Value.extreme` picks the least or the greatest of some values, the first of several that none
beats.
-/

namespace Offside.Value

/-- What is compared: the arguments, or the parts of a sequence that is the only one. -/
def candidates : List Value → Except Fault (List Value)
  | [.str text] => .ok (text.toList.map fun c => .str (String.singleton c))
  | [.bytes data] => .ok (data.map fun byte => .int (Int64.ofNat byte.toNat))
  | [single] => .error (.invalidArgument (.notIterable single.kind))
  | values => .ok values

/-- The better of two values, which is the first unless the second beats it. -/
def better (beats : BinaryOp) (best challenger : Value) : Except Fault Value := do
  let verdict ← binary beats challenger best
  return if verdict.truthy then challenger else best

/-- The least value for the function `min`, the greatest for any other. -/
def extreme (function : String) (args : List Value) : Except Fault Value := do
  let beats := if function = "min" then BinaryOp.less else .greater
  match ← candidates args with
  | [] => throw (.invalidArgument (.emptySequence function))
  | first :: rest => rest.foldlM (better beats) first

end Offside.Value
