import Offside.Eval.Bitwise
import Offside.Eval.Comparison
import Offside.Eval.Power
import Offside.Eval.Sequence

/-!
# Operators on values

`Value.unary` and `Value.binary` apply an operator. The partial rules say by returning nothing that
the operand types do not fit, which becomes one error here.
-/

namespace Offside.Value

/-- The result of a rule, or the error that names the operand types if it has none. -/
def orUnsupported (op : BinaryOp) (a b : Value) (result : Option (Except Fault Value)) :
    Except Fault Value :=
  result.getD (.error (.unsupportedOperands op a.kind b.kind))

/-- The operators `+ - * / // %` on numbers. -/
def arithmetic? (op : BinaryOp) (a b : Value) : Option (Except Fault Value) :=
  (a.promote? b).bind (Numbers.arithmetic? op)

def binary? (op : BinaryOp) (a b : Value) : Option (Except Fault Value) :=
  match op with
  | .add | .sub | .mul | .div | .floorDiv | .mod =>
    if a.isSequence || b.isSequence then sequence? op a b else arithmetic? op a b
  | .pow => power? a b
  | .shiftLeft | .shiftRight | .bitAnd | .bitOr | .bitXor => bitwise? op a b
  | .less | .greater | .lessEqual | .greaterEqual | .equal | .notEqual
  | .contained | .notContained | .identical | .notIdentical =>
    (comparison? op a b).map (Except.map .bool)
  | .and => some (.ok (if a.truthy then b else a))
  | .or => some (.ok (if a.truthy then a else b))

def binary (op : BinaryOp) (a b : Value) : Except Fault Value :=
  orUnsupported op a b (binary? op a b)

def unary? (op : UnaryOp) (v : Value) : Option (Except Fault Value) :=
  match op, v with
  | .not, v => some (.ok (.bool (!v.truthy)))
  | .plus, .float x => some (.ok (.float x))
  | .plus, .complex z => some (.ok (.complex z))
  | .plus, v => v.int?.map fun n => .ok (.int n)
  | .negate, .float x => some (.ok (.float (-x)))
  | .negate, .complex z => some (.ok (.complex (-z)))
  | .negate, v => v.int?.map fun n => .int <$> Integer.neg n
  | .invert, v => v.int?.map fun n => .ok (.int (~~~n))

def unary (op : UnaryOp) (v : Value) : Except Fault Value :=
  (unary? op v).getD (.error (.unsupportedOperand op v.kind))

end Offside.Value
