import Offside.Eval.Fault
import Offside.Value.Equality

/-!
# Comparisons

The operators that answer with a boolean. Equality and identity take all values; `Value.less?` and
`Value.contains?` say which values have an order and which contain which.
-/

namespace Offside

/-- Whether the first number is the smaller one. Complex numbers have no order. -/
def Numbers.less? : Numbers → Option Bool
  | .ints m n => some (m < n)
  | .floats x y => some (x < y)
  | .complexes .. => none

/-- Whether `part` stands somewhere in a list as a run of neighbours. -/
def occursIn [BEq α] (part : List α) : List α → Bool
  | [] => part.isEmpty
  | a :: rest => part.isPrefixOf (a :: rest) || occursIn part rest

namespace Value

/-- Real numbers are ordered by value, text by code points and bytes by value, both from left to
right. -/
def less? (a b : Value) : Option Bool :=
  match a, b with
  | .str s, .str t => some (s < t)
  | .bytes s, .bytes t => some (s < t)
  | a, b => (a.promote? b).bind Numbers.less?

/-- Whether `a` is smaller or equal. It is not if one of the two is no number. -/
def lessEqual? (a b : Value) : Option Bool := (a.less? b).map (· || a.equals b)

/-- Text contains its parts, and bytes contain theirs and single byte values. -/
def contains? (container item : Value) : Option (Except Fault Bool) :=
  match container, item with
  | .str text, .str part => some (.ok (occursIn part.toList text.toList))
  | .bytes data, .bytes part => some (.ok (occursIn part data))
  | .bytes data, item => item.int?.map fun n =>
    if 0 ≤ n ∧ n ≤ 255 then .ok (data.contains (UInt8.ofNat n.toInt.toNat))
    else .error (.invalidArgument .byteOutOfRange)
  | _, _ => Option.none

def comparison? (op : BinaryOp) (a b : Value) : Option (Except Fault Bool) :=
  match op with
  | .equal => some (.ok (a.equals b))
  | .notEqual => some (.ok (!a.equals b))
  | .identical => some (.ok (a.identical b))
  | .notIdentical => some (.ok (!a.identical b))
  | .contained => b.contains? a
  | .notContained => (b.contains? a).map (Except.map (!·))
  | .less => (a.less? b).map .ok
  | .greater => (b.less? a).map .ok
  | .lessEqual => (a.lessEqual? b).map .ok
  | .greaterEqual => (b.lessEqual? a).map .ok
  | _ => Option.none

end Value

end Offside
