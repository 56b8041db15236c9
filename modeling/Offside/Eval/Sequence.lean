import Offside.Eval.Fault

/-!
# Joining and repeating

The operators `+` and `*` on text and bytes: two sequences of one type are joined, and a sequence is
repeated by an integer on either side.
-/

namespace Offside.Value

/-- The number of copies, none for a negative count. All together they may not have more than
`2 ^ 63 - 1` bytes, and of nothing one copy is as good as many. -/
def copies (size : Nat) (count : Int64) : Except Fault Nat :=
  if size = 0 then .ok 1
  else if size * count.toInt.toNat < 0x8000000000000000 then .ok count.toInt.toNat
  else .error .overflow

def repeated? (v : Value) (count : Int64) : Option (Except Fault Value) :=
  match v with
  | .str text => some ((copies text.utf8ByteSize count).map fun n =>
    .str (String.join (List.replicate n text)))
  | .bytes data => some ((copies data.length count).map fun n =>
    .bytes (List.replicate n data).flatten)
  | _ => Option.none

def sequence? (op : BinaryOp) (a b : Value) : Option (Except Fault Value) :=
  match op, a, b with
  | .add, .str s, .str t => some (.ok (.str (s ++ t)))
  | .add, .bytes s, .bytes t => some (.ok (.bytes (s ++ t)))
  | .mul, a, b => (b.int?.bind a.repeated?).or (a.int?.bind b.repeated?)
  | _, _, _ => Option.none

end Offside.Value
