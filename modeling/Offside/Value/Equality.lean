import Offside.Value.Numbers

/-!
# Three equalities

`Value.equals` compares numbers across their types, `Value.identical` asks for one type as well,
and `Value.alike` compares representations. On floats all three are numeric, so a value that is
no number differs from itself.
-/

namespace Offside

def Complex.equals (a b : Complex) : Bool := a.re == b.re && a.im == b.im

def Numbers.equal : Numbers → Bool
  | .ints m n => m == n
  | .floats x y => x == y
  | .complexes z w => z.equals w

namespace Value

/-- Numbers are equal by value, everything else by type and content. -/
def equals (a b : Value) : Bool :=
  match a, b with
  | .none, .none => true
  | .str s, .str t => s == t
  | .bytes s, .bytes t => s == t
  | a, b => (a.promote? b).any Numbers.equal

def identical (a b : Value) : Bool := a.kind = b.kind && a.equals b

/-- Equal constructors with equal fields. -/
def alike : Value → Value → Bool
  | .none, .none => true
  | .bool a, .bool b => a == b
  | .int a, .int b => a == b
  | .float a, .float b => a == b
  | .complex a, .complex b => a.equals b
  | .str a, .str b => a == b
  | .bytes a, .bytes b => a == b
  | _, _ => false

end Value

end Offside
