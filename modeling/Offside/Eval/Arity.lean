/-!
# Arity

How many arguments a builtin takes. `Arity.accepts` decides a call, and `Arity.text` names the
numbers in the error of one that is refused.
-/

namespace Offside

inductive Arity where
  | exactly (count : Nat)
  | oneOf (counts : List Nat)
  | atLeast (count : Nat)
  | any
  deriving DecidableEq

namespace Arity

def accepts (arity : Arity) (count : Nat) : Bool :=
  match arity with
  | .exactly n => count == n
  | .oneOf counts => counts.contains count
  | .atLeast n => n ≤ count
  | .any => true

def text : Arity → String
  | .exactly n => toString n
  | .oneOf counts => " or ".intercalate (counts.map toString)
  | .atLeast n => s!"at least {n}"
  | .any => "any number of"

end Arity

end Offside
