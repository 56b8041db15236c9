import Offside.Value.Basic

/-!
# Two numbers of one type

Operators work on two numbers of the same type. `Value.promote?` takes both operands to the
narrowest type that holds them.
-/

namespace Offside

/-- Two numbers of one type. -/
inductive Numbers where
  | ints (m n : Int64)
  | floats (x y : Float)
  | complexes (z w : Complex)

/-- The operands in the narrowest type that both are numbers of; nothing if one is no number. -/
def Value.promote? (a b : Value) : Option Numbers :=
  match a.int?, b.int? with
  | some m, some n => some (.ints m n)
  | _, _ =>
    match a.float?, b.float? with
    | some x, some y => some (.floats x y)
    | _, _ =>
      match a.complex?, b.complex? with
      | some z, some w => some (.complexes z w)
      | _, _ => Option.none

end Offside
