import Offside.Eval.Arity
import Offside.Tree.Operator
import Offside.Value.Text

/-!
# Faults

A `Fault` is what goes wrong when values are combined, and a `RuntimeError` is a fault on a line of
a program.
-/

namespace Offside

/-- Why an operation refuses an argument of a type that it takes, or of a type that it does not. -/
inductive Refusal where
  | negativeShift
  | byteOutOfRange
  | noLength (kind : Value.Kind)
  | noMagnitude (kind : Value.Kind)
  | notIterable (kind : Value.Kind)
  | emptySequence (function : String)
  | notFinite (x : Float)
  | notInteger (text : String)
  | notFloat (text : String)
  | notConvertible (target kind : Value.Kind)
  /-- A function added to the language has reasons of its own. -/
  | other (details : String)
  deriving DecidableEq

def Refusal.text : Refusal → String
  | .negativeShift => "negative shift count"
  | .byteOutOfRange => "byte must be in range(0, 256)"
  | .noLength kind => s!"object of type '{kind.name}' has no len()"
  | .noMagnitude kind => s!"bad operand type for abs(): '{kind.name}'"
  | .notIterable kind => s!"'{kind.name}' object is not iterable"
  | .emptySequence function => s!"{function}() arg is an empty sequence"
  | .notFinite x => s!"cannot convert float {(Value.float x).text} to integer"
  | .notInteger text => s!"invalid literal for int() with base 10: {(Value.str text).repr}"
  | .notFloat text => s!"could not convert string to float: {(Value.str text).repr}"
  | .notConvertible target kind =>
    s!"{target.name}() argument must be a string or a real number, not '{kind.name}'"
  | .other details => details

inductive Fault where
  | undefinedName (name : String)
  | notCallable (name : String) (kind : Value.Kind)
  | functionAsValue (name : String)
  | parameterCount (function : String) (expected found : Nat)
  | argumentCount (builtin : String) (expected : Arity) (found : Nat)
  | unsupportedOperands (op : BinaryOp) (left right : Value.Kind)
  | unsupportedOperand (op : UnaryOp) (operand : Value.Kind)
  | divisionByZero
  | overflow
  | invalidArgument (reason : Refusal)
  | outputFailed (details : String)
  deriving DecidableEq

structure RuntimeError where
  fault : Fault
  line : Nat
  deriving DecidableEq

def Fault.text : Fault → String
  | .undefinedName name => s!"Name '{name}' is not defined."
  | .notCallable name kind => s!"'{kind.name}' object '{name}' is not callable."
  | .functionAsValue name => s!"Function '{name}' cannot be used as a value."
  | .parameterCount function expected found =>
    let plural := if expected = 1 then "" else "s"
    let were := if found = 1 then "was" else "were"
    s!"{function}() takes {expected} positional argument{plural} but {found} {were} given."
  | .argumentCount builtin expected found =>
    s!"{builtin}() expected {expected.text} argument(s), got {found}."
  | .unsupportedOperands op left right =>
    s!"Unsupported operand type(s) for {op.spelling}: '{left.name}' and '{right.name}'."
  | .unsupportedOperand op operand =>
    s!"Bad operand type for unary {op.spelling}: '{operand.name}'."
  | .divisionByZero => "Division by zero."
  | .overflow => "Integer overflow while trying to compute result."
  | .invalidArgument reason => s!"Invalid argument: {reason.text}."
  | .outputFailed details => s!"Failed to write output: {details}."

def RuntimeError.message (e : RuntimeError) : String := s!"Error on line {e.line}: {e.fault.text}"

end Offside
