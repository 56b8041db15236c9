import Offside.Eval.Conversion
import Offside.Eval.Extreme

/-!
# Builtins

A `Builtin` is a function that programs can call and not define. `Builtin.table` lists those that
every program starts with.
-/

namespace Offside

namespace Builtin

structure Answer where
  value : Value
  printed : Option String := none

end Builtin

structure Builtin where
  name : String
  arity : Arity
  /-- The function on the arguments and the line of the call. The number of arguments has been
  checked. -/
  run : List Value → Nat → Except Fault Builtin.Answer

namespace Builtin

/-- Checks the number of arguments, and runs the function. -/
def call (b : Builtin) (args : List Value) (line : Nat) : Except Fault Answer :=
  if b.arity.accepts args.length then b.run args line
  else .error (.argumentCount b.name b.arity args.length)

def length : Value → Except Fault Value
  | .str text => .ok (.int (Int64.ofNat text.length))
  | .bytes data => .ok (.int (Int64.ofNat data.length))
  | v => .error (.invalidArgument (.noLength v.kind))

def magnitude : Value → Except Fault Value
  | .float x => .ok (.float x.abs)
  | .complex z => .ok (.float z.magnitude)
  | v =>
    match v.int? with
    | some n => .int <$> Integer.abs n
    | none => .error (.invalidArgument (.noMagnitude v.kind))

/-- The arguments as text with a space between two, and a line feed. -/
def printedLine (args : List Value) : String := " ".intercalate (args.map Value.text) ++ "\n"

def ofOne (name : String) (f : Value → Except Fault Value) : Builtin where
  name
  arity := .exactly 1
  run args _ := (f (args.headD .none)).map fun value => { value }

/-- A function of one argument, which has the result `default` without one. -/
def ofOptional (name : String) (default : Value) (f : Value → Except Fault Value) : Builtin where
  name
  arity := .oneOf [0, 1]
  run args _ := (args.head?.elim (.ok default) f).map fun value => { value }

/-- A function that picks one of its arguments, or a part of its only one. -/
def ofExtreme (name : String) : Builtin where
  name
  arity := .atLeast 1
  run args _ := (Value.extreme name args).map fun value => { value }

def print : Builtin where
  name := "print"
  arity := .any
  run args _ := .ok { value := .none, printed := some (printedLine args) }

def table : List Builtin := [
  print,
  ofOne "len" length,
  ofOne "abs" magnitude,
  ofOptional "str" (.str "") fun v => .ok (.str v.text),
  ofOne "repr" fun v => .ok (.str v.repr),
  ofOptional "int" (.int 0) fun v => .int <$> v.toInt,
  ofOptional "float" (.float 0.0) fun v => .float <$> v.toFloat,
  ofOptional "bool" (.bool false) fun v => .ok (.bool v.truthy),
  ofOne "type" fun v => .ok (.str s!"<class '{v.kind.name}'>"),
  ofExtreme "min",
  ofExtreme "max"]

def named? (name : String) : Option Builtin := table.find? (·.name == name)

end Builtin

end Offside
