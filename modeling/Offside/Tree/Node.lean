import Offside.Tree.Operator
import Offside.Value.Basic

/-!
# Program trees

One type of `Node` holds expressions and statements, each with the line that it comes from.
-/

namespace Offside

inductive Node where
  | literal (value : Value) (line : Nat)
  | identifier (name : String) (line : Nat)
  | unary (op : UnaryOp) (operand : Node) (line : Nat)
  | binary (op : BinaryOp) (left right : Node) (line : Nat)
  | call (callee : String) (arguments : List Node) (line : Nat)
  | assign (target : String) (value : Node) (line : Nat)
  | branch (condition yes no : Node) (line : Nat)
  | loop (condition body : Node) (line : Nat)
  | block (statements : List Node) (line : Nat)
  | function (name : String) (params : List String) (body : Node) (line : Nat)
  | noOp (line : Nat)

namespace Node

def line : Node → Nat
  | .literal _ line | .identifier _ line | .unary _ _ line | .binary _ _ _ line
  | .call _ _ line | .assign _ _ line | .branch _ _ _ line | .loop _ _ line | .block _ line
  | .function _ _ _ line | .noOp line => line

end Node

end Offside
