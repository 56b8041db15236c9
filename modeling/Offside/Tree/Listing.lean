import Offside.Tree.Node
import Offside.Tree.Outline

/-!
# Listing of a tree

`Node.outline` shows every field of every node of a tree.
-/

namespace Offside

def UnaryOp.title : UnaryOp → String
  | .plus => "Plus"
  | .negate => "Negate"
  | .invert => "Invert"
  | .not => "Not"

def BinaryOp.title : BinaryOp → String
  | .add => "Add"
  | .sub => "Sub"
  | .mul => "Mul"
  | .div => "Div"
  | .floorDiv => "FloorDiv"
  | .mod => "Mod"
  | .pow => "Pow"
  | .shiftLeft => "LeftShift"
  | .shiftRight => "RightShift"
  | .bitAnd => "BitAnd"
  | .bitOr => "BitOr"
  | .bitXor => "BitXor"
  | .less => "Less"
  | .greater => "Greater"
  | .lessEqual => "LessEqual"
  | .greaterEqual => "GreaterEqual"
  | .equal => "Equal"
  | .notEqual => "NotEqual"
  | .contained => "In"
  | .notContained => "NotIn"
  | .identical => "Is"
  | .notIdentical => "IsNot"
  | .and => "And"
  | .or => "Or"

namespace Node

def lineField (line : Nat) : String × Outline := ("line", .leaf (toString line))

def nameField (field name : String) : String × Outline := (field, .leaf (Text.dump name))

mutual

def outline : Node → Outline
  | .literal value line => .record "Literal" [("value", value.outline), lineField line]
  | .identifier name line => .record "Identifier" [nameField "name" name, lineField line]
  | .unary op operand line =>
    .record "UnaryOp" [("op", .leaf op.title), ("operand", operand.outline), lineField line]
  | .binary op left right line =>
    .record "BinaryOp" [("op", .leaf op.title), ("left", left.outline), ("right", right.outline),
      lineField line]
  | .call callee arguments line =>
    .record "Call" [nameField "callee" callee, ("arguments", .list (outlines arguments)),
      lineField line]
  | .assign target value line =>
    .record "Assign" [nameField "target" target, ("value", value.outline), lineField line]
  | .branch condition yes no line =>
    .record "If" [("condition", condition.outline), ("then_branch", yes.outline),
      ("else_branch", no.outline), lineField line]
  | .loop condition body line =>
    .record "While" [("condition", condition.outline), ("body", body.outline), lineField line]
  | .block statements line =>
    .record "Block" [("statements", .list (outlines statements)), lineField line]
  | .function name params body line =>
    .wrapped "FunctionDef" (.record "FunctionDef" [nameField "name" name,
      ("params", .list (params.map fun param => .leaf (Text.dump param))),
      ("body", body.outline), lineField line])
  | .noOp line => .record "NoOp" [lineField line]

def outlines : List Node → List Outline
  | [] => []
  | node :: rest => node.outline :: outlines rest

end

end Node

end Offside
