import Offside.Tree.Node

/-!
# The lines of a tree

`Node.mapLine` changes the line of every node and nothing else. Two trees are equal up to their
lines when they are equal after `Node.unlined`.
-/

namespace Offside.Node

mutual

def mapLine (f : Nat → Nat) : Node → Node
  | .literal value line => .literal value (f line)
  | .identifier name line => .identifier name (f line)
  | .unary op operand line => .unary op (operand.mapLine f) (f line)
  | .binary op left right line => .binary op (left.mapLine f) (right.mapLine f) (f line)
  | .call callee arguments line => .call callee (mapLines f arguments) (f line)
  | .assign target value line => .assign target (value.mapLine f) (f line)
  | .branch condition yes no line =>
    .branch (condition.mapLine f) (yes.mapLine f) (no.mapLine f) (f line)
  | .loop condition body line => .loop (condition.mapLine f) (body.mapLine f) (f line)
  | .block statements line => .block (mapLines f statements) (f line)
  | .function name params body line => .function name params (body.mapLine f) (f line)
  | .noOp line => .noOp (f line)

def mapLines (f : Nat → Nat) : List Node → List Node
  | [] => []
  | node :: rest => node.mapLine f :: mapLines f rest

end

theorem mapLines_eq_map (f : Nat → Nat) (nodes : List Node) :
    mapLines f nodes = nodes.map (mapLine f) := by
  induction nodes with
  | nil => rfl
  | cons node rest ih => rw [mapLines, ih, List.map_cons]

mutual

theorem mapLine_id (node : Node) : node.mapLine (fun line => line) = node := by
  cases node with
  | literal | identifier | noOp => rfl
  | unary _ operand _ => rw [mapLine, mapLine_id operand]
  | binary _ left right _ => rw [mapLine, mapLine_id left, mapLine_id right]
  | call _ arguments _ => rw [mapLine, mapLines_id arguments]
  | assign _ value _ => rw [mapLine, mapLine_id value]
  | branch condition yes no _ => rw [mapLine, mapLine_id condition, mapLine_id yes, mapLine_id no]
  | loop condition body _ => rw [mapLine, mapLine_id condition, mapLine_id body]
  | block statements _ => rw [mapLine, mapLines_id statements]
  | function _ _ body _ => rw [mapLine, mapLine_id body]

theorem mapLines_id (nodes : List Node) : mapLines (fun line => line) nodes = nodes := by
  cases nodes with
  | nil => rfl
  | cons node rest => rw [mapLines, mapLine_id node, mapLines_id rest]

end

/-- The tree with no lines. -/
def unlined (node : Node) : Node := node.mapLine fun _ => 0

end Offside.Node
