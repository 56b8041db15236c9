import Offside.Tree.Node

/-!
# The trees in a tree

`Node.subtrees` lists a tree and all trees in it. `Node.forall_subtrees` takes what is said of all of
them apart into the tree itself and what it is made of.
-/

namespace Offside.Node

/-- The trees that a tree is made of, from left to right. -/
def children : Node → List Node
  | .literal .. | .identifier .. | .noOp _ => []
  | .unary _ operand _ => [operand]
  | .binary _ left right _ => [left, right]
  | .call _ arguments _ => arguments
  | .assign _ value _ => [value]
  | .branch condition yes no _ => [condition, yes, no]
  | .loop condition body _ => [condition, body]
  | .block statements _ => statements
  | .function _ _ body _ => [body]

mutual

/-- The tree and all trees in it, each before those that it is made of. -/
def subtrees : Node → List Node
  | .literal value line => [.literal value line]
  | .identifier name line => [.identifier name line]
  | .unary op operand line => .unary op operand line :: operand.subtrees
  | .binary op left right line => .binary op left right line :: (left.subtrees ++ right.subtrees)
  | .call callee arguments line => .call callee arguments line :: allSubtrees arguments
  | .assign target value line => .assign target value line :: value.subtrees
  | .branch condition yes no line =>
    .branch condition yes no line :: (condition.subtrees ++ (yes.subtrees ++ no.subtrees))
  | .loop condition body line => .loop condition body line :: (condition.subtrees ++ body.subtrees)
  | .block statements line => .block statements line :: allSubtrees statements
  | .function name params body line => .function name params body line :: body.subtrees
  | .noOp line => [.noOp line]

def allSubtrees : List Node → List Node
  | [] => []
  | node :: rest => node.subtrees ++ allSubtrees rest

end

variable {nodes nodes' : List Node} {p : Node → Prop}

theorem mem_allSubtrees {m : Node} : m ∈ allSubtrees nodes ↔ ∃ node ∈ nodes, m ∈ node.subtrees := by
  induction nodes with
  | nil => simp [allSubtrees]
  | cons node rest ih => simp [allSubtrees, ih]

theorem forall_allSubtrees :
    (∀ m ∈ allSubtrees nodes, p m) ↔ ∀ node ∈ nodes, ∀ m ∈ node.subtrees, p m := by
  simp only [mem_allSubtrees]
  exact ⟨fun h node member m inside => h m ⟨node, member, inside⟩,
    fun h m ⟨node, member, inside⟩ => h node member m inside⟩

theorem subtrees_eq (node : Node) : node.subtrees = node :: allSubtrees node.children := by
  cases node <;> simp [subtrees, allSubtrees, children]

/-- What holds of all trees in a tree holds of itself and of all trees in what it is made of. -/
theorem forall_subtrees {node : Node} : (∀ m ∈ node.subtrees, p m) ↔
    p node ∧ ∀ child ∈ node.children, ∀ m ∈ child.subtrees, p m := by
  rw [subtrees_eq, List.forall_mem_cons, forall_allSubtrees]

end Offside.Node
