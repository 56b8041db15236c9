import Offside.Eval.Basic

/-!
# Running programs

`EvalM.eval` evaluates a tree, and `Evaluator.execute` runs a whole program. Statements have the
value `None`.
-/

namespace Offside

namespace EvalM

def valueOf (name : String) (line : Nat) : EvalM Value := do
  match ← lookup name line with
  | .value v => return v
  | .function _ | .builtin _ => fail (.functionAsValue name) line

/-- The meaning of a name that is called, which has to be a function. -/
def callee (name : String) (line : Nat) : EvalM (Function ⊕ Builtin) := do
  match ← lookup name line with
  | .function f => return .inl f
  | .builtin b => return .inr b
  | .value v => fail (.notCallable name v.kind) line

/-- Calls a builtin, and prints what it asks for. -/
def callBuiltin (b : Builtin) (args : List Value) (line : Nat) : EvalM Value := do
  let answer ← onLine line (b.call args line)
  match answer.printed with
  | some text => write text line
  | none => pure ()
  return answer.value

/-- Calls a function whose body is run by `run`. A body gives no value. -/
def callFunction (run : Node → EvalM Unit) (f : Function) (args : List Value) (line : Nat) :
    EvalM Value := do
  if args.length ≠ f.params.length then
    fail (.parameterCount f.name f.params.length args.length) line
  inNewScope (f.params.zip (args.map .value)) (run f.body)
  return .none

/-- The value of a tree. `and` and `or` evaluate their right side only if the left one leaves the
result open, and a call finds its function before it evaluates the arguments. -/
def eval : Nat → Node → EvalM Value
  | 0, _ => throw .exhausted
  | steps + 1, node =>
    let run (node : Node) : EvalM Unit := discard (eval steps node)
    match node with
    | .literal value _ => return value
    | .identifier name line => valueOf name line
    | .unary op operand line => do
      let v ← eval steps operand
      onLine line (v.unary op)
    | .binary op left right line => do
      let a ← eval steps left
      match op with
      | .and => if a.truthy then eval steps right else return a
      | .or => if a.truthy then return a else eval steps right
      | op => do
        let b ← eval steps right
        onLine line (a.binary op b)
    | .assign target value _ => do
      let v ← eval steps value
      define target (.value v)
      return .none
    | .branch condition yes no _ => do
      let v ← eval steps condition
      run (if v.truthy then yes else no)
      return .none
    | .loop condition body _ => do
      repeatWhile (Value.truthy <$> eval steps condition) (run body) steps
      return .none
    | .block statements _ => do
      statements.forM run
      return .none
    | .function name params body _ => do
      define name (.function { name, params, body })
      return .none
    | .call name arguments line => do
      let found ← callee name line
      let args ← arguments.mapM (eval steps)
      match found with
      | .inl f => callFunction run f args line
      | .inr b => callBuiltin b args line
    | .noOp _ => return .none

end EvalM

namespace Evaluator

/-- More steps than any evaluation that ends is given time for. -/
def manySteps : Nat := 0x4000000000000000

def evaluate (expression : Node) (steps : Nat := manySteps) : EvalM Value :=
  EvalM.eval steps expression

/-- Runs a program, and flushes what it printed. -/
def execute (program : Node) (steps : Nat := manySteps) : EvalM Unit := do
  discard (EvalM.eval steps program)
  EvalM.flush program.line

end Evaluator

end Offside
