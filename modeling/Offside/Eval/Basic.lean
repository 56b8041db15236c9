import Offside.Eval.Scope

/-!
# The evaluator's state

An `Evaluator` is the scopes of a running program, the scope it is in, and what it has printed. Its
programs keep their state when they fail, so an evaluator may be used again after an error.
-/

namespace Offside

structure Sink where
  text : String := ""
  /-- The reason why every write fails. -/
  writeFailure : Option String := none
  /-- The reason why every flush fails. -/
  flushFailure : Option String := none

structure Evaluator where
  arena : Arena
  current : ScopeId := Arena.globalId
  sink : Sink := {}

/-- What ends an evaluation early. -/
inductive Stop where
  | error (e : RuntimeError)
  /-- The evaluator was given too few steps. -/
  | exhausted

abbrev EvalM := EStateM Stop Evaluator

namespace Evaluator

def register (s : Evaluator) (b : Builtin) : Evaluator :=
  { s with arena := s.arena.define Arena.globalId b.name (.builtin b) }

/-- A global scope with the builtins of the table. -/
def start (sink : Sink := {}) : Evaluator :=
  Builtin.table.foldl register { arena := {}, sink }

def global? (s : Evaluator) (name : String) : Option Value :=
  match s.arena.lookup Arena.globalId name with
  | .bound (.value v) => some v
  | _ => none

/-- The global variables with their values, in alphabetical order. -/
def globals (s : Evaluator) : List (String × Value) :=
  (s.arena.symbols Arena.globalId).filterMap fun (name, symbol) =>
    match symbol with
    | .value v => some (name, v)
    | _ => none

def liveScopes (s : Evaluator) : Nat := s.arena.liveCount

end Evaluator

namespace EvalM

def fail (fault : Fault) (line : Nat) : EvalM α := throw (.error ⟨fault, line⟩)

def onLine (line : Nat) : Except Fault α → EvalM α
  | .ok a => return a
  | .error fault => fail fault line

def write (text : String) (line : Nat) : EvalM Unit := do
  match (← get).sink.writeFailure with
  | some details => fail (.outputFailed details) line
  | none => modify fun s => { s with sink := { s.sink with text := s.sink.text ++ text } }

def flush (line : Nat) : EvalM Unit := do
  match (← get).sink.flushFailure with
  | some details => fail (.outputFailed details) line
  | none => return ()

def define (name : String) (symbol : Symbol) : EvalM Unit :=
  modify fun s => { s with arena := s.arena.define s.current name symbol }

def lookup (name : String) (line : Nat) : EvalM Symbol := do
  let s ← get
  match s.arena.lookup s.current name with
  | .bound symbol => return symbol
  | .unbound => fail (.undefinedName name) line
  | .cyclic => throw .exhausted

/-- Runs `body` in a new scope inside the global one, which starts with `bindings`. The scope is
released and the current one restored however the body ends. -/
def inNewScope (bindings : List (String × Symbol)) (body : EvalM α) : EvalM α := fun s =>
  let (arena, id) := s.arena.allocate (some Arena.globalId)
  let arena := bindings.foldl (fun arena (name, symbol) => arena.define id name symbol) arena
  let leave (t : Evaluator) : Evaluator :=
    { t with arena := t.arena.release id, current := s.current }
  match body { s with arena, current := id } with
  | .ok a t => .ok a (leave t)
  | .error e t => .error e (leave t)

def repeatWhile (condition : EvalM Bool) (body : EvalM Unit) : Nat → EvalM Unit
  | 0 => throw .exhausted
  | steps + 1 => do
    if ← condition then
      body
      repeatWhile condition body steps

end EvalM

end Offside
