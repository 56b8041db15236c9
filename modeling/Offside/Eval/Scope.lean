import Offside.Eval.Builtin
import Offside.Tree.Node

/-!
# Scopes

An `Arena` holds scopes in numbered slots and fills a released slot before it adds one.
`Arena.lookup` finds the meaning of a name in a scope or in those it lies in.
-/

namespace Offside

structure Function where
  name : String
  params : List String
  body : Node

inductive Symbol where
  | value (v : Value)
  | function (f : Function)
  | builtin (b : Builtin)

abbrev ScopeId := Nat

structure Scope where
  /-- The names defined here, each once. -/
  symbols : List (String × Symbol) := []
  parent : Option ScopeId := none

namespace Scope

def find? (scope : Scope) (name : String) : Option Symbol := scope.symbols.lookup name

def define (scope : Scope) (name : String) (symbol : Symbol) : Scope :=
  { scope with symbols := (name, symbol) :: scope.symbols.filter (·.1 != name) }

end Scope

inductive Resolution where
  | bound (symbol : Symbol)
  | unbound
  /-- The scopes lie in a circle, so that the search for the name has no end. -/
  | cyclic

structure Arena where
  /-- The scope in each slot, or nothing in one that was released. -/
  slots : List (Option Scope) := [some {}]
  /-- The released slots, the last one first. -/
  free : List ScopeId := []

namespace Arena

/-- The scope that every other one lies in. It is never released. -/
def globalId : ScopeId := 0

def scope? (a : Arena) (id : ScopeId) : Option Scope := (a.slots[id]?).join

/-- Makes a scope without names in the slot released last, or else in a new one. -/
def allocate (a : Arena) (parent : Option ScopeId) : Arena × ScopeId :=
  match a.free with
  | id :: free => ({ slots := a.slots.set id (some { parent }), free }, id)
  | [] => ({ a with slots := a.slots ++ [some { parent }] }, a.slots.length)

/-- Empties the slot of a scope. Nothing happens if it is empty, or if it is the global one. -/
def release (a : Arena) (id : ScopeId) : Arena :=
  if id = globalId ∨ (a.scope? id).isNone then a
  else { slots := a.slots.set id none, free := id :: a.free }

def liveCount (a : Arena) : Nat := a.slots.countP Option.isSome

/-- Binds a name in a scope. Nothing happens if there is no such scope. -/
def define (a : Arena) (id : ScopeId) (name : String) (symbol : Symbol) : Arena :=
  match a.scope? id with
  | some scope => { a with slots := a.slots.set id (some (scope.define name symbol)) }
  | none => a

/-- Searches a scope and those it lies in, `count` scopes at most. -/
def search (a : Arena) (name : String) : Nat → Option ScopeId → Resolution
  | _, none => .unbound
  | 0, some _ => .cyclic
  | count + 1, some id =>
    match a.scope? id with
    | none => .unbound
    | some scope =>
      match scope.find? name with
      | some symbol => .bound symbol
      | none => a.search name count scope.parent

/-- The innermost meaning of a name. More scopes than there are slots means a circle. -/
def lookup (a : Arena) (id : ScopeId) (name : String) : Resolution :=
  a.search name (a.slots.length + 1) (some id)

/-- The names defined in a scope itself, in alphabetical order. -/
def symbols (a : Arena) (id : ScopeId) : List (String × Symbol) :=
  match a.scope? id with
  | some scope => scope.symbols.mergeSort fun x y => x.1 ≤ y.1
  | none => []

end Arena

end Offside
