import Offside.Eval.Run
import Offside.Proofs.Parsing.TreeLines
import Offside.Proofs.Scope.Arena

/-!
# The lines of errors

A function body outlives the statement that defines it, but it stays on the lines of its program:
`Evaluator.Within P` says that of all functions bound in a scope, and `EvalM.Blames P` that a program
of the evaluator keeps it so and fails on lines of `P` only. So an error points into the program that
was run, which `execute_blames` says of parsed programs.
-/

namespace Offside

variable {P : Nat → Prop}

/-- The body of a function is on lines of which `P` holds. -/
def Symbol.Within (P : Nat → Prop) : Symbol → Prop
  | .function f => f.body.OnLines P
  | .value _ | .builtin _ => True

namespace Arena

variable {a : Arena} {id : ScopeId} {name : String} {symbol : Symbol}

/-- All functions bound in a scope are on lines of which `P` holds. -/
def Within (P : Nat → Prop) (a : Arena) : Prop :=
  ∀ id name symbol, a.binding? id name = some symbol → symbol.Within P

theorem bound_of_search {count : Nat} {start : Option ScopeId}
    (found : a.search name count start = .bound symbol) :
    ∃ id, a.binding? id name = some symbol := by
  induction count generalizing start with
  | zero => cases start <;> cases found
  | succ count ih =>
    cases start with
    | none => cases found
    | some id =>
      rw [search] at found
      split at found
      · cases found
      · next scope here =>
        split at found
        · next symbol' bound =>
          cases found
          exact ⟨id, by rw [binding?, here, Option.bind_some, bound]⟩
        · exact ih found

/-- No scope binds more than before where slots are only emptied or filled with new scopes. -/
theorem Within.of_scopes {b : Arena} (within : a.Within P)
    (scopes : ∀ id scope, b.scope? id = some scope → scope.symbols = [] ∨ a.scope? id = some scope) :
    b.Within P := by
  intro id name symbol found
  obtain ⟨scope, here, bound⟩ := Option.bind_eq_some_iff.mp found
  rcases scopes id scope here with none | kept
  · rw [Scope.find?, none] at bound
    cases bound
  · exact within id name symbol (by rw [binding?, kept, Option.bind_some, bound])

theorem of_scope?_set {new : Option Scope} {free : List ScopeId} {other : ScopeId} {scope : Scope}
    (found : scope? { slots := a.slots.set id new, free } other = some scope) :
    new = some scope ∨ a.scope? other = some scope := by
  rcases Nat.lt_or_ge id a.slots.length with lt | ge
  · rw [scope?_set lt] at found
    split at found
    · exact .inl found
    · exact .inr found
  · rw [List.set_eq_of_length_le ge] at found
    exact .inr found

theorem Within.allocate (within : a.Within P) (parent : Option ScopeId) :
    (a.allocate parent).1.Within P := by
  apply within.of_scopes
  intro other scope found
  unfold Arena.allocate at found
  split at found
  · rcases of_scope?_set found with new | kept
    · cases new
      exact .inl rfl
    · exact .inr kept
  · rw [scope?_append] at found
    split at found
    · cases found
      exact .inl rfl
    · exact .inr found

theorem Within.release (within : a.Within P) (id : ScopeId) : (a.release id).Within P := by
  apply within.of_scopes
  intro other scope found
  unfold Arena.release at found
  split at found
  · exact .inr found
  · rcases of_scope?_set found with new | kept
    · cases new
    · exact .inr kept

theorem Within.define (within : a.Within P) (id : ScopeId) (name : String)
    (inside : symbol.Within P) : (a.define id name symbol).Within P := by
  by_cases live : a.Live id
  · intro other word symbol' found
    rw [binding?_define live] at found
    split at found
    · cases found
      exact inside
    · exact within other word symbol' found
  · rw [Arena.define, not_live_iff.mp live]
    exact within

theorem within_empty : Within P {} := by
  intro id name symbol found
  cases id <;> cases found

theorem Within.bindings (within : a.Within P) (id : ScopeId) {bindings : List (String × Symbol)}
    (each : ∀ binding ∈ bindings, binding.2.Within P) :
    (bindings.foldl (fun a (name, symbol) => a.define id name symbol) a).Within P := by
  induction bindings generalizing a with
  | nil => exact within
  | cons binding rest ih =>
    obtain ⟨first, rest⟩ := List.forall_mem_cons.mp each
    exact ih (within.define id binding.1 first) rest

end Arena

/-- All functions are on lines of which `P` holds, and what is printed can be flushed. -/
structure Evaluator.Within (P : Nat → Prop) (s : Evaluator) : Prop where
  functions : s.arena.Within P
  flushes : s.sink.flushFailure = none

/-- An error is on a line of which `P` holds. -/
def Stop.Within (P : Nat → Prop) : Stop → Prop
  | .error e => P e.line
  | .exhausted => True

namespace EvalM

variable {good : α → Prop}

/-- From a state with functions on lines of `P` the program comes to another one, with a result that
is good or with an error on a line of `P`. -/
def Blames (P : Nat → Prop) (m : EvalM α) (good : α → Prop) : Prop :=
  ∀ s : Evaluator, s.Within P → match m s with
    | .ok a t => t.Within P ∧ good a
    | .error e t => t.Within P ∧ Stop.Within P e

namespace Blames

theorem pure {a : α} (h : good a) : Blames P (pure a) good := fun _ within => ⟨within, h⟩

theorem done (a : α) : Blames P (Pure.pure a) fun _ => True := pure trivial

theorem exhausted : Blames P (throw .exhausted : EvalM α) good := fun _ within => ⟨within, trivial⟩

theorem fail {fault : Fault} {line : Nat} (here : P line) :
    Blames P (EvalM.fail fault line : EvalM α) good := fun _ within => ⟨within, here⟩

theorem get : Blames P (get : EvalM Evaluator) (Evaluator.Within P) :=
  fun _ within => ⟨within, within⟩

theorem modify {f : Evaluator → Evaluator} (keeps : ∀ s, s.Within P → (f s).Within P) :
    Blames P (modify f) fun _ => True := fun s within => ⟨keeps s within, trivial⟩

theorem bind {m : EvalM α} {f : α → EvalM β} {good' : β → Prop} (first : Blames P m good)
    (second : ∀ a, good a → Blames P (f a) good') : Blames P (m >>= f) good' := by
  intro s within
  have middle := first s within
  show match EStateM.bind m f s with
    | .ok b t => t.Within P ∧ good' b
    | .error e t => t.Within P ∧ Stop.Within P e
  unfold EStateM.bind
  cases ran : m s with
  | ok a t =>
    rw [ran] at middle
    exact second a middle.2 t middle.1
  | error e t =>
    rw [ran] at middle
    exact middle

theorem map {m : EvalM α} (h : Blames P m good) (f : α → β) : Blames P (f <$> m) fun _ => True := by
  rw [map_eq_pure_bind]
  exact h.bind fun _ _ => done _

theorem discard {m : EvalM α} (h : Blames P m good) : Blames P (discard m) fun _ => True := h.map _

theorem mapM {f : α → EvalM β} {xs : List α}
    (each : ∀ x ∈ xs, Blames P (f x) fun _ => True) : Blames P (xs.mapM f) fun _ => True := by
  induction xs with
  | nil => exact done _
  | cons x xs ih =>
    obtain ⟨first, rest⟩ := List.forall_mem_cons.mp each
    rw [List.mapM_cons]
    exact first.bind fun _ _ => (ih rest).bind fun _ _ => done _

theorem forM {f : α → EvalM PUnit} {xs : List α}
    (each : ∀ x ∈ xs, Blames P (f x) fun _ => True) : Blames P (xs.forM f) fun _ => True := by
  induction xs with
  | nil => exact done _
  | cons x xs ih =>
    obtain ⟨first, rest⟩ := List.forall_mem_cons.mp each
    exact first.bind fun _ _ => ih rest

theorem repeatWhile {condition : EvalM Bool} {body : EvalM Unit}
    (test : Blames P condition fun _ => True) (inside : Blames P body fun _ => True) (steps : Nat) :
    Blames P (repeatWhile condition body steps) fun _ => True := by
  induction steps with
  | zero => exact exhausted
  | succ steps ih =>
    refine test.bind fun holds _ => ?_
    cases holds with
    | true => exact inside.bind fun _ _ => ih
    | false => exact done _

end Blames

/-! ### Moves -/

variable {line : Nat}

theorem blames_onLine (here : P line) (result : Except Fault α) :
    Blames P (onLine line result) fun _ => True := by
  cases result with
  | ok a => exact .done _
  | error fault => exact .fail here

theorem blames_write (here : P line) (text : String) :
    Blames P (write text line) fun _ => True := by
  refine Blames.get.bind fun s _ => ?_
  cases s.sink.writeFailure with
  | some details => exact .fail here
  | none => exact .modify fun _ within => ⟨within.functions, within.flushes⟩

theorem blames_flush (line : Nat) : Blames P (flush line) fun _ => True := by
  refine Blames.get.bind fun s within => ?_
  rw [within.flushes]
  exact .done _

theorem blames_define (name : String) {symbol : Symbol} (inside : symbol.Within P) :
    Blames P (define name symbol) fun _ => True :=
  .modify fun _ within => ⟨within.functions.define _ name inside, within.flushes⟩

theorem blames_lookup (here : P line) (name : String) :
    Blames P (lookup name line) (Symbol.Within P) := by
  refine Blames.get.bind fun s within => ?_
  cases found : s.arena.lookup s.current name with
  | bound symbol =>
    obtain ⟨id, bound⟩ := Arena.bound_of_search found
    exact .pure (within.functions id name symbol bound)
  | unbound => exact .fail here
  | cyclic => exact .exhausted

theorem blames_valueOf (here : P line) (name : String) :
    Blames P (valueOf name line) fun _ => True := by
  refine (blames_lookup here name).bind fun symbol _ => ?_
  cases symbol with
  | value v => exact .done _
  | function f | builtin b => exact .fail here

theorem blames_callee (here : P line) (name : String) :
    Blames P (callee name line) fun found => ∀ f, found = .inl f → f.body.OnLines P := by
  refine (blames_lookup here name).bind fun symbol inside => ?_
  cases symbol with
  | value v => exact .fail here
  | function f =>
    refine .pure fun g same => ?_
    cases same
    exact inside
  | builtin b => exact .pure nofun

theorem blames_callBuiltin (here : P line) (b : Builtin) (args : List Value) :
    Blames P (callBuiltin b args line) fun _ => True := by
  refine (blames_onLine here _).bind fun answer _ => ?_
  cases answer.printed with
  | some text => exact (blames_write here text).bind fun _ _ => .done _
  | none => exact (Blames.done ()).bind fun _ _ => .done _

theorem blames_inNewScope {bindings : List (String × Symbol)} {body : EvalM α}
    (each : ∀ binding ∈ bindings, binding.2.Within P) (inside : Blames P body good) :
    Blames P (inNewScope bindings body) good := by
  intro s within
  have entered := (within.functions.allocate (some Arena.globalId)).bindings
    (s.arena.allocate (some Arena.globalId)).2 each
  have ends := inside { s with arena := _, current := (s.arena.allocate (some Arena.globalId)).2 }
    ⟨entered, within.flushes⟩
  unfold inNewScope
  dsimp only
  split at ends
  · next ran =>
    rw [ran]
    exact ⟨⟨ends.1.functions.release _, ends.1.flushes⟩, ends.2⟩
  · next ran =>
    rw [ran]
    exact ⟨⟨ends.1.functions.release _, ends.1.flushes⟩, ends.2⟩

theorem blames_callFunction {run : Node → EvalM Unit} {f : Function} (here : P line)
    (inside : Blames P (run f.body) fun _ => True) (args : List Value) :
    Blames P (callFunction run f args line) fun _ => True := by
  have bindings : ∀ binding ∈ f.params.zip (args.map Symbol.value), binding.2.Within P := by
    intro binding member
    obtain ⟨value, -, same⟩ := List.mem_map.mp (List.of_mem_zip member).2
    rw [← same]
    trivial
  have call : Blames P (do
      inNewScope (f.params.zip (args.map .value)) (run f.body)
      return Value.none) fun _ => True :=
    (blames_inNewScope bindings inside).bind fun _ _ => .done _
  have refused : Blames P
      (fail (.parameterCount f.name f.params.length args.length) line : EvalM Unit) fun _ => True :=
    .fail here
  unfold callFunction
  split
  · exact refused.bind fun _ _ => call
  · exact call

/-! ### Trees -/

/-- However deep in calls an error arises, it is on a line of the tree or of a function. -/
theorem blames_eval (steps : Nat) {node : Node} (on : node.OnLines P) :
    Blames P (eval steps node) fun _ => True := by
  induction steps generalizing node with
  | zero => exact .exhausted
  | succ steps ih =>
    obtain ⟨here, inside⟩ := Node.onLines_iff.mp on
    have child : ∀ child ∈ node.children, Blames P (eval steps child) fun _ => True :=
      fun child member => ih (inside child member)
    cases node with
    | literal value line => exact .done _
    | identifier name line => exact blames_valueOf here name
    | unary op operand line =>
      exact (child operand (by simp [Node.children])).bind fun v _ => blames_onLine here _
    | binary op left right line =>
      have second := child right (by simp [Node.children])
      refine (child left (by simp [Node.children])).bind fun a _ => ?_
      split
      · split
        · exact second
        · exact .done _
      · split
        · exact .done _
        · exact second
      · exact second.bind fun b _ => blames_onLine here _
    | call name arguments line =>
      refine (blames_callee here name).bind fun found body => ?_
      refine (Blames.mapM child).bind fun args _ => ?_
      cases found with
      | inl f => exact blames_callFunction here (ih (body f rfl)).discard args
      | inr b => exact blames_callBuiltin here b args
    | assign target value line =>
      refine (child value (by simp [Node.children])).bind fun v _ => ?_
      have plain : (Symbol.value v).Within P := trivial
      exact (blames_define target plain).bind fun _ _ => .done _
    | branch condition yes no line =>
      refine (child condition (by simp [Node.children])).bind fun v _ => ?_
      refine Blames.bind (Blames.discard (child _ ?_)) fun _ _ => .done _
      split <;> simp [Node.children]
    | loop condition body line =>
      have test := (child condition (by simp [Node.children])).map Value.truthy
      have again := (child body (by simp [Node.children])).discard
      exact (Blames.repeatWhile test again steps).bind fun _ _ => .done _
    | block statements line =>
      exact (Blames.forM fun node member => (child node member).discard).bind
        fun _ _ => .done _
    | function name params body line =>
      have function : (Symbol.function ⟨name, params, body⟩).Within P :=
        inside body (by simp [Node.children])
      exact (blames_define name function).bind fun _ _ => .done _
    | noOp line => exact .done _

/-- The error that a run ends with. -/
def failure? : EStateM.Result Stop Evaluator α → Option RuntimeError
  | .error (.error e) _ => some e
  | _ => none

theorem of_failure? {result : EStateM.Result Stop Evaluator α} {e : RuntimeError}
    (failed : failure? result = some e) : ∃ s, result = .error (.error e) s := by
  cases result with
  | ok => cases failed
  | error stop s =>
    cases stop with
    | error e =>
      cases failed
      exact ⟨s, rfl⟩
    | exhausted => cases failed

end EvalM

namespace Evaluator

theorem within_start {sink : Sink} (flushes : sink.flushFailure = none) : (start sink).Within P := by
  have all : ∀ (table : List Builtin) (s : Evaluator), s.Within P →
      (table.foldl register s).Within P := by
    intro table
    induction table with
    | nil => exact fun s within => within
    | cons b rest ih =>
      exact fun s within => ih _ ⟨within.functions.define _ b.name trivial, within.flushes⟩
  exact all _ _ ⟨Arena.within_empty, flushes⟩

/-- The line of the block itself is blamed for nothing. -/
theorem execute_blames {statements : List Node} {line steps : Nat}
    (on : ∀ statement ∈ statements, statement.OnLines P) :
    EvalM.Blames P (execute (.block statements line) steps) fun _ => True := by
  have block : EvalM.Blames P (EvalM.eval steps (.block statements line)) fun _ => True := by
    cases steps with
    | zero => exact .exhausted
    | succ steps =>
      have all : EvalM.Blames P (statements.forM fun node => discard (EvalM.eval steps node))
          fun _ => True :=
        .forM fun node member => (EvalM.blames_eval steps (on node member)).discard
      exact all.bind fun _ _ => .done _
  exact block.discard.bind fun _ _ => EvalM.blames_flush line

end Evaluator

/-- The lines of a parsed tree are lines of its source, and an error that comes up when it is run is on
the line of a tree in one of its statements. Where the source is empty, the whole tree is on line one
nevertheless. -/
theorem parse_points_into_source {source : String} {tabSize : UInt64} {node : Node}
    (parsed : parse source tabSize = .ok node) :
    ∃ statements, node = .block statements 1 ∧
      (∀ m ∈ node.subtrees, 1 ≤ m.line ∧ m.line ≤ max (Source.lines source).length 1) ∧
      ∀ sink : Sink, sink.flushFailure = none → ∀ steps e s,
        Evaluator.execute node steps (Evaluator.start sink) = .error (.error e) s →
        (∃ statement ∈ statements, ∃ m ∈ statement.subtrees, m.line = e.line) ∧
          1 ≤ e.line ∧ e.line ≤ (Source.lines source).length := by
  obtain ⟨statements, rfl, on⟩ := parse_onLines parsed
  refine ⟨statements, rfl, ?_, fun sink flushes steps e s failed => ?_⟩
  · refine Node.forall_subtrees.mpr ⟨⟨Nat.le_refl 1, Nat.le_max_right _ _⟩, ?_⟩
    exact fun statement member m inside =>
      ⟨(on statement member m inside).1,
        Nat.le_trans (on statement member m inside).2 (Nat.le_max_left _ _)⟩
  · have own : ∀ statement ∈ statements, statement.OnLines
        fun line => ∃ statement ∈ statements, ∃ m ∈ statement.subtrees, m.line = line :=
      fun statement member m inside => ⟨statement, member, m, inside, rfl⟩
    have blames : EvalM.Blames _ (Evaluator.execute (.block statements 1) steps) _ :=
      Evaluator.execute_blames own
    have blamed := blames _ (Evaluator.within_start flushes)
    rw [failed] at blamed
    obtain ⟨statement, member, m, inside, same⟩ := blamed.2
    exact ⟨⟨statement, member, m, inside, same⟩, same ▸ on statement member m inside⟩

/-- The error comes up in `f`, which is called from `g`, which is called on the last line. -/
theorem parse_points_into_source_calls : ∃ statements s,
    parse "def f():\n  y\ndef g():\n  f()\ng()\n" 8 = .ok (.block statements 1) ∧
      Evaluator.execute (.block statements 1) 20 Evaluator.start =
        .error (.error ⟨.undefinedName "y", 2⟩) s ∧
      ∃ statement ∈ statements, ∃ m ∈ statement.subtrees, m.line = 2 := by
  have failed : (parse "def f():\n  y\ndef g():\n  f()\ng()\n" 8).toOption.bind
      (fun node => EvalM.failure? (Evaluator.execute node 20 Evaluator.start)) =
        some ⟨.undefinedName "y", 2⟩ := by decide +kernel
  cases parsed : parse "def f():\n  y\ndef g():\n  f()\ng()\n" 8 with
  | error e =>
    rw [parsed] at failed
    cases failed
  | ok node =>
    rw [parsed] at failed
    obtain ⟨s, run⟩ := EvalM.of_failure? failed
    obtain ⟨statements, rfl, -, points⟩ := parse_points_into_source parsed
    exact ⟨statements, s, rfl, run, (points {} rfl 20 _ s run).1⟩

end Offside
