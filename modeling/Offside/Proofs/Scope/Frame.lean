import Offside.Eval.Run
import Offside.Proofs.Scope.Arena

/-!
# What an evaluation leaves alone

`Evaluator.Frame` relates the states before and after an evaluation: the current scope and all live
scopes are the same ones, and only the current one may bind names anew. `eval_frame` shows it for
every tree and every way to end; an expression does not even bind names.
-/

namespace Offside

mutual

/-- Whether a tree is made of values, names, operators and calls only. -/
def Node.isExpression : Node → Bool
  | .literal .. | .identifier .. => true
  | .unary _ operand _ => operand.isExpression
  | .binary _ left right _ => left.isExpression && right.isExpression
  | .call _ arguments _ => Node.areExpressions arguments
  | _ => false

def Node.areExpressions : List Node → Bool
  | [] => true
  | node :: rest => node.isExpression && areExpressions rest

end

theorem Node.areExpressions_iff {nodes : List Node} :
    Node.areExpressions nodes = true ↔ ∀ node ∈ nodes, node.isExpression = true := by
  induction nodes with
  | nil => simp [areExpressions]
  | cons node rest ih => simp [areExpressions, ih]

namespace Evaluator

/-- The arena is well formed, and the current scope is in it. -/
structure WellFormed (s : Evaluator) : Prop where
  arena : s.arena.WellFormed
  current : s.arena.Live s.current

/-- What is the same in two states, where `writes` tells whether the current scope may bind names
anew. -/
structure Frame (writes : Bool) (s t : Evaluator) : Prop where
  wellFormed : t.arena.WellFormed
  current : t.current = s.current
  parents : ∀ id, (t.arena.scope? id).map Scope.parent = (s.arena.scope? id).map Scope.parent
  scopes : ∀ id, id ≠ s.current ∨ writes = false → t.arena.scope? id = s.arena.scope? id

namespace Frame

variable {writes : Bool} {s t u : Evaluator}

theorem of_eq (h : s.WellFormed) (arena : t.arena = s.arena) (current : t.current = s.current) :
    Frame writes s t :=
  ⟨arena ▸ h.arena, current, fun _ => by rw [arena], fun _ _ => by rw [arena]⟩

theorem live (h : Frame writes s t) (id : ScopeId) : t.arena.Live id ↔ s.arena.Live id := by
  have same := congrArg Option.isSome (h.parents id)
  simp only [Option.isSome_map] at same
  rw [Arena.Live, Arena.Live, same]

theorem parent (h : Frame writes s t) (id : ScopeId) : t.arena.parent? id = s.arena.parent? id := by
  have same := congrArg (·.bind fun parent => parent) (h.parents id)
  simp only [Option.bind_map] at same
  exact same

theorem binding (h : Frame writes s t) {id : ScopeId} (kept : id ≠ s.current ∨ writes = false)
    (name : String) : t.arena.binding? id name = s.arena.binding? id name := by
  rw [Arena.binding?, Arena.binding?, h.scopes id kept]

theorem liveScopes (h : Frame writes s t) : t.liveScopes = s.liveScopes :=
  Arena.liveCount_congr h.live

theorem evaluator (h : Frame writes s t) (before : s.WellFormed) : t.WellFormed :=
  ⟨h.wellFormed, by rw [h.current]; exact (h.live _).mpr before.current⟩

theorem trans (first : Frame writes s t) (second : Frame writes t u) : Frame writes s u where
  wellFormed := second.wellFormed
  current := second.current.trans first.current
  parents id := (second.parents id).trans (first.parents id)
  scopes id kept :=
    (second.scopes id (by rwa [first.current])).trans (first.scopes id kept)

theorem rooted (h : Frame writes s t) (before : s.arena.Rooted) : t.arena.Rooted :=
  ⟨h.wellFormed, (h.parent _).trans before.root⟩

theorem mono {more : Bool} (h : Frame writes s t) (le : writes = true → more = true) :
    Frame more s t := by
  refine ⟨h.wellFormed, h.current, h.parents, fun id kept => h.scopes id (kept.imp_right ?_)⟩
  intro none
  cases writes with
  | true => simp [le rfl] at none
  | false => rfl

end Frame

end Evaluator

namespace EvalM

/-- The state that a program ends in, however it ends. -/
def after (m : EvalM α) (s : Evaluator) : Evaluator :=
  match m s with
  | .ok _ t | .error _ t => t

/-- The program keeps the frame of every well-formed state. -/
def Keeps (writes : Bool) (m : EvalM α) : Prop :=
  ∀ s : Evaluator, s.WellFormed → Evaluator.Frame writes s (m.after s)

theorem after_bind (m : EvalM α) (f : α → EvalM β) (s : Evaluator) :
    (m >>= f).after s = match m s with
      | .ok a t => (f a).after t
      | .error _ t => t := by
  simp only [after, bind, EStateM.bind]
  cases m s <;> rfl

namespace Keeps

variable {writes : Bool}

theorem of_after {m : EvalM α} (arena : ∀ s, (m.after s).arena = s.arena)
    (current : ∀ s, (m.after s).current = s.current) : Keeps writes m :=
  fun s h => .of_eq h (arena s) (current s)

theorem pure (a : α) : Keeps writes (pure a) := of_after (fun _ => rfl) fun _ => rfl

theorem throw (e : Stop) : Keeps writes (throw e : EvalM α) := of_after (fun _ => rfl) fun _ => rfl

theorem mono {more : Bool} {m : EvalM α} (h : Keeps writes m) (le : writes = true → more = true) :
    Keeps more m :=
  fun s before => (h s before).mono le

theorem bind {m : EvalM α} {f : α → EvalM β} (first : Keeps writes m)
    (second : ∀ a, Keeps writes (f a)) : Keeps writes (m >>= f) := by
  intro s before
  have middle := first s before
  rw [after_bind]
  unfold after at middle
  cases ran : m s with
  | ok a t =>
    rw [ran] at middle
    exact middle.trans (second a t (middle.evaluator before))
  | error e t =>
    rw [ran] at middle
    exact middle

theorem map (f : α → β) {m : EvalM α} (h : Keeps writes m) : Keeps writes (f <$> m) := by
  rw [map_eq_pure_bind]
  exact h.bind fun _ => pure _

theorem discard {m : EvalM α} (h : Keeps writes m) : Keeps writes (discard m) := h.map _

theorem mapM {f : α → EvalM β} {xs : List α} (each : ∀ x ∈ xs, Keeps writes (f x)) :
    Keeps writes (xs.mapM f) := by
  induction xs with
  | nil => exact pure _
  | cons x xs ih =>
    rw [List.mapM_cons]
    refine (each x List.mem_cons_self).bind fun _ => ?_
    exact (ih fun y member => each y (List.mem_cons_of_mem _ member)).bind fun _ => pure _

theorem forM {f : α → EvalM PUnit} {xs : List α} (each : ∀ x, Keeps writes (f x)) :
    Keeps writes (xs.forM f) := by
  induction xs with
  | nil => exact pure _
  | cons x xs ih => exact (each x).bind fun _ => ih

theorem repeatWhile {condition : EvalM Bool} {body : EvalM Unit} (test : Keeps writes condition)
    (inside : Keeps writes body) (steps : Nat) : Keeps writes (repeatWhile condition body steps) := by
  induction steps with
  | zero => exact throw _
  | succ steps ih =>
    refine test.bind fun holds => ?_
    cases holds with
    | true => exact inside.bind fun _ => ih
    | false => exact pure _

end Keeps

end EvalM

namespace EvalM

variable {writes : Bool}

theorem keeps_fail (fault : Fault) (line : Nat) : Keeps writes (fail fault line : EvalM α) :=
  .throw _

theorem keeps_onLine (line : Nat) (result : Except Fault α) : Keeps writes (onLine line result) := by
  cases result with
  | ok a => exact .pure a
  | error fault => exact keeps_fail fault line

theorem keeps_get : Keeps writes (get : EvalM Evaluator) := .of_after (fun _ => rfl) fun _ => rfl

theorem keeps_write (text : String) (line : Nat) : Keeps writes (write text line) := by
  refine keeps_get.bind fun s => ?_
  cases s.sink.writeFailure with
  | some details => exact keeps_fail _ _
  | none => exact .of_after (fun _ => rfl) fun _ => rfl

theorem keeps_flush (line : Nat) : Keeps writes (flush line) := by
  refine keeps_get.bind fun s => ?_
  cases s.sink.flushFailure with
  | some details => exact keeps_fail _ _
  | none => exact .pure _

theorem keeps_lookup (name : String) (line : Nat) : Keeps writes (lookup name line) := by
  refine keeps_get.bind fun s => ?_
  cases s.arena.lookup s.current name with
  | bound symbol => exact .pure _
  | unbound => exact keeps_fail _ _
  | cyclic => exact .throw _

theorem keeps_valueOf (name : String) (line : Nat) : Keeps writes (valueOf name line) := by
  refine (keeps_lookup name line).bind fun symbol => ?_
  cases symbol with
  | value v => exact .pure _
  | function f | builtin b => exact keeps_fail _ _

theorem keeps_callee (name : String) (line : Nat) : Keeps writes (callee name line) := by
  refine (keeps_lookup name line).bind fun symbol => ?_
  cases symbol with
  | value v => exact keeps_fail _ _
  | function f | builtin b => exact .pure _

theorem keeps_callBuiltin (b : Builtin) (args : List Value) (line : Nat) :
    Keeps writes (callBuiltin b args line) := by
  refine (keeps_onLine line _).bind fun answer => ?_
  cases answer.printed with
  | some text => exact (keeps_write text line).bind fun _ => .pure _
  | none => exact (Keeps.pure ()).bind fun _ => .pure _

theorem keeps_define (name : String) (symbol : Symbol) : Keeps true (define name symbol) := by
  intro s before
  refine ⟨Arena.wellFormed_define before.arena _ _ _, rfl, fun id => ?_, fun id kept => ?_⟩
  · change ((s.arena.define s.current name symbol).scope? id).map Scope.parent = _
    rw [Arena.scope?_define]
    split
    · rename_i same
      rw [same, Option.map_map]
      rfl
    · rfl
  · change (s.arena.define s.current name symbol).scope? id = _
    rw [Arena.scope?_define, if_neg (by simpa using kept)]

/-! ### New scopes -/

/-- The arena in which a function starts that is called with these bindings, and its scope. -/
def entered (a : Arena) (bindings : List (String × Symbol)) : Arena × ScopeId :=
  let (b, id) := a.allocate (some Arena.globalId)
  (bindings.foldl (fun c (name, symbol) => c.define id name symbol) b, id)

theorem wellFormed_bindings {a : Arena} (h : a.WellFormed) (id : ScopeId)
    (bindings : List (String × Symbol)) :
    (bindings.foldl (fun c (name, symbol) => c.define id name symbol) a).WellFormed := by
  induction bindings generalizing a with
  | nil => exact h
  | cons binding rest ih => exact ih (Arena.wellFormed_define h id _ _)

theorem scope?_bindings (a : Arena) (id : ScopeId) (bindings : List (String × Symbol))
    (other : ScopeId) :
    (bindings.foldl (fun c (name, symbol) => c.define id name symbol) a).scope? other =
      if other = id then
        (a.scope? id).map fun scope =>
          bindings.foldl (fun scope (name, symbol) => scope.define name symbol) scope
      else a.scope? other := by
  induction bindings generalizing a with
  | nil =>
    by_cases same : other = id <;> simp [same]
  | cons binding rest ih =>
    rw [List.foldl_cons, ih]
    simp only [Arena.scope?_define]
    by_cases same : other = id
    · simp only [same, if_true, Option.map_map]
      rfl
    · simp [same]

theorem wellFormed_entered {a : Arena} (h : a.WellFormed) (bindings : List (String × Symbol)) :
    (entered a bindings).1.WellFormed :=
  wellFormed_bindings (Arena.wellFormed_allocate h _) _ _

theorem entered_fresh {a : Arena} (h : a.WellFormed) (bindings : List (String × Symbol)) :
    ¬ a.Live (entered a bindings).2 := Arena.allocate_fresh h _

theorem scope?_entered {a : Arena} (h : a.WellFormed) (bindings : List (String × Symbol))
    (other : ScopeId) :
    (entered a bindings).1.scope? other =
      if other = (entered a bindings).2 then
        some (bindings.foldl (fun scope (name, symbol) => scope.define name symbol)
          { parent := some Arena.globalId })
      else a.scope? other := by
  simp only [entered, scope?_bindings, Arena.scope?_allocate h]
  by_cases same : other = (a.allocate (some Arena.globalId)).2 <;> simp [same]

theorem after_inNewScope (bindings : List (String × Symbol)) (body : EvalM α) (s : Evaluator) :
    (inNewScope bindings body).after s =
      let (arena, id) := entered s.arena bindings
      let t := body.after { s with arena, current := id }
      { t with arena := t.arena.release id, current := s.current } := by
  simp only [after, inNewScope, entered]
  generalize body _ = result
  cases result <;> rfl

/-- A body may do what it likes with its own scope, which is gone in the end. -/
theorem keeps_inNewScope {bindings : List (String × Symbol)} {body : EvalM α}
    (inside : Keeps true body) : Keeps false (inNewScope bindings body) := by
  intro s before
  have fresh := entered_fresh before.arena bindings
  have start := scope?_entered before.arena bindings
  have formed := wellFormed_entered before.arena bindings
  rw [after_inNewScope]
  generalize entered s.arena bindings = opened at fresh start formed
  obtain ⟨arena, id⟩ := opened
  simp only at fresh start formed ⊢
  have inner : id ≠ Arena.globalId := by
    rintro rfl
    exact fresh before.arena.global
  have live : arena.Live id := Arena.live_iff.mpr ⟨_, by rw [start, if_pos rfl]⟩
  have frame := inside { s with arena, current := id } ⟨formed, live⟩
  have same : ∀ other, ((body.after { s with arena, current := id }).arena.release id).scope? other =
      s.arena.scope? other := by
    intro other
    rw [Arena.scope?_release inner]
    split
    · rename_i gone
      rw [gone, Arena.not_live_iff.mp fresh]
    · rename_i kept
      rw [frame.scopes other (.inl kept), start, if_neg kept]
  exact ⟨Arena.wellFormed_release frame.wellFormed id, rfl, fun other => by rw [same other],
    fun other _ => same other⟩

theorem keeps_callFunction {run : Node → EvalM Unit} (inside : ∀ node, Keeps true (run node))
    (f : Function) (args : List Value) (line : Nat) : Keeps writes (callFunction run f args line) := by
  unfold callFunction
  have call : Keeps writes (do
      inNewScope (f.params.zip (args.map .value)) (run f.body)
      return Value.none) :=
    ((keeps_inNewScope (inside f.body)).mono (by simp)).bind fun _ => .pure _
  split
  · exact (keeps_fail _ _).bind fun _ => call
  · exact call

/-! ### Trees -/

/-- However an evaluation ends, it keeps the frame, and an expression leaves the current scope as it
was. -/
theorem keeps_eval (steps : Nat) (node : Node) : Keeps (!node.isExpression) (eval steps node) := by
  induction steps generalizing node with
  | zero => exact .throw _
  | succ steps ih =>
    -- A statement may evaluate any tree, an expression only expressions.
    have inside : ∀ node, Keeps true (eval steps node) := fun node => (ih node).mono fun _ => rfl
    have run : ∀ node, Keeps true (discard (eval steps node)) := fun node => (inside node).discard
    cases node with
    | literal value line => exact .pure _
    | identifier name line => exact keeps_valueOf _ _
    | unary op inner line =>
      refine ((ih inner).mono id).bind fun v => keeps_onLine _ _
    | binary op left right line =>
      have first : Keeps (!(Node.binary op left right line).isExpression) (eval steps left) :=
        (ih left).mono (by simp +contextual [Node.isExpression])
      have second : Keeps (!(Node.binary op left right line).isExpression) (eval steps right) :=
        (ih right).mono (by simp +contextual [Node.isExpression])
      refine first.bind fun a => ?_
      split
      · split
        · exact second
        · exact .pure _
      · split
        · exact .pure _
        · exact second
      · exact second.bind fun b => keeps_onLine _ _
    | call name arguments line =>
      refine (keeps_callee _ _).bind fun found => (Keeps.mapM fun argument member => ?_).bind fun args => ?_
      · refine (ih argument).mono fun statement => ?_
        simp only [Node.isExpression, Bool.not_eq_true', ← Bool.not_eq_true, Node.areExpressions_iff]
          at statement ⊢
        exact fun all => statement (all argument member)
      · cases found with
        | inl f => exact keeps_callFunction run _ _ _
        | inr b => exact keeps_callBuiltin _ _ _
    | assign target value line =>
      exact (inside value).bind fun v => (keeps_define _ _).bind fun _ => .pure _
    | branch condition yes no line =>
      exact (inside condition).bind fun v => (run _).bind fun _ => .pure _
    | loop condition body line =>
      exact (Keeps.repeatWhile ((inside condition).map _) (run body) steps).bind fun _ => .pure _
    | block statements line => exact (Keeps.forM fun node => run node).bind fun _ => .pure _
    | function name params body line => exact (keeps_define _ _).bind fun _ => .pure _
    | noOp line => exact .pure _

end EvalM

end Offside
