import Offside.Proofs.Scope.Frame

/-!
# Sessions

A host runs programs, evaluates trees and adds builtins in any order. Between two requests only the
global scope is there, and `eval_keeps_scopes` says what a single evaluation leaves alone.
-/

namespace Offside

namespace Evaluator

/-- One use of an evaluator by its host. -/
inductive Request where
  | execute (program : Node) (steps : Nat)
  | evaluate (node : Node) (steps : Nat)
  | register (b : Builtin)

/-- The state after a request, whether it succeeds or fails. -/
def serve (s : Evaluator) : Request → Evaluator
  | .execute program steps => (execute program steps).after s
  | .evaluate node steps => (evaluate node steps).after s
  | .register b => s.register b

/-- Only the global scope is there, and it is the current one. -/
structure Idle (s : Evaluator) : Prop where
  rooted : s.arena.Rooted
  current : s.current = Arena.globalId
  live : ∀ id, s.arena.Live id ↔ Arena.Live {} id

theorem Idle.wellFormed {s : Evaluator} (idle : s.Idle) : s.WellFormed :=
  ⟨idle.rooted.wellFormed, by rw [idle.current]; exact idle.rooted.wellFormed.global⟩

theorem Idle.of_frame {s t : Evaluator} (idle : s.Idle) (frame : Frame true s t) : t.Idle :=
  ⟨frame.rooted idle.rooted, frame.current.trans idle.current,
    fun id => (frame.live id).trans (idle.live id)⟩

theorem Idle.register {s : Evaluator} (idle : s.Idle) (b : Builtin) : (s.register b).Idle where
  rooted := idle.rooted.define _ _ _
  current := idle.current
  live id := Arena.live_define.trans (idle.live id)

theorem idle_start (sink : Sink) : (start sink).Idle := by
  have empty : Idle { arena := {}, sink } :=
    ⟨Arena.rooted_empty, rfl, fun _ => Iff.rfl⟩
  unfold start
  generalize Builtin.table = builtins
  generalize ({ arena := {}, sink } : Evaluator) = s at empty ⊢
  induction builtins generalizing s with
  | nil => exact empty
  | cons b rest ih => exact ih _ (empty.register b)

theorem Idle.serve {s : Evaluator} (idle : s.Idle) (request : Request) : (s.serve request).Idle := by
  cases request with
  | execute program steps =>
    have run : EvalM.Keeps true (EvalM.eval steps program) :=
      (EvalM.keeps_eval steps program).mono fun _ => rfl
    exact idle.of_frame (run.discard.bind (fun _ => EvalM.keeps_flush _) s idle.wellFormed)
  | evaluate node steps =>
    exact idle.of_frame ((EvalM.keeps_eval steps node).mono (fun _ => rfl) s idle.wellFormed)
  | register b => exact idle.register b

theorem Idle.serveAll {s : Evaluator} (idle : s.Idle) (requests : List Request) :
    (requests.foldl Evaluator.serve s).Idle := by
  induction requests generalizing s with
  | nil => exact idle
  | cons request rest ih => exact ih (idle.serve request)

/-- An evaluation leaves the current scope, the live scopes, their parents and the bindings of all
other scopes alone however it ends, an expression all bindings. So between the requests of a session
there is only the global scope. -/
theorem eval_keeps_scopes :
    (∀ (s : Evaluator) (steps : Nat) (node : Node), s.WellFormed →
      let t := (EvalM.eval steps node).after s
      t.WellFormed ∧ t.current = s.current ∧ (∀ id, t.arena.Live id ↔ s.arena.Live id) ∧
      t.liveScopes = s.liveScopes ∧ (∀ id, t.arena.parent? id = s.arena.parent? id) ∧
      (∀ id ≠ s.current, ∀ name, t.arena.binding? id name = s.arena.binding? id name) ∧
      (node.isExpression = true →
        ∀ id name, t.arena.binding? id name = s.arena.binding? id name)) ∧
    (∀ (sink : Sink) (requests : List Request),
      let t := requests.foldl serve (start sink)
      t.current = Arena.globalId ∧ t.liveScopes = 1) := by
  refine ⟨fun s steps node before => ?_, fun sink requests => ?_⟩
  · have frame := EvalM.keeps_eval steps node s before
    refine ⟨frame.evaluator before, frame.current, frame.live, frame.liveScopes, frame.parent, ?_, ?_⟩
    · exact fun id other name => frame.binding (.inl other) name
    · exact fun pure id name => frame.binding (.inr (by rw [pure]; rfl)) name
  · have idle := (idle_start sink).serveAll requests
    exact ⟨idle.current, Arena.liveCount_congr idle.live⟩

/-- A call of a function of one parameter that binds names of its own and then fails. -/
def failingCall : Node := .call "f" [.literal (.int 7) 4] 4

/-- A state inside a call, with a slot that was used and released. -/
def inCall : Evaluator :=
  let body : Node := .block [.assign "x" (.literal (.int 2) 2) 2, .identifier "y" 3] 1
  let outside := ({} : Arena).define Arena.globalId "f" (.function ⟨"f", ["x"], body⟩)
  let caller := outside.allocate (some Arena.globalId)
  let inner := (caller.1.define caller.2 "x" (.value (.int 1))).allocate (some Arena.globalId)
  { arena := inner.1.release inner.2, current := caller.2 }

theorem wellFormed_inCall : inCall.WellFormed where
  arena := by
    simp only [inCall]
    apply Arena.wellFormed_release
    apply Arena.wellFormed_allocate
    apply Arena.wellFormed_define
    apply Arena.wellFormed_allocate
    exact Arena.wellFormed_define Arena.wellFormed_empty _ _ _
  current := rfl

theorem eval_keeps_scopes_failing_call :
    inCall.WellFormed ∧ failingCall.isExpression = true ∧
      let t := (EvalM.eval 9 failingCall).after inCall
      t.current = 1 ∧ t.liveScopes = 2 ∧
      ∀ name, t.arena.binding? 1 name = inCall.arena.binding? 1 name := by
  have kept := eval_keeps_scopes.1 inCall 9 failingCall wellFormed_inCall
  exact ⟨wellFormed_inCall, rfl, kept.2.1, kept.2.2.2.1, kept.2.2.2.2.2.2 rfl 1⟩

end Evaluator

end Offside
