import Offside.Proofs.Result
import Offside.Proofs.Scope.Session

/-!
# Calls do not see their caller

A function body sees its own scope and the global one. `EvalM.Follows` relates programs that run
alike from states that agree on these two, whatever else differs, and `callEnds_congr` is what it
comes to: how a call ends and what it prints depends on the global symbols alone.
-/

namespace Offside

namespace Evaluator

/-- Two states that a call cannot tell apart. What they printed so far is told apart from what they
print from now on. -/
structure SameGlobals (pre₁ pre₂ : String) (s₁ s₂ : Evaluator) : Prop where
  left : s₁.arena.Rooted
  right : s₂.arena.Rooted
  globals : ∀ name, s₁.arena.binding? Arena.globalId name = s₂.arena.binding? Arena.globalId name
  writeFailure : s₁.sink.writeFailure = s₂.sink.writeFailure
  printed : ∃ out, s₁.sink.text = pre₁ ++ out ∧ s₂.sink.text = pre₂ ++ out

/-- Two states in a body that it cannot tell apart. -/
structure Alike (pre₁ pre₂ : String) (s₁ s₂ : Evaluator) : Prop
    extends SameGlobals pre₁ pre₂ s₁ s₂ where
  parentLeft : s₁.arena.parent? s₁.current = some Arena.globalId
  parentRight : s₂.arena.parent? s₂.current = some Arena.globalId
  locals : ∀ name, s₁.arena.binding? s₁.current name = s₂.arena.binding? s₂.current name

theorem Alike.of_frames {pre₁ pre₂ : String} {s₁ s₂ t₁ t₂ : Evaluator}
    (alike : Alike pre₁ pre₂ s₁ s₂) (left : Frame false s₁ t₁) (right : Frame false s₂ t₂)
    (same : SameGlobals pre₁ pre₂ t₁ t₂) : Alike pre₁ pre₂ t₁ t₂ where
  toSameGlobals := same
  parentLeft := by rw [left.current, left.parent, alike.parentLeft]
  parentRight := by rw [right.current, right.parent, alike.parentRight]
  locals name := by
    rw [left.current, right.current, left.binding (.inr rfl), right.binding (.inr rfl), alike.locals]

end Evaluator

open Evaluator

namespace EvalM

/-- What a program comes to, without the state. -/
def outcome (m : EvalM α) (s : Evaluator) : Except Stop α :=
  match m s with
  | .ok a _ => .ok a
  | .error e _ => .error e

/-- Two results are the same up to related states; nothing is asked of one cut short. -/
inductive Matches (R : Evaluator → Evaluator → Prop) :
    EStateM.Result Stop Evaluator α → EStateM.Result Stop Evaluator α → Prop where
  | ok {a : α} {t₁ t₂} : R t₁ t₂ → Matches R (.ok a t₁) (.ok a t₂)
  | error {e t₁ t₂} : R t₁ t₂ → Matches R (.error (.error e) t₁) (.error (.error e) t₂)
  | exhausted {t₁ r} : Matches R (.error .exhausted t₁) r

/-- In states that a body cannot tell apart the second program does what the first one does, if that
is given steps enough. -/
def Follows (m₁ m₂ : EvalM α) : Prop :=
  ∀ pre₁ pre₂ s₁ s₂, Alike pre₁ pre₂ s₁ s₂ → Matches (Alike pre₁ pre₂) (m₁ s₁) (m₂ s₂)

theorem Matches.imp {R S : Evaluator → Evaluator → Prop} {m₁ m₂ : EvalM α} {s₁ s₂ : Evaluator}
    (h : Matches R (m₁ s₁) (m₂ s₂))
    (le : R (m₁.after s₁) (m₂.after s₂) → S (m₁.after s₁) (m₂.after s₂)) :
    Matches S (m₁ s₁) (m₂ s₂) := by
  unfold after at le
  generalize m₁ s₁ = r₁ at h le ⊢
  generalize m₂ s₂ = r₂ at h le ⊢
  cases h with
  | ok related => exact .ok (le related)
  | error related => exact .error (le related)
  | exhausted => exact .exhausted

theorem Matches.bind {R S : Evaluator → Evaluator → Prop} {m₁ m₂ : EvalM α} {f₁ f₂ : α → EvalM β}
    {s₁ s₂ : Evaluator} (first : Matches R (m₁ s₁) (m₂ s₂))
    (second : ∀ a t₁ t₂, R t₁ t₂ → Matches S (f₁ a t₁) (f₂ a t₂)) (le : ∀ t₁ t₂, R t₁ t₂ → S t₁ t₂) :
    Matches S ((m₁ >>= f₁) s₁) ((m₂ >>= f₂) s₂) := by
  simp only [Bind.bind, EStateM.bind]
  generalize m₁ s₁ = r₁ at first ⊢
  generalize m₂ s₂ = r₂ at first ⊢
  cases first with
  | ok related => exact second _ _ _ related
  | error related => exact .error (le _ _ related)
  | exhausted => exact .exhausted

namespace Follows

theorem pure (a : α) : Follows (pure a) (pure a) := fun _ _ _ _ alike => .ok alike

theorem exhausted {m : EvalM α} : Follows (throw .exhausted) m := fun _ _ _ _ _ => .exhausted

theorem bind {m₁ m₂ : EvalM α} {f₁ f₂ : α → EvalM β} (first : Follows m₁ m₂)
    (second : ∀ a, Follows (f₁ a) (f₂ a)) : Follows (m₁ >>= f₁) (m₂ >>= f₂) :=
  fun pre₁ pre₂ s₁ s₂ alike => (first pre₁ pre₂ s₁ s₂ alike).bind
    (fun a t₁ t₂ related => second a pre₁ pre₂ t₁ t₂ related) fun _ _ related => related

theorem map (f : α → β) {m₁ m₂ : EvalM α} (h : Follows m₁ m₂) : Follows (f <$> m₁) (f <$> m₂) := by
  rw [map_eq_pure_bind, map_eq_pure_bind]
  exact h.bind fun _ => pure _

theorem discard {m₁ m₂ : EvalM α} (h : Follows m₁ m₂) : Follows (discard m₁) (discard m₂) := h.map _

theorem mapM {f₁ f₂ : α → EvalM β} (each : ∀ x, Follows (f₁ x) (f₂ x)) (xs : List α) :
    Follows (xs.mapM f₁) (xs.mapM f₂) := by
  induction xs with
  | nil => exact pure _
  | cons x xs ih =>
    rw [List.mapM_cons, List.mapM_cons]
    exact (each x).bind fun _ => ih.bind fun _ => pure _

theorem forM {f₁ f₂ : α → EvalM PUnit} (each : ∀ x, Follows (f₁ x) (f₂ x)) (xs : List α) :
    Follows (xs.forM f₁) (xs.forM f₂) := by
  induction xs with
  | nil => exact pure _
  | cons x xs ih => exact (each x).bind fun _ => ih

theorem repeatWhile {condition₁ condition₂ : EvalM Bool} {body₁ body₂ : EvalM Unit}
    (test : Follows condition₁ condition₂) (inside : Follows body₁ body₂) {steps more : Nat}
    (le : steps ≤ more) :
    Follows (repeatWhile condition₁ body₁ steps) (repeatWhile condition₂ body₂ more) := by
  induction steps generalizing more with
  | zero => exact exhausted
  | succ steps ih =>
    obtain ⟨more, rfl⟩ : ∃ n, more = n + 1 := ⟨more - 1, by omega⟩
    refine test.bind fun holds => ?_
    cases holds with
    | true => exact inside.bind fun _ => ih (Nat.le_of_succ_le_succ le)
    | false => exact pure _

end Follows

theorem follows_fail (fault : Fault) (line : Nat) :
    Follows (fail fault line : EvalM α) (fail fault line) := fun _ _ _ _ alike => .error alike

theorem follows_onLine (line : Nat) (result : Except Fault α) :
    Follows (onLine line result) (onLine line result) := by
  cases result with
  | ok a => exact .pure a
  | error fault => exact follows_fail fault line

theorem follows_lookup (name : String) (line : Nat) :
    Follows (lookup name line) (lookup name line) := by
  intro pre₁ pre₂ s₁ s₂ alike
  rw [show lookup name line s₁ = _ from bind_of_ok rfl, show lookup name line s₂ = _ from bind_of_ok rfl]
  simp only [Arena.lookup_inner alike.left alike.parentLeft, Arena.lookup_inner alike.right alike.parentRight,
    alike.locals, alike.globals]
  cases (s₂.arena.binding? s₂.current name).or (s₂.arena.binding? Arena.globalId name) with
  | some symbol => exact .ok alike
  | none => exact .error alike

theorem follows_valueOf (name : String) (line : Nat) :
    Follows (valueOf name line) (valueOf name line) := by
  refine (follows_lookup name line).bind fun symbol => ?_
  cases symbol with
  | value v => exact .pure _
  | function f | builtin b => exact follows_fail _ _

theorem follows_callee (name : String) (line : Nat) :
    Follows (callee name line) (callee name line) := by
  refine (follows_lookup name line).bind fun symbol => ?_
  cases symbol with
  | value v => exact follows_fail _ _
  | function f | builtin b => exact .pure _

theorem follows_define (name : String) (symbol : Symbol) :
    Follows (define name symbol) (define name symbol) := by
  intro pre₁ pre₂ s₁ s₂ alike
  have outerLeft := Ne.symm (alike.left.ne_global alike.parentLeft)
  have outerRight := Ne.symm (alike.right.ne_global alike.parentRight)
  have left := Arena.binding?_define (Arena.live_of_parent? alike.parentLeft) name symbol
  have right := Arena.binding?_define (Arena.live_of_parent? alike.parentRight) name symbol
  refine .ok ⟨⟨alike.left.define _ _ _, alike.right.define _ _ _, fun word => ?_, alike.writeFailure,
    alike.printed⟩, ?_, ?_, fun word => ?_⟩
  · simp only [left, right, outerLeft, outerRight, false_and, if_false, alike.globals]
  · exact (Arena.parent?_define ..).trans alike.parentLeft
  · exact (Arena.parent?_define ..).trans alike.parentRight
  · simp only [left, right, true_and, alike.locals]

theorem follows_write (text : String) (line : Nat) : Follows (write text line) (write text line) := by
  intro pre₁ pre₂ s₁ s₂ alike
  rw [show write text line s₁ = _ from bind_of_ok rfl, show write text line s₂ = _ from bind_of_ok rfl]
  simp only [alike.writeFailure]
  cases s₂.sink.writeFailure with
  | some details => exact .error alike
  | none =>
    obtain ⟨out, first, second⟩ := alike.printed
    refine .ok ⟨⟨alike.left, alike.right, alike.globals, alike.writeFailure, out ++ text, ?_, ?_⟩,
      alike.parentLeft, alike.parentRight, alike.locals⟩
    · simp only [first, String.append_assoc]
    · simp only [second, String.append_assoc]

theorem follows_callBuiltin (b : Builtin) (args : List Value) (line : Nat) :
    Follows (callBuiltin b args line) (callBuiltin b args line) := by
  refine (follows_onLine line _).bind fun answer => ?_
  cases answer.printed with
  | some text => exact (follows_write text line).bind fun _ => .pure _
  | none => exact (Follows.pure ()).bind fun _ => .pure _

/-! ### Calls -/

theorem rooted_entered {a : Arena} (rooted : a.Rooted) (bindings : List (String × Symbol)) :
    (entered a bindings).1.Rooted := by
  refine ⟨wellFormed_entered rooted.wellFormed bindings, ?_⟩
  rw [Arena.parent?, scope?_entered rooted.wellFormed, if_neg]
  · exact rooted.root
  · intro same
    exact entered_fresh rooted.wellFormed bindings (same ▸ rooted.wellFormed.global)

theorem parent_bindings (bindings : List (String × Symbol)) (scope : Scope) :
    (bindings.foldl (fun scope (name, symbol) => scope.define name symbol) scope).parent =
      scope.parent := by
  induction bindings generalizing scope with
  | nil => rfl
  | cons binding rest ih => exact ih _

theorem entered_ne_global {a : Arena} (h : a.WellFormed) (bindings : List (String × Symbol)) :
    (entered a bindings).2 ≠ Arena.globalId := by
  intro same
  exact entered_fresh h bindings (same ▸ h.global)

theorem alike_entered {pre₁ pre₂ : String} {s₁ s₂ : Evaluator} (same : SameGlobals pre₁ pre₂ s₁ s₂)
    (bindings : List (String × Symbol)) :
    Alike pre₁ pre₂
      { s₁ with arena := (entered s₁.arena bindings).1, current := (entered s₁.arena bindings).2 }
      { s₂ with arena := (entered s₂.arena bindings).1, current := (entered s₂.arena bindings).2 } := by
  have left := scope?_entered same.left.wellFormed bindings
  have right := scope?_entered same.right.wellFormed bindings
  have innerLeft := Ne.symm (entered_ne_global same.left.wellFormed bindings)
  have innerRight := Ne.symm (entered_ne_global same.right.wellFormed bindings)
  refine ⟨⟨rooted_entered same.left _, rooted_entered same.right _, fun name => ?_, same.writeFailure,
    same.printed⟩, ?_, ?_, fun name => ?_⟩
  · simp only [Arena.binding?, left, right, innerLeft, innerRight, if_false]
    exact same.globals name
  · simp [Arena.parent?, left, parent_bindings]
  · simp [Arena.parent?, right, parent_bindings]
  · simp [Arena.binding?, left, right]

theorem sameGlobals_release {pre₁ pre₂ : String} {t₁ t₂ : Evaluator} {id₁ id₂ : ScopeId}
    (same : SameGlobals pre₁ pre₂ t₁ t₂) (inner₁ : id₁ ≠ Arena.globalId)
    (inner₂ : id₂ ≠ Arena.globalId) (current₁ current₂ : ScopeId) :
    SameGlobals pre₁ pre₂ { t₁ with arena := t₁.arena.release id₁, current := current₁ }
      { t₂ with arena := t₂.arena.release id₂, current := current₂ } := by
  refine ⟨same.left.release inner₁, same.right.release inner₂, fun name => ?_, same.writeFailure,
    same.printed⟩
  simp only [Arena.binding?, Arena.scope?_release inner₁, Arena.scope?_release inner₂,
    Ne.symm inner₁, Ne.symm inner₂, if_false]
  exact same.globals name

theorem matches_inNewScope {pre₁ pre₂ : String} {s₁ s₂ : Evaluator} {body₁ body₂ : EvalM α}
    (same : SameGlobals pre₁ pre₂ s₁ s₂) (inside : Follows body₁ body₂)
    (bindings : List (String × Symbol)) :
    Matches (SameGlobals pre₁ pre₂) (inNewScope bindings body₁ s₁) (inNewScope bindings body₂ s₂) := by
  have ran := inside _ _ _ _ (alike_entered same bindings)
  have inner₁ := entered_ne_global same.left.wellFormed bindings
  have inner₂ := entered_ne_global same.right.wellFormed bindings
  simp only [entered] at ran inner₁ inner₂
  simp only [inNewScope]
  generalize body₁ _ = r₁ at ran ⊢
  generalize body₂ _ = r₂ at ran ⊢
  cases ran with
  | ok alike => exact .ok (sameGlobals_release alike.toSameGlobals inner₁ inner₂ _ _)
  | error alike => exact .error (sameGlobals_release alike.toSameGlobals inner₁ inner₂ _ _)
  | exhausted => exact .exhausted

theorem matches_callFunction {pre₁ pre₂ : String} {s₁ s₂ : Evaluator} {run₁ run₂ : Node → EvalM Unit}
    (same : SameGlobals pre₁ pre₂ s₁ s₂) (inside : ∀ node, Follows (run₁ node) (run₂ node))
    (f : Function) (args : List Value) (line : Nat) :
    Matches (SameGlobals pre₁ pre₂) (callFunction run₁ f args line s₁)
      (callFunction run₂ f args line s₂) := by
  unfold callFunction
  split
  · exact .error same
  · exact (matches_inNewScope same (inside f.body) _).bind (fun _ _ _ related => .ok related)
      fun _ _ related => related

theorem follows_callFunction {run₁ run₂ : Node → EvalM Unit}
    (inside : ∀ node, Follows (run₁ node) (run₂ node)) (left : ∀ node, Keeps true (run₁ node))
    (right : ∀ node, Keeps true (run₂ node)) (f : Function) (args : List Value) (line : Nat) :
    Follows (callFunction run₁ f args line) (callFunction run₂ f args line) := by
  intro pre₁ pre₂ s₁ s₂ alike
  have within₁ : s₁.WellFormed := ⟨alike.left.wellFormed, Arena.live_of_parent? alike.parentLeft⟩
  have within₂ : s₂.WellFormed := ⟨alike.right.wellFormed, Arena.live_of_parent? alike.parentRight⟩
  exact (matches_callFunction alike.toSameGlobals inside f args line).imp <|
    alike.of_frames (keeps_callFunction left f args line s₁ within₁)
      (keeps_callFunction right f args line s₂ within₂)

theorem follows_eval {steps more : Nat} (le : steps ≤ more) (node : Node) :
    Follows (eval steps node) (eval more node) := by
  induction steps generalizing more node with
  | zero => exact .exhausted
  | succ steps ih =>
    obtain ⟨more, rfl⟩ : ∃ n, more = n + 1 := ⟨more - 1, by omega⟩
    have below : steps ≤ more := Nat.le_of_succ_le_succ le
    have inside : ∀ node, Follows (eval steps node) (eval more node) := ih below
    have run : ∀ node, Follows (discard (eval steps node)) (discard (eval more node)) :=
      fun node => (inside node).discard
    have keeps : ∀ n node, Keeps true (discard (eval n node)) :=
      fun n node => ((keeps_eval n node).mono fun _ => rfl).discard
    cases node with
    | literal value line => exact .pure _
    | identifier name line => exact follows_valueOf _ _
    | unary op operand line => exact (inside operand).bind fun v => follows_onLine _ _
    | binary op left right line =>
      refine (inside left).bind fun a => ?_
      split
      · split
        · exact inside right
        · exact .pure _
      · split
        · exact .pure _
        · exact inside right
      · exact (inside right).bind fun b => follows_onLine _ _
    | call name arguments line =>
      refine (follows_callee _ _).bind fun found => (Follows.mapM inside arguments).bind fun args => ?_
      cases found with
      | inl f => exact follows_callFunction run (keeps _) (keeps _) _ _ _
      | inr b => exact follows_callBuiltin _ _ _
    | assign target value line =>
      exact (inside value).bind fun v => (follows_define _ _).bind fun _ => .pure _
    | branch condition yes no line =>
      exact (inside condition).bind fun v => (run _).bind fun _ => .pure _
    | loop condition body line =>
      exact (Follows.repeatWhile ((inside condition).map _) (run body) below).bind fun _ => .pure _
    | block statements line => exact (Follows.forM run statements).bind fun _ => .pure _
    | function name params body line => exact (follows_define _ _).bind fun _ => .pure _
    | noOp line => exact .pure _

end EvalM

namespace Evaluator

/-- In so many steps the call comes to `result` and prints `out`. -/
def CallEndsIn (steps : Nat) (s : Evaluator) (f : Function) (args : List Value) (line : Nat)
    (result : Except RuntimeError Value) (out : String) : Prop :=
  let call := EvalM.callFunction (fun node => discard (EvalM.eval steps node)) f args line
  call.outcome s = result.mapError .error ∧ (call.after s).sink.text = s.sink.text ++ out

/-- With steps enough, the call comes to `result` and prints `out`. -/
def CallEnds (s : Evaluator) (f : Function) (args : List Value) (line : Nat)
    (result : Except RuntimeError Value) (out : String) : Prop :=
  ∃ steps, CallEndsIn steps s f args line result out

/-- More steps change nothing about a call that has ended, nor does another caller. -/
theorem CallEndsIn.transfer {s₁ s₂ : Evaluator} {f : Function} {args : List Value}
    {line steps more : Nat} {result : Except RuntimeError Value} {out : String}
    (ended : CallEndsIn steps s₁ f args line result out)
    (same : SameGlobals s₁.sink.text s₂.sink.text s₁ s₂) (le : steps ≤ more) :
    CallEndsIn more s₂ f args line result out := by
  have runs := EvalM.matches_callFunction same
    (fun node => (EvalM.follows_eval le node).discard) f args line
  simp only [CallEndsIn, EvalM.outcome, EvalM.after] at ended ⊢
  generalize EvalM.callFunction _ f args line s₁ = r₁ at ended runs
  generalize EvalM.callFunction _ f args line s₂ = r₂ at runs ⊢
  cases runs with
  | ok related | error related =>
    obtain ⟨printed, first, second⟩ := related.printed
    obtain ⟨came, text⟩ := ended
    have : printed = out := (String.append_right_inj _).mp (first.symm.trans text)
    exact ⟨came, this ▸ second⟩
  | exhausted => cases result <;> cases ended.1

theorem CallEndsIn.value {s : Evaluator} {f : Function} {args : List Value} {line steps : Nat}
    {v : Value} {out : String} (ended : CallEndsIn steps s f args line (.ok v) out) : v = .none := by
  obtain ⟨came, _⟩ := ended
  simp only [EvalM.outcome, EvalM.callFunction] at came
  split at came
  · rename_i ran
    split at ran
    · cases ran
    · obtain ⟨_, _, _, last⟩ := bind_ok ran
      obtain ⟨rfl, _⟩ := pure_ok last
      cases came
      rfl
  · cases came

theorem SameGlobals.symm {pre₁ pre₂ : String} {s₁ s₂ : Evaluator}
    (same : SameGlobals pre₁ pre₂ s₁ s₂) : SameGlobals pre₂ pre₁ s₂ s₁ :=
  ⟨same.right, same.left, fun name => (same.globals name).symm, same.writeFailure.symm,
    same.printed.imp fun _ both => both.symm⟩

/-- How a call ends and what it prints depends on the global symbols and the sink alone, so no name
in a body is ever looked up among the locals of a caller. -/
theorem callEnds_congr {s₁ s₂ : Evaluator} (left : s₁.arena.Rooted) (right : s₂.arena.Rooted)
    (globals : ∀ name,
      s₁.arena.binding? Arena.globalId name = s₂.arena.binding? Arena.globalId name)
    (writes : s₁.sink.writeFailure = s₂.sink.writeFailure) (f : Function) (args : List Value)
    (line : Nat) :
    (∀ result out, CallEnds s₁ f args line result out ↔ CallEnds s₂ f args line result out) ∧
    (∀ result₁ out₁ result₂ out₂, CallEnds s₁ f args line result₁ out₁ →
      CallEnds s₂ f args line result₂ out₂ → result₁ = result₂ ∧ out₁ = out₂) ∧
    (∀ result out, CallEnds s₁ f args line result out →
      result = .ok .none ∨ ∃ e, result = .error e) := by
  have same : SameGlobals s₁.sink.text s₂.sink.text s₁ s₂ :=
    ⟨left, right, globals, writes, "", by simp, by simp⟩
  have again : SameGlobals s₂.sink.text s₂.sink.text s₂ s₂ :=
    ⟨right, right, fun _ => rfl, rfl, "", by simp, by simp⟩
  refine ⟨fun result out => ⟨?_, ?_⟩, ?_, ?_⟩
  · exact fun ⟨steps, ended⟩ => ⟨steps, ended.transfer same (Nat.le_refl steps)⟩
  · exact fun ⟨steps, ended⟩ => ⟨steps, ended.transfer same.symm (Nat.le_refl steps)⟩
  · rintro result₁ out₁ result₂ out₂ ⟨steps₁, ended₁⟩ ⟨steps₂, ended₂⟩
    have first := ended₁.transfer same (Nat.le_max_left steps₁ steps₂)
    have second := ended₂.transfer again (Nat.le_max_right steps₁ steps₂)
    refine ⟨?_, (String.append_right_inj _).mp (first.2.symm.trans second.2)⟩
    have came := first.1.symm.trans second.1
    cases result₁ <;> cases result₂ <;> cases came <;> rfl
  · rintro result out ⟨steps, ended⟩
    cases result with
    | error e => exact .inr ⟨e, rfl⟩
    | ok v => exact .inl (by rw [ended.value])

/-- A function whose body asks for a name that only its caller binds. -/
def asksForX : Function := ⟨"g", [], .block [.identifier "x" 3] 2⟩

/-- The state at the top level with the same globals as inside the call. -/
def atTop : Evaluator := { inCall with arena := inCall.arena.release 1, current := Arena.globalId }

theorem rooted_inCall : inCall.arena.Rooted := ⟨wellFormed_inCall.arena, rfl⟩

theorem callEnds_congr_local_of_caller :
    inCall.arena.Rooted ∧ atTop.arena.Rooted ∧
    (inCall.arena.lookup inCall.current "x" = .bound (.value (.int 1)) ∧
      CallEnds inCall asksForX [] 5 (.error ⟨.undefinedName "x", 3⟩) "") ∧
    CallEnds atTop asksForX [] 5 (.error ⟨.undefinedName "x", 3⟩) "" := by
  have inner : (1 : ScopeId) ≠ Arena.globalId := by decide
  have top : atTop.arena.Rooted := rooted_inCall.release inner
  have globals : ∀ name, inCall.arena.binding? Arena.globalId name =
      atTop.arena.binding? Arena.globalId name := fun _ => rfl
  have ended : CallEnds inCall asksForX [] 5 (.error ⟨.undefinedName "x", 3⟩) "" :=
    ⟨9, rfl, by simp; rfl⟩
  exact ⟨rooted_inCall, top, ⟨rfl, ended⟩,
    ((callEnds_congr rooted_inCall top globals rfl asksForX [] 5).1 _ _).mp ended⟩

end Evaluator

end Offside
