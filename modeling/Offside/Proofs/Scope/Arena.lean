import Offside.Eval.Scope
import Mathlib.Data.List.Nodup
import Mathlib.Data.List.Basic

/-!
# Arenas of scopes

`Arena.WellFormed` holds when the released slots are exactly the empty ones. Each operation is
described by what `scope?` finds after it.
-/

namespace Offside.Arena

/-- There is a scope in the slot. -/
def Live (a : Arena) (id : ScopeId) : Prop := (a.scope? id).isSome

/-- What a scope itself binds a name to. -/
def binding? (a : Arena) (id : ScopeId) (name : String) : Option Symbol :=
  (a.scope? id).bind (·.find? name)

/-- The scope that another one lies in. -/
def parent? (a : Arena) (id : ScopeId) : Option ScopeId := (a.scope? id).bind (·.parent)

/-- The global scope is there, and the free slots are the empty ones, each listed once. -/
structure WellFormed (a : Arena) : Prop where
  global : a.Live globalId
  nodup : a.free.Nodup
  free : ∀ id, id ∈ a.free ↔ id < a.slots.length ∧ ¬ a.Live id

theorem scope?_eq_some {a : Arena} {id : ScopeId} {scope : Scope} :
    a.scope? id = some scope ↔ a.slots[id]? = some (some scope) := by
  simp [scope?, Option.join_eq_some_iff]

theorem live_iff {a : Arena} {id : ScopeId} : a.Live id ↔ ∃ scope, a.scope? id = some scope :=
  Option.isSome_iff_exists

theorem not_live_iff {a : Arena} {id : ScopeId} : ¬ a.Live id ↔ a.scope? id = none := by
  simp [Live]

theorem Live.lt_length {a : Arena} {id : ScopeId} (live : a.Live id) : id < a.slots.length := by
  obtain ⟨scope, found⟩ := live_iff.mp live
  exact (List.getElem?_eq_some_iff.mp (scope?_eq_some.mp found)).1

theorem wellFormed_empty : WellFormed {} where
  global := rfl
  nodup := List.nodup_nil
  free id := by
    simp only [List.not_mem_nil, List.length_singleton, Nat.lt_one_iff, false_iff, not_and, not_not]
    rintro rfl
    rfl

theorem scope?_set {a : Arena} {id : ScopeId} (bound : id < a.slots.length) (new : Option Scope)
    (free : List ScopeId) (other : ScopeId) :
    scope? { slots := a.slots.set id new, free } other = if other = id then new else a.scope? other := by
  simp only [scope?, List.getElem?_set, bound, if_true]
  by_cases same : id = other
  · simp [same]
  · rw [if_neg same, if_neg (Ne.symm same)]

theorem scope?_append {a : Arena} (new : Scope) (other : ScopeId) :
    scope? { a with slots := a.slots ++ [some new] } other =
      if other = a.slots.length then some new else a.scope? other := by
  simp only [scope?]
  rcases Nat.lt_trichotomy other a.slots.length with inside | same | outside
  · rw [if_neg (Nat.ne_of_lt inside), List.getElem?_append_left inside]
  · simp [same]
  · rw [if_neg (Nat.ne_of_gt outside), List.getElem?_eq_none (Nat.le_of_lt outside),
      List.getElem?_eq_none (by simpa using Nat.succ_le_of_lt outside)]

/-! ### Allocation -/

theorem allocate_fresh {a : Arena} (h : a.WellFormed) (parent : Option ScopeId) :
    ¬ a.Live (a.allocate parent).2 := by
  unfold allocate
  split
  · rename_i id free listed
    exact ((h.free id).mp (by simp [listed])).2
  · exact fun live => absurd live.lt_length (Nat.lt_irrefl _)

theorem scope?_allocate {a : Arena} (h : a.WellFormed) (parent : Option ScopeId) (other : ScopeId) :
    (a.allocate parent).1.scope? other =
      if other = (a.allocate parent).2 then some { parent } else a.scope? other := by
  unfold allocate
  split
  · rename_i id free listed
    exact scope?_set ((h.free id).mp (by simp [listed])).1 _ _ _
  · exact scope?_append _ _

theorem wellFormed_allocate {a : Arena} (h : a.WellFormed) (parent : Option ScopeId) :
    (a.allocate parent).1.WellFormed where
  global := by
    have kept := scope?_allocate h parent globalId
    rw [Live, kept]
    split
    · rfl
    · exact h.global
  nodup := by
    unfold allocate
    split
    · rename_i id free listed
      exact (List.nodup_cons.mp (listed ▸ h.nodup)).2
    · exact h.nodup
  free other := by
    have kept := scope?_allocate h parent other
    rw [Live, kept]
    have before := h.free other
    unfold allocate
    split
    · rename_i id free listed
      have once := (List.nodup_cons.mp (listed ▸ h.nodup)).1
      simp only [listed, List.mem_cons] at before
      by_cases same : other = id
      · simp [same, once]
      · simpa [same, Live] using before
    · rename_i listed
      simp only [listed, List.not_mem_nil, false_iff, not_and, not_not] at before
      simp only [listed, List.not_mem_nil, List.length_append, List.length_singleton, false_iff,
        not_and, not_not]
      intro inside
      split
      · rfl
      · rename_i last
        exact before (Nat.lt_of_le_of_ne (Nat.le_of_lt_succ inside) last)

/-! ### Definition -/

theorem scope?_define (a : Arena) (id : ScopeId) (name : String) (symbol : Symbol) (other : ScopeId) :
    (a.define id name symbol).scope? other =
      if other = id then (a.scope? id).map (·.define name symbol) else a.scope? other := by
  unfold define
  split
  · rename_i scope found
    rw [scope?_set (live_iff.mpr ⟨scope, found⟩).lt_length]
    simp [found]
  · rename_i found
    split
    · rename_i same
      simp [same, found]
    · rfl

theorem live_define {a : Arena} {id other : ScopeId} {name : String} {symbol : Symbol} :
    (a.define id name symbol).Live other ↔ a.Live other := by
  rw [Live, scope?_define]
  split
  · rename_i same
    simp [Live, same]
  · rfl

theorem wellFormed_define {a : Arena} (h : a.WellFormed) (id : ScopeId) (name : String)
    (symbol : Symbol) : (a.define id name symbol).WellFormed where
  global := live_define.mpr h.global
  nodup := by
    unfold define
    split <;> exact h.nodup
  free other := by
    rw [live_define]
    unfold define
    split
    · simpa using h.free other
    · exact h.free other

theorem find?_define (scope : Scope) (name : String) (symbol : Symbol) (other : String) :
    (scope.define name symbol).find? other = if other = name then some symbol else scope.find? other := by
  simp only [Scope.find?, Scope.define, List.lookup_cons]
  by_cases same : other = name
  · simp [same]
  · simp only [beq_false_of_ne same, if_neg same]
    induction scope.symbols with
    | nil => rfl
    | cons entry rest ih =>
      obtain ⟨key, value⟩ := entry
      by_cases dropped : key = name
      · simp [dropped, ih, List.lookup_cons, beq_false_of_ne same]
      · simp [dropped, ih, List.lookup_cons]

theorem binding?_define {a : Arena} {id : ScopeId} (live : a.Live id) (name : String)
    (symbol : Symbol) (other : ScopeId) (word : String) :
    (a.define id name symbol).binding? other word =
      if other = id ∧ word = name then some symbol else a.binding? other word := by
  obtain ⟨scope, found⟩ := live_iff.mp live
  simp only [binding?, scope?_define]
  by_cases same : other = id
  · simp only [same, if_true, true_and, found, Option.map_some, Option.bind_some, find?_define]
  · simp [same]

/-- A name is found in the scope that it was defined in last. -/
theorem lookup_define {a : Arena} {id : ScopeId} (live : a.Live id) (name : String) (symbol : Symbol) :
    (a.define id name symbol).lookup id name = .bound symbol := by
  obtain ⟨scope, found⟩ := live_iff.mp live
  simp only [lookup, search, scope?_define, if_true, found, Option.map_some, find?_define]

/-! ### Release -/

theorem scope?_release {a : Arena} {id : ScopeId} (inner : id ≠ globalId) (other : ScopeId) :
    (a.release id).scope? other = if other = id then none else a.scope? other := by
  unfold release
  split
  · rename_i skipped
    have dead : a.scope? id = none := by simpa [inner] using skipped
    split
    · rename_i same
      rw [same, dead]
    · rfl
  · rename_i taken
    have live : a.Live id := by
      have := (not_or.mp taken).2
      rwa [Option.isNone_iff_eq_none, ← not_live_iff, not_not] at this
    exact scope?_set live.lt_length _ _ _

theorem wellFormed_release {a : Arena} (h : a.WellFormed) (id : ScopeId) :
    (a.release id).WellFormed := by
  by_cases skipped : id = globalId ∨ (a.scope? id).isNone
  · unfold release
    rwa [if_pos skipped]
  · obtain ⟨inner, found⟩ := not_or.mp skipped
    have live : a.Live id := by
      rwa [Option.isNone_iff_eq_none, ← not_live_iff, not_not] at found
    have kept := scope?_release (a := a) inner
    refine ⟨?_, ?_, fun other => ?_⟩
    · rw [Live, kept, if_neg (Ne.symm inner)]
      exact h.global
    · unfold release
      rw [if_neg skipped]
      exact List.nodup_cons.mpr ⟨fun listed => ((h.free id).mp listed).2 live, h.nodup⟩
    · rw [Live, kept]
      unfold release
      rw [if_neg skipped]
      have before := h.free other
      have inside := live.lt_length
      simp only [List.mem_cons, List.length_set, before, Live]
      by_cases same : other = id
      · simp [same, inside]
      · simp [same]

/-! ### The global scope as the root -/

/-- The arena is well formed and the global scope lies in no other. -/
structure Rooted (a : Arena) : Prop where
  wellFormed : a.WellFormed
  root : a.parent? globalId = none

theorem rooted_empty : Rooted {} := ⟨wellFormed_empty, rfl⟩

theorem live_of_parent? {a : Arena} {id outer : ScopeId} (h : a.parent? id = some outer) :
    a.Live id := by
  obtain ⟨scope, found, _⟩ := Option.bind_eq_some_iff.mp h
  exact live_iff.mpr ⟨scope, found⟩

theorem Rooted.ne_global {a : Arena} (rooted : a.Rooted) {id outer : ScopeId}
    (h : a.parent? id = some outer) : id ≠ globalId := by
  rintro rfl
  rw [rooted.root] at h
  cases h

/-- In a scope inside the global one a name means what it is bound to there, or else globally. -/
theorem lookup_inner {a : Arena} (rooted : a.Rooted) {id : ScopeId}
    (h : a.parent? id = some globalId) (name : String) :
    a.lookup id name = match (a.binding? id name).or (a.binding? globalId name) with
      | some symbol => .bound symbol
      | none => .unbound := by
  obtain ⟨scope, found, parent⟩ := Option.bind_eq_some_iff.mp h
  obtain ⟨outer, foundOuter⟩ := live_iff.mp rooted.wellFormed.global
  have root : outer.parent = none := by simpa [parent?, foundOuter] using rooted.root
  obtain ⟨n, slots⟩ : ∃ n, a.slots.length = n + 1 :=
    Nat.exists_eq_succ_of_ne_zero (Nat.ne_of_gt (rooted.wellFormed.global).lt_length)
  simp only [lookup, slots, search, found, foundOuter, binding?, Option.bind_some, parent, root]
  cases scope.find? name with
  | some symbol => rfl
  | none => cases outer.find? name <;> rfl

theorem parent?_define (a : Arena) (id : ScopeId) (name : String) (symbol : Symbol) (other : ScopeId) :
    (a.define id name symbol).parent? other = a.parent? other := by
  simp only [parent?, scope?_define]
  by_cases same : other = id
  · simp only [same, if_true]
    cases a.scope? id <;> rfl
  · simp [same]

theorem Rooted.define {a : Arena} (rooted : a.Rooted) (id : ScopeId) (name : String)
    (symbol : Symbol) : (a.define id name symbol).Rooted :=
  ⟨wellFormed_define rooted.wellFormed _ _ _, (parent?_define ..).trans rooted.root⟩

theorem Rooted.release {a : Arena} (rooted : a.Rooted) {id : ScopeId} (inner : id ≠ globalId) :
    (a.release id).Rooted := by
  refine ⟨wellFormed_release rooted.wellFormed id, ?_⟩
  rw [parent?, scope?_release inner, if_neg (Ne.symm inner)]
  exact rooted.root

/-! ### Counting -/

theorem countP_isSome_congr {α β : Type} {xs : List (Option α)} {ys : List (Option β)}
    (same : ∀ i : Nat, (xs[i]?).join.isSome = (ys[i]?).join.isSome) :
    xs.countP Option.isSome = ys.countP Option.isSome := by
  induction xs generalizing ys with
  | nil =>
    symm
    rw [List.countP_nil, List.countP_eq_zero]
    intro y member
    obtain ⟨i, found⟩ := List.getElem?_of_mem member
    have := same i
    simpa [found] using this.symm
  | cons x xs ih =>
    cases ys with
    | nil =>
      rw [List.countP_nil, List.countP_eq_zero]
      intro y member
      obtain ⟨i, found⟩ := List.getElem?_of_mem member
      have := same i
      simpa [found] using this
    | cons y ys =>
      have head := same 0
      have tail := @ih ys fun i => by simpa using same (i + 1)
      simp only [List.getElem?_cons_zero, Option.join_some] at head
      simp only [List.countP_cons, tail, head]

theorem liveCount_congr {a b : Arena} (same : ∀ id, a.Live id ↔ b.Live id) :
    a.liveCount = b.liveCount :=
  countP_isSome_congr fun i => Bool.eq_iff_iff.mpr (same i)

end Offside.Arena
