import Mathlib.Data.List.Induction
import Mathlib.Order.Bounds.Basic
import Offside.Proofs.Scope.Arena

/-!
# Operations on an arena

A caller may allocate, release and define with whatever ids it likes. `operations_keep_slots` says
what holds after any number of these: the free slots are the empty ones, and there are as many slots
as there ever were scopes at a time.
-/

namespace Offside.Arena

/-- One use of an arena by its owner. The ids need not be those of scopes. -/
inductive Operation where
  | allocate (parent : Option ScopeId)
  | release (id : ScopeId)
  | define (id : ScopeId) (name : String) (symbol : Symbol)

def perform (a : Arena) : Operation → Arena
  | .allocate parent => (a.allocate parent).1
  | .release id => a.release id
  | .define id name symbol => a.define id name symbol

/-- The arena after operations on a new one, the first one first. -/
def afterAll (operations : List Operation) : Arena := operations.foldl perform {}

variable {a : Arena}

theorem release_of_dead {id : ScopeId} (skipped : ¬ a.Live id ∨ id = globalId) : a.release id = a := by
  refine if_pos ?_
  rcases skipped with dead | global
  · exact .inr (Option.isNone_iff_eq_none.mpr (not_live_iff.mp dead))
  · exact .inl global

theorem define_of_dead {id : ScopeId} (dead : ¬ a.Live id) (name : String) (symbol : Symbol) :
    a.define id name symbol = a := by
  unfold define
  rw [not_live_iff.mp dead]

theorem Rooted.allocate (rooted : a.Rooted) (parent : Option ScopeId) :
    (a.allocate parent).1.Rooted := by
  refine ⟨wellFormed_allocate rooted.wellFormed parent, ?_⟩
  have other : globalId ≠ (a.allocate parent).2 := by
    intro same
    exact allocate_fresh rooted.wellFormed parent (same ▸ rooted.wellFormed.global)
  rw [parent?, scope?_allocate rooted.wellFormed, if_neg other]
  exact rooted.root

theorem Rooted.perform (rooted : a.Rooted) (operation : Operation) : (a.perform operation).Rooted := by
  cases operation with
  | allocate parent => exact rooted.allocate parent
  | release id =>
    by_cases global : id = globalId
    · show (a.release id).Rooted
      rwa [release_of_dead (.inr global)]
    · exact rooted.release global
  | define id name symbol => exact rooted.define id name symbol

theorem afterAll_concat (operations : List Operation) (operation : Operation) :
    afterAll (operations ++ [operation]) = (afterAll operations).perform operation :=
  List.foldl_concat ..

theorem rooted_afterAll (operations : List Operation) : (afterAll operations).Rooted := by
  induction operations using List.reverseRecOn with
  | nil => exact rooted_empty
  | append_singleton operations operation ih =>
    rw [afterAll_concat]
    exact ih.perform operation

/-! ### The number of slots -/

theorem liveCount_le (a : Arena) : a.liveCount ≤ a.slots.length := List.countP_le_length

theorem liveCount_of_full (h : a.WellFormed) (full : a.free = []) : a.liveCount = a.slots.length := by
  refine List.countP_eq_length.mpr fun slot member => ?_
  obtain ⟨id, inside, rfl⟩ := List.getElem_of_mem member
  have live : a.Live id := by
    by_contra dead
    have listed := (h.free id).mpr ⟨inside, dead⟩
    rw [full] at listed
    cases listed
  rw [Live, scope?, List.getElem?_eq_getElem inside] at live
  exact live

/-- There is a new slot only when all others are taken. -/
theorem slots_allocate (h : a.WellFormed) (parent : Option ScopeId) :
    (a.allocate parent).1.slots.length = a.slots.length ∨
      (a.allocate parent).1.slots.length = a.slots.length + 1 ∧
        (a.allocate parent).1.liveCount = (a.allocate parent).1.slots.length := by
  have after := wellFormed_allocate h parent
  cases listed : a.free with
  | cons id free =>
    left
    rw [Arena.allocate, listed]
    exact List.length_set
  | nil =>
    have made : (a.allocate parent).1 = { a with slots := a.slots ++ [some { parent }] } := by
      rw [Arena.allocate, listed]
    refine .inr ⟨?_, liveCount_of_full after (by rw [made]; exact listed)⟩
    rw [made]
    exact List.length_append

theorem slots_perform (h : a.WellFormed) (operation : Operation) :
    (a.perform operation).slots.length = a.slots.length ∨
      (a.perform operation).slots.length = a.slots.length + 1 ∧
        (a.perform operation).liveCount = (a.perform operation).slots.length := by
  cases operation with
  | allocate parent => exact slots_allocate h parent
  | release id =>
    left
    show (a.release id).slots.length = _
    unfold release
    split
    · rfl
    · exact List.length_set
  | define id name symbol =>
    left
    show (a.define id name symbol).slots.length = _
    unfold define
    split
    · exact List.length_set
    · rfl

/-- The numbers of scopes that were there at a time. -/
def counts (operations : List Operation) : Set Nat :=
  {n | ∃ earlier, earlier <+: operations ∧ (afterAll earlier).liveCount = n}

/-- There are as many slots as there ever were scopes at a time. -/
theorem isGreatest_slots (operations : List Operation) :
    IsGreatest (counts operations) (afterAll operations).slots.length := by
  induction operations using List.reverseRecOn with
  | nil =>
    refine ⟨⟨[], List.prefix_refl _, rfl⟩, ?_⟩
    rintro _ ⟨earlier, early, rfl⟩
    rw [List.prefix_nil.mp early]
    exact liveCount_le _
  | append_singleton operations operation ih =>
    have grows := slots_perform (rooted_afterAll operations).wellFormed operation
    rw [← afterAll_concat] at grows
    have le : (afterAll operations).slots.length ≤
        (afterAll (operations ++ [operation])).slots.length := by omega
    constructor
    · rcases grows with same | ⟨-, full⟩
      · obtain ⟨earlier, early, count⟩ := ih.1
        exact ⟨earlier, early.trans (List.prefix_append _ _), count.trans same.symm⟩
      · exact ⟨_, List.prefix_refl _, full⟩
    · rintro _ ⟨earlier, early, rfl⟩
      rcases List.prefix_concat_iff.mp early with rfl | early
      · exact liveCount_le _
      · exact Nat.le_trans (ih.2 ⟨earlier, early, rfl⟩) le

/-! ### Any operations -/

/-- After any operations the global scope is there, the free slots are the empty ones, each listed
once, and no slot was lost. The next operation has no effect but its own, and none at all on a scope
that is not there. -/
theorem operations_keep_slots (operations : List Operation) :
    let a := afterAll operations
    (∃ scope, a.scope? globalId = some scope ∧ scope.parent = none) ∧
    a.free.Nodup ∧ globalId ∉ a.free ∧
    (∀ id, id ∈ a.free ↔ id < a.slots.length ∧ ¬ a.Live id) ∧
    (∀ parent, ¬ a.Live (a.allocate parent).2 ∧
      (a.allocate parent).1.scope? (a.allocate parent).2 = some { symbols := [], parent } ∧
      ∀ other, a.Live other → (a.allocate parent).1.scope? other = a.scope? other) ∧
    (∀ id, (¬ a.Live id ∨ id = globalId → a.release id = a) ∧
      (id ≠ globalId → ∀ other,
        (a.release id).scope? other = if other = id then none else a.scope? other)) ∧
    (∀ id name symbol, (¬ a.Live id → a.define id name symbol = a) ∧
      ∀ other, (a.define id name symbol).scope? other =
        if other = id then (a.scope? id).map (·.define name symbol) else a.scope? other) ∧
    IsGreatest (counts operations) a.slots.length := by
  intro a
  have rooted : a.Rooted := rooted_afterAll operations
  have h := rooted.wellFormed
  obtain ⟨scope, found⟩ := live_iff.mp h.global
  have root : scope.parent = none := by simpa [parent?, found] using rooted.root
  refine ⟨⟨scope, found, root⟩, h.nodup, fun listed => ((h.free _).mp listed).2 h.global, h.free,
    fun parent => ⟨allocate_fresh h parent, ?_, fun other live => ?_⟩,
    fun id => ⟨release_of_dead, scope?_release⟩,
    fun id name symbol => ⟨fun dead => define_of_dead dead name symbol, scope?_define a id name symbol⟩,
    isGreatest_slots operations⟩
  · rw [scope?_allocate h, if_pos rfl]
  · rw [scope?_allocate h, if_neg]
    rintro rfl
    exact allocate_fresh h parent live

/-- The scope in the middle is released, though another one lies in it. -/
theorem operations_keep_slots_released :
    let a := afterAll [.allocate (some 0), .allocate (some 1), .release 1]
    ¬ a.Live 1 ∧ a.release 1 = a ∧ (∀ name symbol, a.define 1 name symbol = a) ∧
      a.Live 2 ∧ (a.allocate none).1.scope? 2 = a.scope? 2 ∧ a.slots.length = 3 := by
  intro a
  obtain ⟨-, -, -, -, allocate, release, define, -⟩ :=
    operations_keep_slots [.allocate (some 0), .allocate (some 1), .release 1]
  have dead : ¬ a.Live 1 := not_live_iff.mpr rfl
  have live : a.Live 2 := rfl
  exact ⟨dead, (release 1).1 (.inl dead), fun name symbol => (define 1 name symbol).1 dead, live,
    (allocate none).2.2 2 live, rfl⟩

end Offside.Arena
