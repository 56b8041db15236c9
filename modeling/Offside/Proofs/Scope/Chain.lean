import Mathlib.Data.List.Perm.Subperm
import Mathlib.Tactic.IntervalCases
import Offside.Proofs.Scope.Operations

/-!
# Chains of scopes

`Arena.Chain a id ids` lists the scopes that are searched for a name from `id` on. A slot that is filled
again goes on to be the parent of the scopes that name it. As long as no slot is filled again that a
scope still names, `lookup_ends` says that every search ends, and that it never comes to a scope made
later than the one it starts from.
-/

namespace Offside.Arena

/-- The scopes that are searched from one on, the innermost first: each lies in the next one, and the
last one in none or in one that is gone. -/
inductive Chain (a : Arena) : ScopeId → List ScopeId → Prop
  | last {id} : a.Live id → (∀ outer, a.parent? id = some outer → ¬ a.Live outer) → Chain a id [id]
  | more {id outer ids} : a.parent? id = some outer → Chain a outer ids → Chain a id (id :: ids)

variable {a : Arena} {id outer : ScopeId} {ids : List ScopeId}

namespace Chain

theorem live (chain : a.Chain id ids) : ∀ inner ∈ ids, a.Live inner := by
  induction chain with
  | last live => exact List.forall_mem_singleton.mpr live
  | more parent _ ih => exact List.forall_mem_cons.mpr ⟨live_of_parent? parent, ih⟩

theorem eq_cons (chain : a.Chain id ids) : ∃ outers, ids = id :: outers := by
  cases chain with
  | last => exact ⟨[], rfl⟩
  | more => exact ⟨_, rfl⟩

/-- A search that may go on for long enough finds what the chain tells. -/
theorem search (chain : a.Chain id ids) {count : Nat} (enough : ids.length < count) (name : String) :
    a.search name count (some id) = match ids.findSome? (a.binding? · name) with
      | some symbol => .bound symbol
      | none => .unbound := by
  induction chain generalizing count with
  | @last id live none =>
    obtain ⟨count, rfl⟩ := Nat.exists_eq_add_of_le' enough
    obtain ⟨scope, found⟩ := live_iff.mp live
    have binding : a.binding? id name = scope.find? name := by rw [binding?, found]; rfl
    simp only [List.length_singleton, Arena.search, found, List.findSome?_singleton, binding]
    cases scope.find? name with
    | some symbol => rfl
    | none =>
      cases inside : scope.parent with
      | none => cases count <;> rfl
      | some outer =>
        have gone := none outer (by rw [parent?, found]; exact inside)
        simp only [Arena.search, not_live_iff.mp gone]
  | @more id outer ids parent _ ih =>
    obtain ⟨count, rfl⟩ := Nat.exists_eq_add_of_lt enough
    obtain ⟨scope, found, inside⟩ := Option.bind_eq_some_iff.mp parent
    have binding : a.binding? id name = scope.find? name := by rw [binding?, found]; rfl
    simp only [Arena.search, found, List.findSome?_cons, binding]
    cases scope.find? name with
    | some symbol => rfl
    | none =>
      simp only [inside]
      exact ih (by rw [List.length_cons]; omega)

theorem length_le (chain : a.Chain id ids) (once : ids.Nodup) : ids.length ≤ a.slots.length := by
  have inside : ids ⊆ List.range a.slots.length :=
    fun inner member => List.mem_range.mpr (chain.live inner member).lt_length
  have := (List.subperm_of_subset once inside).length_le
  rwa [List.length_range] at this

theorem lookup (chain : a.Chain id ids) (once : ids.Nodup) (name : String) :
    a.lookup id name = match ids.findSome? (a.binding? · name) with
      | some symbol => .bound symbol
      | none => .unbound :=
  chain.search (Nat.lt_succ_of_le (chain.length_le once)) name

end Chain

/-! ### The times at which scopes are made -/

/-- An arena with the number of operations on it, and for each slot the number up to the one that made
the scope in it. -/
structure Timed where
  arena : Arena := {}
  clock : Nat := 0
  born : ScopeId → Nat := fun _ => 0

namespace Timed

def perform (t : Timed) (operation : Operation) : Timed where
  arena := t.arena.perform operation
  clock := t.clock + 1
  born := match operation with
    | .allocate parent => fun id => if id = (t.arena.allocate parent).2 then t.clock + 1 else t.born id
    | _ => t.born

/-- The arena after operations on a new one, with its times. -/
def after (operations : List Operation) : Timed := operations.foldl perform {}

theorem arena_foldl (t : Timed) (operations : List Operation) :
    (operations.foldl perform t).arena = operations.foldl Arena.perform t.arena := by
  induction operations generalizing t with
  | nil => rfl
  | cons operation rest ih => exact ih (t.perform operation)

theorem arena_after (operations : List Operation) : (after operations).arena = afterAll operations :=
  arena_foldl {} operations

/-- A scope is made later than the one that it lies in, even if that one is gone. -/
structure Aged (t : Timed) : Prop where
  rooted : t.arena.Rooted
  past : ∀ id, t.born id ≤ t.clock
  older : ∀ id outer, t.arena.parent? id = some outer → t.born outer < t.born id

end Timed

/-- Each operation keeps a rule about the arena that it comes to. -/
def Obeys (rule : Arena → Operation → Prop) : Arena → List Operation → Prop
  | _, [] => True
  | a, operation :: rest => rule a operation ∧ Obeys rule (a.perform operation) rest

/-- A new scope lies in none or in one that is there. -/
def Inside (a : Arena) : Operation → Prop
  | .allocate (some parent) => a.Live parent
  | _ => True

/-- The slot of a new scope is not one that a scope names as its parent. -/
def Unclaimed (a : Arena) : Operation → Prop
  | .allocate parent => ∀ id, a.parent? id ≠ some (a.allocate parent).2
  | _ => True

theorem parent?_allocate (h : a.WellFormed) (parent : Option ScopeId) (id : ScopeId) :
    (a.allocate parent).1.parent? id =
      if id = (a.allocate parent).2 then parent else a.parent? id := by
  rw [parent?, scope?_allocate h]
  split <;> rfl

theorem parent?_release {id other : ScopeId} (parent : (a.release id).parent? other = some outer) :
    a.parent? other = some outer := by
  by_cases global : id = globalId
  · rwa [release_of_dead (.inr global)] at parent
  · rw [parent?, scope?_release global] at parent
    split at parent
    · cases parent
    · exact parent

namespace Timed

variable {t : Timed} {operation : Operation}

theorem aged_start : Aged {} where
  rooted := rooted_empty
  past _ := Nat.le_refl 0
  older id outer parent := by
    have := (live_of_parent? parent).lt_length
    obtain rfl : id = globalId := Nat.lt_one_iff.mp this
    cases parent

theorem Aged.perform (aged : t.Aged) (inside : t.arena.Inside operation)
    (unclaimed : t.arena.Unclaimed operation) : (t.perform operation).Aged := by
  have rooted : (t.perform operation).arena.Rooted := aged.rooted.perform operation
  have past : ∀ id, t.born id ≤ t.clock + 1 := fun id => Nat.le_succ_of_le (aged.past id)
  cases operation with
  | allocate parent =>
    refine ⟨rooted, fun id => ?_, fun id outer named => ?_⟩
    · show (if id = _ then t.clock + 1 else t.born id) ≤ t.clock + 1
      split
      · exact Nat.le_refl _
      · exact past id
    · have fresh := allocate_fresh aged.rooted.wellFormed parent
      have named : (t.arena.allocate parent).1.parent? id = some outer := named
      rw [parent?_allocate aged.rooted.wellFormed] at named
      show (if outer = _ then t.clock + 1 else t.born outer) <
        if id = _ then t.clock + 1 else t.born id
      by_cases new : id = (t.arena.allocate parent).2
      · rw [if_pos new] at named
        subst named
        have live : t.arena.Live outer := inside
        have other : outer ≠ (t.arena.allocate (some outer)).2 := fun same => fresh (same ▸ live)
        rw [if_pos new, if_neg other]
        exact Nat.lt_succ_of_le (aged.past outer)
      · rw [if_neg new] at named
        have other : outer ≠ (t.arena.allocate parent).2 := by
          rintro rfl
          exact unclaimed id named
        rw [if_neg new, if_neg other]
        exact aged.older id outer named
  | release id =>
    exact ⟨rooted, past, fun other outer named => aged.older other outer (parent?_release named)⟩
  | define id name symbol =>
    refine ⟨rooted, past, fun other outer named => aged.older other outer ?_⟩
    rwa [← parent?_define t.arena id name symbol other]

theorem Aged.foldl {operations : List Operation} (aged : t.Aged) (inside : Obeys Inside t.arena operations)
    (unclaimed : Obeys Unclaimed t.arena operations) : (operations.foldl Timed.perform t).Aged := by
  induction operations generalizing t with
  | nil => exact aged
  | cons operation rest ih =>
    exact ih (aged.perform inside.1 unclaimed.1) inside.2 unclaimed.2

/-- The scopes of a chain are older from one to the next. -/
theorem Aged.chain (aged : t.Aged) (live : t.arena.Live id) :
    ∃ ids, t.arena.Chain id ids ∧ (ids.map t.born).Pairwise (· > ·) := by
  induction age : t.born id using Nat.strong_induction_on generalizing id with
  | _ age ih =>
    by_cases goesOn : ∃ outer, t.arena.parent? id = some outer ∧ t.arena.Live outer
    · obtain ⟨outer, parent, live'⟩ := goesOn
      have older := aged.older id outer parent
      obtain ⟨ids, chain, descending⟩ := ih (t.born outer) (age ▸ older) live' rfl
      obtain ⟨outers, rfl⟩ := chain.eq_cons
      refine ⟨id :: outer :: outers, .more parent chain, ?_⟩
      rw [List.map_cons] at descending
      refine List.pairwise_cons.mpr ⟨fun time member => ?_, descending⟩
      rcases List.mem_cons.mp member with rfl | member
      · exact older
      · exact Nat.lt_trans ((List.pairwise_cons.mp descending).1 time member) older
    · refine ⟨[id], .last live fun outer parent live' => goesOn ⟨outer, parent, live'⟩, ?_⟩
      exact List.pairwise_singleton _ _

end Timed

/-- In a slot that is filled again, the scopes that name it as their parent find what is defined. -/
theorem lookup_refilled (h : a.WellFormed) {parent : Option ScopeId}
    (named : a.parent? id = some (a.allocate parent).2) {name : String}
    (unbound : a.binding? id name = none) (symbol : Symbol) :
    ((a.allocate parent).1.define (a.allocate parent).2 name symbol).lookup id name =
      .bound symbol := by
  have fresh := allocate_fresh h parent
  have other : id ≠ (a.allocate parent).2 := by
    rintro rfl
    exact fresh (live_of_parent? named)
  obtain ⟨scope, found, inside⟩ := Option.bind_eq_some_iff.mp named
  have free : scope.find? name = none := by rwa [binding?, found] at unbound
  have slots : ((a.allocate parent).1.define (a.allocate parent).2 name symbol).slots.length ≠ 0 := by
    have live : ((a.allocate parent).1.define (a.allocate parent).2 name symbol).Live id := by
      rw [live_define, Live, scope?_allocate h, if_neg other, found]
      rfl
    exact Nat.ne_of_gt (Nat.lt_of_le_of_lt (Nat.zero_le id) live.lt_length)
  obtain ⟨count, slots⟩ := Nat.exists_eq_succ_of_ne_zero slots
  have found' : ((a.allocate parent).1.define (a.allocate parent).2 name symbol).scope? id =
      some scope := by
    rw [scope?_define, if_neg other, scope?_allocate h, if_neg other, found]
  have filled : ((a.allocate parent).1.define (a.allocate parent).2 name symbol).scope?
      (a.allocate parent).2 = some (Scope.define { parent } name symbol) := by
    rw [scope?_define, if_pos rfl, scope?_allocate h, if_pos rfl]
    rfl
  simp only [Arena.lookup, slots, Arena.search, found', free, inside, filled, find?_define, if_true]

/-! ### Searches -/

/-- After operations that make new scopes only in scopes that are there, and fill no slot again that
is still named as a parent, every search for a name ends: it comes to finitely many scopes, none of
them twice and each made before the one that lies in it, and to no other scope if the parent is gone.
Where such a slot is filled again, the scopes that name it find what is defined in it. -/
theorem lookup_ends {operations : List Operation} (inside : Obeys Inside {} operations)
    (unclaimed : Obeys Unclaimed {} operations) :
    let a := afterAll operations
    (∀ id, a.Live id → ∃ ids, a.Chain id ids ∧
      (ids.map (Timed.after operations).born).Pairwise (· > ·) ∧ ids.Nodup ∧
      ((∀ outer, a.parent? id = some outer → ¬ a.Live outer) → ids = [id]) ∧
      ∀ name, a.lookup id name = match ids.findSome? (a.binding? · name) with
        | some symbol => .bound symbol
        | none => .unbound) ∧
    (∀ id, ¬ a.Live id → ∀ name, a.lookup id name = .unbound) ∧
    ∀ parent id, a.parent? id = some (a.allocate parent).2 →
      ∀ name symbol, a.binding? id name = none →
        ((a.allocate parent).1.define (a.allocate parent).2 name symbol).lookup id name =
          .bound symbol := by
  intro a
  have aged : (Timed.after operations).Aged := Timed.aged_start.foldl inside unclaimed
  have same : (Timed.after operations).arena = a := Timed.arena_after operations
  have rooted : a.Rooted := rooted_afterAll operations
  refine ⟨fun id live => ?_, fun id dead name => ?_, fun parent id named name symbol unbound =>
    lookup_refilled rooted.wellFormed named unbound symbol⟩
  · obtain ⟨ids, chain, descending⟩ := aged.chain (same ▸ live)
    rw [same] at chain
    have once : ids.Nodup := (List.pairwise_map.mp descending).imp fun later => by
      rintro rfl
      exact Nat.lt_irrefl _ later
    refine ⟨ids, chain, descending, once, fun gone => ?_, chain.lookup once⟩
    cases chain with
    | last => rfl
    | more parent chain =>
      obtain ⟨outers, rfl⟩ := chain.eq_cons
      exact absurd (chain.live _ List.mem_cons_self) (gone _ parent)
  · simp only [lookup, Arena.search, not_live_iff.mp dead]

/-- Of four scopes, each inside the one before, the two in the middle are released, and one of their
slots is filled again. The innermost scope finds nothing that is defined outside it. -/
theorem lookup_ends_released :
    let operations : List Operation := [.define 0 "x" (.value .none), .allocate (some 0),
      .allocate (some 1), .allocate (some 2), .release 2, .release 1, .allocate (some 0),
      .define 1 "x" (.value .none)]
    Obeys Inside {} operations ∧ Obeys Unclaimed {} operations ∧
      (afterAll operations).Live 3 ∧ (afterAll operations).lookup 3 "x" = .unbound := by
  intro operations
  have inside : Obeys Inside {} operations :=
    ⟨trivial, rfl, rfl, rfl, trivial, trivial, rfl, trivial, trivial⟩
  have unclaimed : Obeys Unclaimed {} operations := by
    refine ⟨trivial, fun id named => ?_, fun id named => ?_, fun id named => ?_, trivial, trivial,
      fun id named => ?_, trivial, trivial⟩
    all_goals have lt := (live_of_parent? named).lt_length
    · have lt : id < 1 := lt
      obtain rfl := Nat.lt_one_iff.mp lt
      cases named
    · have lt : id < 2 := lt
      interval_cases id <;> cases named
    · have lt : id < 3 := lt
      interval_cases id <;> cases named
    · have lt : id < 4 := lt
      interval_cases id <;> cases named
  have live : (afterAll operations).Live 3 := rfl
  obtain ⟨ids, -, -, -, alone, found⟩ := (lookup_ends inside unclaimed).1 3 live
  have gone : ∀ outer, (afterAll operations).parent? 3 = some outer →
      ¬ (afterAll operations).Live outer := by
    intro outer named
    cases named
    exact not_live_iff.mpr rfl
  refine ⟨inside, unclaimed, live, ?_⟩
  rw [found, alone gone]
  rfl

/-- A released slot that is filled again is still the parent of the scope that names it. Filled with a
scope inside that one it closes a circle, which no search comes out of; filled with any other scope it
lends its names to the older one. -/
theorem lookup_through_refilled :
    let released : List Operation := [.allocate (some 0), .allocate (some 1), .release 1]
    let circle := released ++ [.allocate (some 2)]
    let lent := released ++ [.allocate (some 0), .define 1 "x" (.value (.int 5))]
    (Obeys Inside {} circle ∧ (afterAll circle).Live 2 ∧
      (¬ ∃ ids, (afterAll circle).Chain 2 ids) ∧
      ∀ count, (afterAll circle).search "x" count (some 2) = .cyclic) ∧
    Obeys Inside {} lent ∧ (afterAll released).parent? 2 = some 1 ∧ ¬ (afterAll released).Live 1 ∧
      (Timed.after lent).born 2 < (Timed.after lent).born 1 ∧
      (afterAll lent).lookup 2 "x" = .bound (.value (.int 5)) := by
  intro released circle lent
  refine ⟨?_, ⟨rfl, rfl, trivial, rfl, trivial, trivial⟩, rfl, not_live_iff.mpr rfl, by decide, rfl⟩
  have turns : (afterAll circle).parent? 2 = some 1 ∧ (afterAll circle).parent? 1 = some 2 :=
    ⟨rfl, rfl⟩
  have closed : ∀ id ids, (afterAll circle).Chain id ids → ¬ (id = 1 ∨ id = 2) := by
    intro id ids chain
    induction chain with
    | last live none =>
      rintro (rfl | rfl)
      · exact none 2 turns.2 rfl
      · exact none 1 turns.1 rfl
    | more parent _ ih =>
      rintro (rfl | rfl)
      · rw [turns.2] at parent
        cases parent
        exact ih (.inr rfl)
      · rw [turns.1] at parent
        cases parent
        exact ih (.inl rfl)
  have endless : ∀ count, (afterAll circle).search "x" count (some 1) = .cyclic ∧
      (afterAll circle).search "x" count (some 2) = .cyclic := by
    intro count
    induction count with
    | zero => exact ⟨rfl, rfl⟩
    | succ count ih => exact ⟨ih.2, ih.1⟩
  exact ⟨⟨rfl, rfl, trivial, rfl, trivial⟩, rfl, fun ⟨ids, chain⟩ => closed 2 ids chain (.inr rfl),
    fun count => (endless count).2⟩

end Offside.Arena
