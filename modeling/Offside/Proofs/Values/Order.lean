import Offside.Proofs.Values.Equality
import Offside.Proofs.Values.TextOrder

/-!
# The order of values

Real numbers have an order, texts have one and bytes have one (`Ordered`). The four operators that order
and equality are read off one comparison of the two values (`Ordered.compares`), and so agree with each
other; less is transitive also between integers and floats, as rounding keeps the order.
-/

namespace Offside

open Binary64

/-! ### Comparing in a linear order -/

section Linear

variable {α : Type} [LT α] [DecidableLT α] [DecidableEq α]

theorem isLT_compareOfLessAndEq (a b : α) : (compareOfLessAndEq a b).isLT = decide (a < b) := by
  rw [compareOfLessAndEq]
  split
  · next less => exact (decide_eq_true less).symm
  · next notLess =>
    rw [decide_eq_false notLess]
    split <;> rfl

variable [LE α] [Std.LawfulOrderLT α]

theorem isEq_compareOfLessAndEq {a b : α} : (compareOfLessAndEq a b).isEq = true ↔ a = b := by
  rw [compareOfLessAndEq]
  split
  · next less => exact iff_of_false nofun fun same => Std.lt_irrefl (same ▸ less)
  · split
    · next same => exact iff_of_true rfl same
    · next apart => exact iff_of_false nofun apart

theorem swap_compareOfLessAndEq [Std.IsLinearOrder α] (a b : α) :
    (compareOfLessAndEq a b).swap = compareOfLessAndEq b a :=
  (compareOfLessAndEq_eq_swap Std.le_antisymm (fun _ _ => Std.le_total) Std.not_le).symm

end Linear

namespace Value

/-- What values have an order of their own. -/
inductive Scale where
  | real | text | bytes

def scale? : Value → Option Scale
  | .bool _ | .int _ | .float _ => some .real
  | .str _ => some .text
  | .bytes _ => some .bytes
  | .none | .complex _ => Option.none

def Comparable (a b : Value) : Prop := ∃ scale, a.scale? = some scale ∧ b.scale? = some scale

/-- How the first value compares to the second, nothing if one of them is no number. -/
inductive Ordered : Value → Value → Option Ordering → Prop
  | text (s t : String) : Ordered (.str s) (.str t) (some (compareOfLessAndEq s t))
  | bytes (s t : List UInt8) : Ordered (.bytes s) (.bytes t) (some (compareOfLessAndEq s t))
  | ints {a b : Value} {m n : Int64} (left : a.int? = some m) (right : b.int? = some n) :
    Ordered a b (some (compareOfLessAndEq m n))
  | floats {a b : Value} {x y : Float} (apart : a.int? = Option.none ∨ b.int? = Option.none)
    (left : a.float? = some x) (right : b.float? = some y) : Ordered a b (compare? x y)

/-- What the operators answer if the first value compares to the second in a way. All answer false if
there is none. -/
structure Compares (a b : Value) (relation : Option Ordering) : Prop where
  less : a.binary .less b = .ok (.bool (relation.any Ordering.isLT))
  greater : a.binary .greater b = .ok (.bool (relation.any Ordering.isGT))
  lessEqual : a.binary .lessEqual b = .ok (.bool (relation.any Ordering.isLE))
  greaterEqual : a.binary .greaterEqual b = .ok (.bool (relation.any Ordering.isGE))
  equal : a.binary .equal b = .ok (.bool (relation.any Ordering.isEq))

variable {a b c : Value} {relation : Option Ordering}

theorem less?_of_promote? {numbers : Numbers} (known : a.promote? b = some numbers) :
    a.less? b = numbers.less? := by
  cases a <;> cases b <;> cases known <;> rfl

theorem binary_of_test {op : BinaryOp} (test : Option Bool)
    (rule : binary? op a b = (test.map .ok).map (Except.map .bool)) :
    a.binary op b = orUnsupported op a b (test.map (.ok <| .bool ·)) := by
  rw [binary, rule]
  cases test <;> rfl

namespace Ordered

theorem swap (ordered : Ordered a b relation) : Ordered b a (relation.map Ordering.swap) := by
  cases ordered with
  | text s t =>
    show Ordered _ _ (some (compareOfLessAndEq s t).swap)
    rw [swap_compareOfLessAndEq]
    exact text t s
  | bytes s t =>
    show Ordered _ _ (some (compareOfLessAndEq s t).swap)
    rw [swap_compareOfLessAndEq]
    exact bytes t s
  | @ints _ _ m n left right =>
    show Ordered _ _ (some (compareOfLessAndEq m n).swap)
    rw [swap_compareOfLessAndEq]
    exact ints right left
  | floats apart left right =>
    rw [compare?, ← order?_swap]
    exact floats apart.symm right left

theorem less? (ordered : Ordered a b relation) : a.less? b = some (relation.any Ordering.isLT) := by
  cases ordered with
  | text s t => exact congrArg some (isLT_compareOfLessAndEq s t).symm
  | bytes s t => exact congrArg some (isLT_compareOfLessAndEq s t).symm
  | @ints _ _ m n left right =>
    rw [less?_of_promote? (promote?_ints left right)]
    exact congrArg some (isLT_compareOfLessAndEq m n).symm
  | @floats _ _ x y apart left right =>
    rw [less?_of_promote? (promote?_floats apart left right)]
    show some (decide (x < y)) = _
    rw [decide_lt]
    rcases compare? x y with _ | _ | _ | _ <;> rfl

theorem equals (ordered : Ordered a b relation) : a.equals b = relation.any Ordering.isEq := by
  rw [Bool.eq_iff_iff]
  cases ordered with
  | text s t => exact beq_iff_eq.trans isEq_compareOfLessAndEq.symm
  | bytes s t => exact beq_iff_eq.trans isEq_compareOfLessAndEq.symm
  | ints left right =>
    rw [equals_of_promote? (promote?_ints left right)]
    exact beq_iff_eq.trans isEq_compareOfLessAndEq.symm
  | @floats _ _ x y apart left right =>
    rw [equals_of_promote? (promote?_floats apart left right)]
    show (x == y) = true ↔ _
    rw [beq_eq]
    rcases compare? x y with _ | _ | _ | _ <;> simp

/-- Values do not compare only where one of them is no number. -/
theorem eq_none_iff (ordered : Ordered a b relation) :
    relation = Option.none ↔ a.hasNaN = true ∨ b.hasNaN = true := by
  rw [← content?_eq_none_iff, ← content?_eq_none_iff]
  cases ordered with
  | text s t => exact iff_of_false (Option.some_ne_none _) (by simp [content?])
  | bytes s t => exact iff_of_false (Option.some_ne_none _) (by simp [content?])
  | ints left right =>
    rw [content?_of_int? left, content?_of_int? right]
    exact iff_of_false (Option.some_ne_none _) (by simp)
  | floats apart left right =>
    rw [compare?, order?_eq_none_iff, content?_of_float? left, content?_of_float? right,
      Option.map_eq_none_iff, Option.map_eq_none_iff]

theorem lessEqual? (ordered : Ordered a b relation) :
    a.lessEqual? b = some (relation.any Ordering.isLE) := by
  rw [Value.lessEqual?, ordered.less?, ordered.equals]
  rcases relation with _ | _ | _ | _ <;> rfl

theorem compares (ordered : Ordered a b relation) : Compares a b relation where
  less := by
    rw [binary_of_test (a.less? b) rfl, ordered.less?]
    rfl
  greater := by
    rw [binary_of_test (b.less? a) rfl, ordered.swap.less?]
    rcases relation with _ | _ | _ | _ <;> rfl
  lessEqual := by
    rw [binary_of_test (a.lessEqual? b) rfl, ordered.lessEqual?]
    rfl
  greaterEqual := by
    rw [binary_of_test (b.lessEqual? a) rfl, ordered.swap.lessEqual?]
    rcases relation with _ | _ | _ | _ <;> rfl
  equal := by
    rw [← ordered.equals]
    rfl

end Ordered

theorem exists_float?_of_scale? (real : a.scale? = some .real) : ∃ x, a.float? = some x := by
  cases a <;> cases real <;> exact ⟨_, rfl⟩

theorem Comparable.exists_ordered (comparable : Comparable a b) : ∃ relation, Ordered a b relation := by
  obtain ⟨scale, left, right⟩ := comparable
  cases scale with
  | real =>
    obtain ⟨x, known⟩ := exists_float?_of_scale? left
    obtain ⟨y, known'⟩ := exists_float?_of_scale? right
    rcases ints_or_apart a b with ⟨m, n, first, second⟩ | apart
    · exact ⟨_, .ints first second⟩
    · exact ⟨_, .floats apart known known'⟩
  | text =>
    cases a <;> cases left
    cases b <;> cases right
    exact ⟨_, .text ..⟩
  | bytes =>
    cases a <;> cases left
    cases b <;> cases right
    exact ⟨_, .bytes ..⟩

theorem Comparable.symm (comparable : Comparable a b) : Comparable b a := by
  obtain ⟨scale, left, right⟩ := comparable
  exact ⟨scale, right, left⟩

theorem less?_of_not_comparable (other : ¬ Comparable a b) : a.less? b = Option.none := by
  cases a <;> cases b <;> first
    | rfl
    | exact absurd ⟨_, rfl, rfl⟩ other

/-- The operators that take values with an order only. -/
def orderings : List BinaryOp := [.less, .greater, .lessEqual, .greaterEqual]

theorem binary_of_not_comparable (other : ¬ Comparable a b) {op : BinaryOp} (ordering : op ∈ orderings) :
    a.binary op b = .error (.unsupportedOperands op a.kind b.kind) := by
  have forward := less?_of_not_comparable other
  have backward := less?_of_not_comparable fun comparable => other comparable.symm
  simp only [orderings, List.mem_cons, List.not_mem_nil, or_false] at ordering
  rcases ordering with rfl | rfl | rfl | rfl
  · rw [binary_of_test (a.less? b) rfl, forward]
    rfl
  · rw [binary_of_test (b.less? a) rfl, backward]
    rfl
  · rw [binary_of_test (a.lessEqual? b) rfl, lessEqual?, forward]
    rfl
  · rw [binary_of_test (b.lessEqual? a) rfl, lessEqual?, backward]
    rfl

/-! ### Less is transitive -/

/-- A real number as an amount. -/
def amount? (v : Value) : Option Amount := v.float?.bind Binary64.amount?

theorem amount?_of_int? {m : Int64} (known : a.int? = some m) :
    a.amount? = some (.ofRat (nearest m.toInt : Int)) := by
  rw [amount?, float?_of_int? known, Option.bind_some, amount?_ofInt_toInt]

theorem less?_text {s t : String} : (str s).less? (str t) = some true ↔ s < t :=
  Option.some_inj.trans decide_eq_true_iff

theorem less?_bytes {s t : List UInt8} : (bytes s).less? (bytes t) = some true ↔ s < t :=
  Option.some_inj.trans decide_eq_true_iff

theorem less?_ints {m n : Int64} (left : a.int? = some m) (right : b.int? = some n) :
    a.less? b = some true ↔ m < n := by
  rw [less?_of_promote? (promote?_ints left right)]
  exact Option.some_inj.trans decide_eq_true_iff

theorem less?_floats {x y : Float} (apart : a.int? = Option.none ∨ b.int? = Option.none)
    (left : a.float? = some x) (right : b.float? = some y) :
    a.less? b = some true ↔ ∃ p q, a.amount? = some p ∧ b.amount? = some q ∧ p < q := by
  have same : a.amount? = Binary64.amount? x := by rw [amount?, left, Option.bind_some]
  have same' : b.amount? = Binary64.amount? y := by rw [amount?, right, Option.bind_some]
  rw [same, same', ← order?_eq_some_lt_iff, (Ordered.floats apart left right).less?, compare?]
  rcases order? (Binary64.amount? x) (Binary64.amount? y) with _ | _ | _ | _ <;> simp

/-- The amounts keep the order. Two integers may have the same amount. -/
theorem amounts_of_less? (real : a.scale? = some .real) (real' : b.scale? = some .real)
    (less : a.less? b = some true) : ∃ p q, a.amount? = some p ∧ b.amount? = some q ∧ p ≤ q ∧
      (a.int? = Option.none ∨ b.int? = Option.none → p < q) := by
  obtain ⟨x, known⟩ := exists_float?_of_scale? real
  obtain ⟨y, known'⟩ := exists_float?_of_scale? real'
  rcases ints_or_apart a b with ⟨m, n, left, right⟩ | apart
  · have smaller := Int64.lt_iff_toInt_lt.mp ((less?_ints left right).mp less)
    have rounded := nearest_mono smaller.le
    exact ⟨_, _, amount?_of_int? left, amount?_of_int? right,
      Amount.ofRat_le_ofRat.mpr (Int.cast_le.mpr rounded), by simp [left, right]⟩
  · obtain ⟨p, q, left, right, less⟩ := (less?_floats apart known known').mp less
    exact ⟨p, q, left, right, less.le, fun _ => less⟩

theorem less?_of_amounts {p q : Amount} (left : a.amount? = some p) (right : b.amount? = some q)
    (less : p < q) : a.less? b = some true := by
  obtain ⟨x, known, -⟩ := Option.bind_eq_some_iff.mp left
  obtain ⟨y, known', -⟩ := Option.bind_eq_some_iff.mp right
  rcases ints_or_apart a b with ⟨m, n, first, second⟩ | apart
  · cases left.symm.trans (amount?_of_int? first)
    cases right.symm.trans (amount?_of_int? second)
    have rounded := Int.cast_lt.mp (Amount.ofRat_lt_ofRat.mp less)
    rw [less?_ints first second, Int64.lt_iff_toInt_lt]
    exact nearest_mono.reflect_lt rounded
  · exact (less?_floats apart known known').mpr ⟨p, q, left, right, less⟩

theorem comparable_of_less? {truth : Bool} (known : a.less? b = some truth) : Comparable a b := by
  by_contra other
  exact nomatch (less?_of_not_comparable other).symm.trans known

/-- Over three real numbers one step at least is strict in the amounts, unless all are integers. -/
theorem less?_trans (first : a.less? b = some true) (second : b.less? c = some true) :
    a.less? c = some true := by
  obtain ⟨scale, left, middle⟩ := comparable_of_less? first
  obtain ⟨scale', middle', right⟩ := comparable_of_less? second
  cases middle.symm.trans middle'
  cases scale with
  | real =>
    obtain ⟨p, q, known, known', le, strict⟩ := amounts_of_less? left middle first
    obtain ⟨q', r, same, known'', le', strict'⟩ := amounts_of_less? middle right second
    cases known'.symm.trans same
    cases ofA : a.int? with
    | none => exact less?_of_amounts known known'' ((strict (.inl ofA)).trans_le le')
    | some m =>
      cases ofB : b.int? with
      | none => exact less?_of_amounts known known'' ((strict (.inr ofB)).trans_le le')
      | some n =>
        cases ofC : c.int? with
        | none => exact less?_of_amounts known known'' (le.trans_lt (strict' (.inr ofC)))
        | some k =>
          have low := (less?_ints ofA ofB).mp first
          have high := (less?_ints ofB ofC).mp second
          exact (less?_ints ofA ofC).mpr (Std.lt_trans low high)
  | text =>
    cases a <;> cases left
    cases b <;> cases middle
    cases c <;> cases right
    exact less?_text.mpr ((less?_text.mp first).trans (less?_text.mp second))
  | bytes =>
    cases a <;> cases left
    cases b <;> cases middle
    cases c <;> cases right
    exact less?_bytes.mpr (Std.lt_trans (less?_bytes.mp first) (less?_bytes.mp second))

theorem binary_less_iff : a.binary .less b = .ok (.bool true) ↔ a.less? b = some true := by
  rw [binary_of_test (a.less? b) rfl]
  rcases a.less? b with _ | _ | _ <;> simp [orUnsupported]

theorem compareOfLessAndEq_utf8 (s t : String) :
    compareOfLessAndEq (Text.utf8 s) (Text.utf8 t) = compareOfLessAndEq s t := by
  rw [compareOfLessAndEq, compareOfLessAndEq]
  simp only [← Text.lt_iff_utf8, Text.utf8_inj]

/-- Texts compare as the bytes that encode them. -/
theorem binary_utf8 (s t : String) {op : BinaryOp} (ordering : op ∈ orderings) :
    binary op (.str s) (.str t) = binary op (.bytes (Text.utf8 s)) (.bytes (Text.utf8 t)) := by
  have texts := (Ordered.text s t).compares
  have encoded := (Ordered.bytes (Text.utf8 s) (Text.utf8 t)).compares
  rw [compareOfLessAndEq_utf8] at encoded
  simp only [orderings, List.mem_cons, List.not_mem_nil, or_false] at ordering
  rcases ordering with rfl | rfl | rfl | rfl
  · exact texts.less.trans encoded.less.symm
  · exact texts.greater.trans encoded.greater.symm
  · exact texts.lessEqual.trans encoded.lessEqual.symm
  · exact texts.greaterEqual.trans encoded.greaterEqual.symm

end Value

/-- The operators `< > <= >=` take the same operands either way round. Where they do, they agree with
each other and with equality: all are read off how one value compares to the other, which is nothing
exactly if one of the two is no number. Less is transitive. On texts it goes by the first code point that
differs, a proper prefix being less, and so do the bytes that encode the texts. -/
theorem comparisons_coherent (a b c : Value) :
    (¬ a.Comparable b → ∀ op ∈ Value.orderings,
      a.binary op b = .error (.unsupportedOperands op a.kind b.kind) ∧
      b.binary op a = .error (.unsupportedOperands op b.kind a.kind)) ∧
    (a.Comparable b → ∃ relation : Option Ordering,
      a.Compares b relation ∧ b.Compares a (relation.map Ordering.swap) ∧
      (relation = none ↔ a.hasNaN = true ∨ b.hasNaN = true)) ∧
    (a.binary .less b = .ok (.bool true) → b.binary .less c = .ok (.bool true) →
      a.binary .less c = .ok (.bool true)) ∧
    ∀ s t : String,
      ((Value.str s).binary .less (.str t) = .ok (.bool true) ↔
        s.toList = t.toList.take s.toList.length ∧ s.toList.length < t.toList.length ∨
        ∃ (i : Nat) (inside : i < s.toList.length) (inside' : i < t.toList.length),
          (∀ (j : Nat) (before : j < i), s.toList[j] = t.toList[j]) ∧
          s.toList[i].val < t.toList[i].val) ∧
      ∀ op ∈ Value.orderings, (Value.str s).binary op (.str t) =
        (Value.bytes (Text.utf8 s)).binary op (.bytes (Text.utf8 t)) := by
  refine ⟨fun other op ordering => ⟨?_, ?_⟩, fun comparable => ?_, fun first second => ?_,
    fun s t => ⟨?_, fun op ordering => Value.binary_utf8 s t ordering⟩⟩
  · exact Value.binary_of_not_comparable other ordering
  · exact Value.binary_of_not_comparable (fun comparable => other comparable.symm) ordering
  · obtain ⟨relation, ordered⟩ := comparable.exists_ordered
    exact ⟨relation, ordered.compares, ordered.swap.compares, ordered.eq_none_iff⟩
  · rw [Value.binary_less_iff] at first second ⊢
    exact Value.less?_trans first second
  · rw [Value.binary_less_iff, Value.less?_text, String.lt_iff]
    exact List.lt_iff_exists

end Offside
