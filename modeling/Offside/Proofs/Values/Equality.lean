import Offside.Proofs.Values.Integers
import Offside.Proofs.Values.Nearest
import Offside.Value.Equality

/-!
# Equality of values

Two values are equal if they have the same content, an integer counting as the nearest float, and are
not two different integers (`Value.equals_iff`). So equality is symmetric, reflexive where no part is no
number, and transitive but for two integers that one float is the nearest to.
-/

namespace Offside

open Binary64

/-- What equality compares. A number is a pair of amounts, real and imaginary part. -/
inductive Content where
  | none
  | text (text : String)
  | bytes (data : List UInt8)
  | number (re im : Amount)

namespace Complex

def hasNaN (z : Complex) : Bool := z.re.isNaN || z.im.isNaN

def content? (z : Complex) : Option Content := Option.map₂ .number (amount? z.re) (amount? z.im)

variable {z w : Complex}

theorem content?_eq_none_iff : z.content? = none ↔ z.hasNaN = true := by
  rw [content?, Option.map₂_eq_none_iff, hasNaN, Bool.or_eq_true, isNaN_iff, isNaN_iff]

theorem equals_iff : z.equals w = true ↔ z.content? = w.content? ∧ z.content? ≠ none := by
  rw [equals, Bool.and_eq_true, beq_eq, beq_eq, beq_iff_eq, beq_iff_eq, compare?, compare?,
    order?_eq_some_eq_iff, order?_eq_some_eq_iff, content?, content?]
  cases amount? z.re <;> cases amount? z.im <;> cases amount? w.re <;> cases amount? w.im <;> simp

theorem some_ne_content? {c : Content} (other : ∀ re im, c ≠ .number re im) : some c ≠ z.content? :=
  fun same => by
    obtain ⟨re, im, -, -, number⟩ := Option.map₂_eq_some_iff.mp same.symm
    exact other re im number.symm

theorem content?_ofReal (x : Float) : (ofReal x).content? = (amount? x).map (.number · (.ofRat 0)) := by
  rw [content?, ofReal, amount?_zero]
  cases amount? x <;> rfl

/-- Real numbers are equal or not whatever type they are compared as. -/
theorem equals_ofReal (x y : Float) : (ofReal x).equals (ofReal y) = (x == y) := by
  have zeros : ((0.0 : Float) == 0.0) = true := by rfl
  rw [equals, ofReal, ofReal, zeros, Bool.and_true]

end Complex

namespace Value

/-- Whether a part of the value is no number. -/
def hasNaN : Value → Bool
  | .float x => x.isNaN
  | .complex z => z.hasNaN
  | _ => false

/-- What equality compares of a value, nothing if a part is no number. -/
def content? : Value → Option Content
  | .none => some .none
  | .str text => some (.text text)
  | .bytes data => some (.bytes data)
  | v => v.complex?.bind Complex.content?

variable {a b c : Value}

/-! ### Numbers -/

theorem float?_of_int? {m : Int64} (known : a.int? = some m) : a.float? = some (.ofInt m.toInt) := by
  cases a <;> cases known <;> rfl

theorem complex?_of_float? {x : Float} (known : a.float? = some x) : a.complex? = some (.ofReal x) := by
  cases a <;> cases known <;> rfl

theorem content?_of_complex? {z : Complex} (known : a.complex? = some z) : a.content? = z.content? := by
  cases a <;> cases known <;> rfl

theorem content?_of_float? {x : Float} (known : a.float? = some x) :
    a.content? = (amount? x).map (.number · (.ofRat 0)) := by
  rw [content?_of_complex? (complex?_of_float? known), Complex.content?_ofReal]

theorem amount?_ofInt_toInt (m : Int64) :
    amount? (Float.ofInt m.toInt) = some (.ofRat (nearest m.toInt : Int)) := by
  have small := Integer.natAbs_le_of_fits (Integer.fits_toInt m)
  exact amount?_ofInt (by omega)

theorem content?_of_int? {m : Int64} (known : a.int? = some m) :
    a.content? = some (.number (.ofRat (nearest m.toInt : Int)) (.ofRat 0)) := by
  rw [content?_of_float? (float?_of_int? known), amount?_ofInt_toInt]
  rfl

theorem content?_eq_none_iff : a.content? = Option.none ↔ a.hasNaN = true := by
  cases a with
  | bool truth =>
    rw [content?_of_int? (a := .bool truth) rfl]
    exact iff_of_false nofun nofun
  | int n =>
    rw [content?_of_int? (a := .int n) rfl]
    exact iff_of_false nofun nofun
  | float x =>
    rw [content?_of_float? (a := .float x) rfl, Option.map_eq_none_iff, ← isNaN_iff]
    rfl
  | complex z => exact Complex.content?_eq_none_iff
  | none => exact iff_of_false nofun nofun
  | str text => exact iff_of_false nofun nofun
  | bytes data => exact iff_of_false nofun nofun

/-- Two values are two integers, or they are not. -/
theorem ints_or_apart (a b : Value) : (∃ m n, a.int? = some m ∧ b.int? = some n) ∨
    (a.int? = Option.none ∨ b.int? = Option.none) := by
  cases a.int? <;> cases b.int? <;> simp

theorem int?_of_float? (known : a.float? = Option.none) : a.int? = Option.none := by
  cases a <;> cases known <;> rfl

theorem promote?_floats {x y : Float} (apart : a.int? = Option.none ∨ b.int? = Option.none)
    (left : a.float? = some x) (right : b.float? = some y) : a.promote? b = some (.floats x y) := by
  unfold promote?
  rw [left, right]
  rcases apart with absent | absent
  · rw [absent]
  · rw [absent]
    cases a.int? <;> rfl

theorem promote?_complexes {z w : Complex} (apart : a.float? = Option.none ∨ b.float? = Option.none)
    (left : a.complex? = some z) (right : b.complex? = some w) :
    a.promote? b = some (.complexes z w) := by
  unfold promote?
  rw [left, right]
  rcases apart with absent | absent
  · rw [int?_of_float? absent, absent]
  · rw [int?_of_float? absent, absent]
    cases a.int? <;> cases a.float? <;> rfl

theorem equals_of_promote? {numbers : Numbers} (known : a.promote? b = some numbers) :
    a.equals b = numbers.equal := by
  cases a <;> cases b <;> cases known <;> rfl

/-- Numbers that are not both integers are compared as complex numbers. -/
theorem equals_of_complex? {z w : Complex} (apart : a.int? = Option.none ∨ b.int? = Option.none)
    (left : a.complex? = some z) (right : b.complex? = some w) : a.equals b = z.equals w := by
  cases real : a.float? with
  | none => exact equals_of_promote? (promote?_complexes (.inl real) left right)
  | some x =>
    cases real' : b.float? with
    | none => exact equals_of_promote? (promote?_complexes (.inr real') left right)
    | some y =>
      cases (complex?_of_float? real).symm.trans left
      cases (complex?_of_float? real').symm.trans right
      rw [equals_of_promote? (promote?_floats apart real real'), Complex.equals_ofReal]
      rfl

/-! ### All values -/

theorem equals_of_not_number (other : a.complex? = Option.none ∨ b.complex? = Option.none) :
    a.equals b = true ↔ a = b := by
  cases a <;> cases b <;> rcases other with absent | absent <;> cases absent <;>
    simp [equals, promote?, int?, float?, complex?]

theorem content?_of_not_number (other : a.complex? = Option.none ∨ b.complex? = Option.none) :
    a.content? = b.content? ∧ a.content? ≠ Option.none ↔ a = b := by
  cases a <;> cases b <;> rcases other with absent | absent <;> cases absent <;>
    simp [content?, complex?, float?, int?, Complex.some_ne_content?, (Complex.some_ne_content? _).symm]

theorem equals_iff_of_apart (apart : a.int? = Option.none ∨ b.int? = Option.none) :
    a.equals b = true ↔ a.content? = b.content? ∧ a.content? ≠ Option.none := by
  cases left : a.complex? with
  | some z =>
    cases right : b.complex? with
    | some w =>
      rw [equals_of_complex? apart left right, Complex.equals_iff, content?_of_complex? left,
        content?_of_complex? right]
    | none => rw [equals_of_not_number (.inr right), content?_of_not_number (.inr right)]
  | none => rw [equals_of_not_number (.inl left), content?_of_not_number (.inl left)]

/-- Values are equal if their contents are, and they are not two different integers. -/
theorem equals_iff : a.equals b = true ↔
    (a.content? = b.content? ∧ a.content? ≠ Option.none) ∧ ∀ m ∈ a.int?, ∀ n ∈ b.int?, m = n := by
  rcases ints_or_apart a b with ⟨m, n, left, right⟩ | apart
  · have decided : a.equals b = true ↔ m = n := by
      rw [equals_of_promote? (promote?_ints left right)]
      exact beq_iff_eq
    rw [decided, content?_of_int? left, content?_of_int? right, left, right]
    refine ⟨fun same => ⟨⟨by rw [same], nofun⟩, ?_⟩, fun same => same.2 m rfl n rfl⟩
    rintro _ ⟨⟩ _ ⟨⟩
    exact same
  · have different : ∀ m ∈ a.int?, ∀ n ∈ b.int?, m = n := by
      rcases apart with absent | absent <;> rw [absent] <;> simp
    rw [equals_iff_of_apart apart, and_iff_left different]

theorem equals_self_iff : a.equals a = true ↔ a.hasNaN = false := by
  have one : ∀ m ∈ a.int?, ∀ n ∈ a.int?, m = n := fun m first n second => Option.mem_unique first second
  rw [equals_iff, and_iff_left one, and_iff_right rfl, ne_eq, content?_eq_none_iff, Bool.not_eq_true]

theorem equals_comm (a b : Value) : a.equals b = b.equals a := by
  have half {a b : Value} (equal : a.equals b = true) : b.equals a = true := by
    obtain ⟨⟨same, known⟩, ints⟩ := equals_iff.mp equal
    exact equals_iff.mpr ⟨⟨same.symm, same ▸ known⟩, fun n right m left => (ints m left n right).symm⟩
  exact Bool.eq_iff_iff.mpr ⟨half, half⟩

theorem long_of_content? {m n : Int64} (left : a.int? = some m) (right : b.int? = some n)
    (same : a.content? = b.content?) (apart : m ≠ n) :
    2 ^ 53 ≤ m.toInt.natAbs ∧ 2 ^ 53 ≤ n.toInt.natAbs := by
  rw [content?_of_int? left, content?_of_int? right] at same
  have nearest : nearest m.toInt = nearest n.toInt := by
    injection Option.some.inj same with real
    exact_mod_cast Amount.ofRat_inj.mp real
  have apart' : m.toInt ≠ n.toInt := fun same => apart (Int64.toInt_inj.mp same)
  exact ⟨long_of_nearest_eq nearest apart', long_of_nearest_eq nearest.symm apart'.symm⟩

/-- Two integers may be equal to one value that is no integer, and different. -/
theorem not_equals_iff (first : a.equals b = true) (second : b.equals c = true) :
    a.equals c = false ↔ b.int? = Option.none ∧ ∃ m ∈ a.int?, ∃ n ∈ c.int?, m ≠ n := by
  obtain ⟨⟨same, known⟩, ints⟩ := equals_iff.mp first
  obtain ⟨⟨same', -⟩, ints'⟩ := equals_iff.mp second
  have contents : a.content? = c.content? ∧ a.content? ≠ Option.none := ⟨same.trans same', known⟩
  rw [← Bool.not_eq_true, equals_iff, and_iff_right contents]
  constructor
  · intro different
    simp only [not_forall] at different
    obtain ⟨m, left, n, right, apart⟩ := different
    refine ⟨Option.eq_none_iff_forall_not_mem.mpr fun k middle => ?_, m, left, n, right, apart⟩
    exact apart ((ints m left k middle).trans (ints' k middle n right))
  · rintro ⟨-, m, left, n, right, apart⟩ equal
    exact apart (equal m left n right)

theorem equals_int_float (n : Int64) (x : Float) : (int n).equals (float x) = true ↔
    amount? x = some (.ofRat (nearest n.toInt : Int)) := by
  rw [equals_iff_of_apart (.inr rfl), content?_of_int? (a := .int n) rfl,
    content?_of_float? (a := .float x) rfl, and_iff_left nofun, eq_comm, Option.map_eq_some_iff]
  simp

end Value

/-- Equality is symmetric, reflexive where no part is no number, and transitive with one exception: two
integers from `2 ^ 53` on may both be equal to a value that is no integer, and still differ. An integer is
equal to the float that is nearest to it, so up to `2 ^ 53` to the float that stands for it. -/
theorem equals_up_to_nearest (a b c : Value) :
    (a.equals a = true ↔ a.hasNaN = false) ∧
    a.equals b = b.equals a ∧
    (a.equals b = true → b.equals c = true → (a.equals c = false ↔
      b.int? = none ∧ ∃ m ∈ a.int?, ∃ n ∈ c.int?, m ≠ n ∧
        2 ^ 53 ≤ m.toInt.natAbs ∧ 2 ^ 53 ≤ n.toInt.natAbs)) ∧
    ∀ (n : Int64) (x : Float),
      ((Value.int n).equals (.float x) = true ↔
        amount? x = some (.ofRat (nearest n.toInt : Int))) ∧
      (n.toInt.natAbs ≤ 2 ^ 53 →
        ((Value.int n).equals (.float x) = true ↔ amount? x = some (.ofRat n.toInt))) := by
  refine ⟨Value.equals_self_iff, Value.equals_comm a b, fun first second => ?_, fun n x => ⟨?_, ?_⟩⟩
  · rw [Value.not_equals_iff first second]
    refine and_congr_right fun absent => ⟨?_, ?_⟩
    · rintro ⟨m, left, n, right, apart⟩
      have same := (Value.equals_iff.mp first).1.1.trans (Value.equals_iff.mp second).1.1
      exact ⟨m, left, n, right, apart, Value.long_of_content? left right same apart⟩
    · rintro ⟨m, left, n, right, apart, -⟩
      exact ⟨m, left, n, right, apart⟩
  · exact Value.equals_int_float n x
  · intro short
    rw [Value.equals_int_float, nearest_of_short short]

/-- Neighbours that round to one float are equal to it, and not to each other. -/
theorem equals_not_transitive :
    let low : Value := .int 0x20000000000000
    let high : Value := .int 0x20000000000001
    let between : Value := .float 9007199254740992.0
    (low.hasNaN = false ∧ between.hasNaN = false ∧ high.hasNaN = false) ∧
    low.equals between = true ∧ between.equals high = true ∧ low.equals high = false := by
  decide

end Offside
