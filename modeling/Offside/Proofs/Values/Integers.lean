import Offside.Eval.Run
import Offside.Proofs.Values.Words

/-!
# Operators on integers

What the operators and `abs` come to on integers and booleans. `integers_exact` says that it is the
exact integer, or an overflow where no word holds it.
-/

namespace Offside

namespace Integer

/-- The program gives the integer without an effect, or it fails with an overflow on the line if no
word holds the integer. -/
structure Gives (n : Int) (line : Nat) (m : EvalM Value) : Prop where
  held : Fits n → ∃ word : Int64, word.toInt = n ∧ m = pure (.int word)
  overflow : ¬ Fits n → m = EvalM.fail .overflow line

theorem Exact.gives {n : Int} {result : Except Fault Int64} (exact' : Exact n result) (line : Nat) :
    Gives n line (EvalM.onLine line (.int <$> result)) := by
  cases exact' with
  | held same => exact ⟨fun _ => ⟨_, same, rfl⟩, fun wide => absurd (same ▸ fits_toInt _) wide⟩
  | overflow wide => exact ⟨fun fits => absurd fits wide, fun _ => rfl⟩

end Integer

namespace Value

variable {a b : Value} {m n : Int64}

/-- Only integers and booleans count as an integer. -/
theorem eq_of_int? (known : a.int? = some m) :
    a = .int m ∨ ∃ truth, a = .bool truth ∧ m = if truth then 1 else 0 := by
  cases a with
  | int n => exact .inl (congrArg Value.int (Option.some.inj known))
  | bool truth => exact .inr ⟨truth, rfl, (Option.some.inj known).symm⟩
  | _ => cases known

theorem isSequence_of_int? (known : a.int? = some m) : a.isSequence = false := by
  rcases eq_of_int? known with rfl | ⟨truth, rfl, -⟩ <;> rfl

theorem promote?_ints (left : a.int? = some m) (right : b.int? = some n) :
    a.promote? b = some (.ints m n) := by
  rw [promote?, left, right]

/-- The operators `+ - * / // %` on integers. -/
theorem binary_arithmetic {op : BinaryOp} {result : Except Fault Value} (left : a.int? = some m)
    (right : b.int? = some n)
    (rule : binary? op a b =
      if a.isSequence || b.isSequence then sequence? op a b else arithmetic? op a b)
    (known : Integer.arithmetic? op m n = some result) : a.binary op b = result := by
  rw [binary, rule, isSequence_of_int? left, isSequence_of_int? right, if_neg (by decide), arithmetic?,
    promote?_ints left right]
  show orUnsupported op a b (Integer.arithmetic? op m n) = result
  rw [known]
  rfl

theorem binary_pow (left : a.int? = some m) (right : b.int? = some n) (nonneg : 0 ≤ n.toInt) :
    a.binary .pow b = .int <$> Integer.pow m n := by
  have notBelow : ¬ n < 0 := by
    rw [Int64.lt_iff_toInt_lt]
    exact not_lt.mpr nonneg
  have power : a.power? b = some (Numbers.power (.ints m n)) := by
    unfold power?
    split
    · cases left
    · rw [promote?_ints left right]
      rfl
  show orUnsupported .pow a b (a.power? b) = _
  rw [power]
  exact if_neg notBelow

theorem binary_shiftRight (left : a.int? = some m) (right : b.int? = some n) :
    a.binary .shiftRight b = .int <$> Integer.shiftRight m n := by
  show orUnsupported .shiftRight a b (bitwise? .shiftRight a b) = _
  simp only [bitwise?, left, right]
  rfl

theorem unary_plus (known : a.int? = some m) : a.unary .plus = .int <$> .ok m := by
  rcases eq_of_int? known with rfl | ⟨truth, rfl, rfl⟩ <;> rfl

theorem unary_negate (known : a.int? = some m) : a.unary .negate = .int <$> Integer.neg m := by
  rcases eq_of_int? known with rfl | ⟨truth, rfl, rfl⟩ <;> rfl

theorem unary_invert (known : a.int? = some m) : a.unary .invert = .int <$> .ok (~~~m) := by
  rcases eq_of_int? known with rfl | ⟨truth, rfl, rfl⟩ <;> rfl

theorem magnitude_int (known : a.int? = some m) : Builtin.magnitude a = .int <$> Integer.abs m := by
  rcases eq_of_int? known with rfl | ⟨truth, rfl, rfl⟩ <;> rfl

end Value

namespace EvalM

/-- Calling a builtin that prints nothing. -/
theorem callBuiltin_of_call {b : Builtin} {args : List Value} {line : Nat} {result : Except Fault Value}
    (called : b.call args line = result.map fun value => { value }) :
    callBuiltin b args line = onLine line result := by
  rw [callBuiltin, called]
  cases result <;> rfl

theorem callBuiltin_ofOne (name : String) (f : Value → Except Fault Value) (a : Value)
    (line : Nat) : callBuiltin (.ofOne name f) [a] line = onLine line (f a) :=
  callBuiltin_of_call rfl

theorem callBuiltin_ofOptional (name : String) (default : Value) (f : Value → Except Fault Value)
    (a : Value) (line : Nat) : callBuiltin (.ofOptional name default f) [a] line = onLine line (f a) :=
  callBuiltin_of_call rfl

end EvalM

open Integer EvalM in
/-- On integers and booleans the operators and `abs` give the exact integer, and an overflow where no
word holds it. The steps that nothing checks do not wrap around: the correction of a quotient and its
rest, the parity of an exponent and the shift. -/
theorem integers_exact {a b : Value} {m n : Int64} (left : a.int? = some m) (right : b.int? = some n)
    (line : Nat) :
    Gives (m.toInt + n.toInt) line (onLine line (a.binary .add b)) ∧
    Gives (m.toInt - n.toInt) line (onLine line (a.binary .sub b)) ∧
    Gives (m.toInt * n.toInt) line (onLine line (a.binary .mul b)) ∧
    (n ≠ 0 → Gives ⌊(m.toInt : ℚ) / n.toInt⌋ line (onLine line (a.binary .floorDiv b))) ∧
    (n = 0 → onLine line (a.binary .floorDiv b) = fail .divisionByZero line) ∧
    (0 ≤ n.toInt → Gives (m.toInt ^ n.toInt.toNat) line (onLine line (a.binary .pow b))) ∧
    (0 ≤ n.toInt →
      Gives ⌊(m.toInt : ℚ) / 2 ^ n.toInt.toNat⌋ line (onLine line (a.binary .shiftRight b))) ∧
    (n.toInt < 0 →
      onLine line (a.binary .shiftRight b) = fail (.invalidArgument .negativeShift) line) ∧
    Gives m.toInt line (onLine line (a.unary .plus)) ∧
    Gives (-m.toInt) line (onLine line (a.unary .negate)) ∧
    Gives (-m.toInt - 1) line (onLine line (a.unary .invert)) ∧
    (∃ abs, Builtin.named? "abs" = some abs ∧ Gives |m.toInt| line (callBuiltin abs [a] line)) ∧
    (∀ quotient, narrow (m.toInt.tdiv n.toInt) = .ok quotient → roundsUp (m % n) n = true →
      (quotient - 1).toInt = quotient.toInt - 1 ∧ (m % n + n).toInt = (m % n).toInt + n.toInt) ∧
    (n % 2).toInt = n.toInt.tmod 2 ∧
    ∀ count < 64, (m >>> Int64.ofNat count).toInt = ⌊(m.toInt : ℚ) / 2 ^ count⌋ := by
  have floor : ∀ count : Nat, ⌊(m.toInt : ℚ) / 2 ^ count⌋ = m.toInt / 2 ^ count := fun count => by
    have := Rat.floor_intCast_div_natCast m.toInt (2 ^ count)
    push_cast at this
    exact this
  refine ⟨?_, ?_, ?_, fun nonzero => ?_, fun zero => ?_, fun nonneg => ?_, fun nonneg => ?_,
    fun below => ?_, ?_, ?_, ?_, ⟨_, rfl, ?_⟩, fun quotient divided => ?_, Int64.toInt_mod n 2,
    fun count small => ?_⟩
  · rw [Value.binary_arithmetic left right rfl rfl]
    exact (exact_narrow _).gives line
  · rw [Value.binary_arithmetic left right rfl rfl]
    exact (exact_narrow _).gives line
  · rw [Value.binary_arithmetic left right rfl rfl]
    exact (exact_narrow _).gives line
  · rw [Value.binary_arithmetic left right rfl rfl, floor_div]
    exact (exact_floorDiv nonzero).gives line
  · rw [Value.binary_arithmetic left right rfl rfl, floorDiv, divMod, if_pos zero]
    rfl
  · rw [Value.binary_pow left right nonneg]
    exact (exact_pow nonneg).gives line
  · rw [Value.binary_shiftRight left right, floor]
    exact (exact_shiftRight nonneg).gives line
  · rw [Value.binary_shiftRight left right, shiftRight, shiftCount,
      if_pos (Int64.lt_iff_toInt_lt.mpr below)]
    rfl
  · rw [Value.unary_plus left]
    exact (Exact.held rfl).gives line
  · rw [Value.unary_negate left]
    exact (exact_narrow _).gives line
  · rw [Value.unary_invert left]
    exact (exact_not m).gives line
  · rw [callBuiltin_ofOne, Value.magnitude_int left]
    exact (exact_abs m).gives line
  · exact toInt_corrected (toInt_of_narrow divided)
  · rw [floor, toInt_shiftRight m small]

/-- The least integer divided by -1 is no integer, but a power of -2. -/
theorem integers_exact_limits : let least := Int64.minValue
    (Value.int least).int? = some least ∧ (Value.int (-1)).int? = some (-1) ∧
    (∀ line, EvalM.onLine line ((Value.int least).binary .floorDiv (.int (-1))) =
      EvalM.fail .overflow line) ∧
    (Value.int (-2)).int? = some (-2) ∧ (Value.int 63).int? = some 63 ∧
    ∀ line, EvalM.onLine line ((Value.int (-2)).binary .pow (.int 63)) = pure (.int least) := by
  intro least
  refine ⟨rfl, rfl, fun line => ?_, rfl, rfl, fun line => ?_⟩
  · obtain ⟨-, -, -, divided, -⟩ :=
      integers_exact (a := .int least) (b := .int (-1)) (m := least) (n := -1) rfl rfl line
    refine (divided (by decide)).overflow ?_
    rw [Integer.floor_div]
    decide
  · obtain ⟨-, -, -, -, -, power, -⟩ :=
      integers_exact (a := .int (-2)) (b := .int 63) (m := -2) (n := 63) rfl rfl line
    obtain ⟨word, same, gives⟩ := (power (by decide)).held (by decide)
    rw [gives, Int64.toInt_inj.mp (same.trans (by decide : _ = least.toInt))]

end Offside
