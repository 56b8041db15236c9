import Offside.Proofs.Values.Integers

/-!
# Remainders of integers

`Integer.Leaves` is the rule for what a quotient rounded down leaves. `mod_leaves` says that `%` gives
it for every divisor but zero. The one exception is the least integer divided by -1: the remainder is
zero there, but it is taken beside the quotient, and the quotient does not fit.
-/

namespace Offside

namespace Integer

/-- Taking `b` away from `a` as often as the quotient rounded down says leaves `rest`, which lies
between zero and the divisor. -/
structure Leaves (a b rest : Int) : Prop where
  equation : ⌊(a : ℚ) / b⌋ * b + rest = a
  sign : rest = 0 ∨ rest.sign = b.sign
  small : |rest| < |b|

theorem Leaves.eq_fmod {a b rest : Int} (leaves : Leaves a b rest) : rest = a.fmod b := by
  have equation := leaves.equation
  rw [floor_div] at equation
  have := Int.mul_fdiv_add_fmod a b
  rw [mul_comm] at this
  omega

theorem leaves_fmod {a b : Int} (nonzero : b ≠ 0) : Leaves a b (a.fmod b) := by
  have equation : ⌊(a : ℚ) / b⌋ * b + a.fmod b = a := by
    rw [floor_div, mul_comm, Int.mul_fdiv_add_fmod]
  rcases lt_or_gt_of_ne nonzero with below | above
  · have opposite : (-a).fmod (-b) = -a.fmod b := Int.neg_fmod_neg a b
    have nonneg := Int.fmod_nonneg_of_pos (-a) (neg_pos.mpr below)
    have small := Int.fmod_lt_of_pos (-a) (neg_pos.mpr below)
    rw [opposite] at nonneg small
    refine ⟨equation, ?_, ?_⟩
    · rw [Int.sign_eq_neg_one_of_neg below]
      exact (eq_or_lt_of_le (neg_nonneg.mp nonneg)).imp id Int.sign_eq_neg_one_of_neg
    · rw [abs_of_nonpos (neg_nonneg.mp nonneg), abs_of_neg below]
      exact small
  · have nonneg := Int.fmod_nonneg_of_pos a above
    refine ⟨equation, ?_, ?_⟩
    · rw [Int.sign_eq_one_of_pos above]
      exact (eq_or_lt_of_le' nonneg).imp id Int.sign_eq_one_of_pos
    · rw [abs_of_nonneg nonneg, abs_of_pos above]
      exact Int.fmod_lt_of_pos a above

theorem leaves_iff {a b rest : Int} (nonzero : b ≠ 0) : Leaves a b rest ↔ rest = a.fmod b :=
  ⟨Leaves.eq_fmod, fun same => same ▸ leaves_fmod nonzero⟩

variable {a b : Int64}

theorem toInt_ne_zero (nonzero : b ≠ 0) : b.toInt ≠ 0 := fun zero => nonzero (Int64.toInt_inj.mp zero)

/-- The words' own remainder has the sign of the dividend, which is the one that the quotient rounded
down leaves unless it is corrected. -/
theorem fmod_eq (a b : Int64) (nonzero : b ≠ 0) : a.toInt.fmod b.toInt =
    if roundsUp (a % b) b then (a % b).toInt + b.toInt else (a % b).toInt := by
  rw [Int.fmod_def, fdiv_eq a b nonzero, Int64.toInt_mod, Int.tmod_def]
  split
  · rw [mul_sub, mul_one]
    omega
  · rfl

/-- The remainder is taken where the quotient fits. -/
theorem floorMod_of_narrow (nonzero : b ≠ 0) {quotient : Int64}
    (narrowed : narrow (a.toInt.tdiv b.toInt) = .ok quotient) :
    ∃ rest, floorMod a b = .ok rest ∧ rest.toInt = a.toInt.fmod b.toInt := by
  have divided := toInt_of_narrow narrowed
  rw [floorMod, divMod_of_narrow nonzero narrowed, fmod_eq a b nonzero]
  refine ⟨_, rfl, ?_⟩
  by_cases up : roundsUp (a % b) b = true
  · rw [if_pos up, if_pos up]
    exact (toInt_corrected divided up).2
  · rw [if_neg up, if_neg up]

/-- Only the least integer divided by -1 has a quotient that does not fit. -/
theorem not_fits_tdiv_iff : ¬ Fits (a.toInt.tdiv b.toInt) ↔ a = Int64.minValue ∧ b = -1 := by
  constructor
  · intro wide
    have fits := fits_toInt a
    have unit : b.toInt.natAbs = 1 := by
      by_contra wider
      have small := natAbs_tdiv_le (a := a) wider
      unfold Fits at wide
      omega
    rcases Int.natAbs_eq b.toInt with one | minus
    · rw [one, unit, Int.natCast_one, Int.tdiv_one] at wide
      exact absurd fits wide
    · rw [unit] at minus
      rw [minus, Int.natCast_one, Int.tdiv_neg, Int.tdiv_one] at wide
      have least : a.toInt = Int64.minValue.toInt := by
        change a.toInt = -0x8000000000000000
        unfold Fits at fits wide
        omega
      exact ⟨Int64.toInt_inj.mp least, Int64.toInt_inj.mp minus⟩
  · rintro ⟨rfl, rfl⟩
    decide

theorem floorMod_least : floorMod Int64.minValue (-1) = .error .overflow := rfl

/-- A result that is an integer is the exact one. -/
theorem Exact.toInt {n : Int} {result : Except Fault Int64} {word : Int64} (exact' : Exact n result)
    (gives : Value.int <$> result = .ok (.int word)) : word.toInt = n := by
  cases exact' with
  | held same =>
    cases gives
    exact same
  | overflow => cases gives

end Integer

open Integer EvalM in
/-- On integers and booleans `%` gives what the quotient rounded down leaves, for every divisor but zero.
That always fits, and goes with the quotient wherever `//` has one. Only the least integer divided by -1
is refused, with the overflow of its quotient. -/
theorem mod_leaves {a b : Value} {m n : Int64} (left : a.int? = some m) (right : b.int? = some n)
    (line : Nat) :
    (n ≠ 0 → ∃ rest : Int64, (∀ other, Leaves m.toInt n.toInt other ↔ other = rest.toInt) ∧
      onLine line (a.binary .mod b) =
        (if m = Int64.minValue ∧ n = -1 then fail .overflow line else pure (.int rest)) ∧
      ∀ quotient : Int64, a.binary .floorDiv b = .ok (.int quotient) →
        quotient.toInt * n.toInt + rest.toInt = m.toInt) ∧
    (n = 0 → onLine line (a.binary .mod b) = fail .divisionByZero line) := by
  have remainder : a.binary .mod b = .int <$> floorMod m n :=
    Value.binary_arithmetic left right rfl rfl
  have division : a.binary .floorDiv b = .int <$> floorDiv m n :=
    Value.binary_arithmetic left right rfl rfl
  rw [remainder, division]
  refine ⟨fun nonzero => ?_, fun zero => ?_⟩
  · have leaves : ∀ {rest : Int64}, rest.toInt = m.toInt.fmod n.toInt →
        ∀ other, Leaves m.toInt n.toInt other ↔ other = rest.toInt :=
      fun same other => same ▸ leaves_iff (toInt_ne_zero nonzero)
    by_cases least : m = Int64.minValue ∧ n = -1
    · obtain ⟨rfl, rfl⟩ := least
      refine ⟨0, leaves rfl, ?_, fun quotient divided => ?_⟩
      · rw [if_pos ⟨rfl, rfl⟩, floorMod_least]
        rfl
      · cases divided
    · have narrowed := narrow_of_fits (not_not.mp (mt not_fits_tdiv_iff.mp least))
      obtain ⟨rest, gives, same⟩ := floorMod_of_narrow nonzero narrowed
      refine ⟨rest, leaves same, ?_, fun quotient divided => ?_⟩
      · rw [if_neg least, gives]
        rfl
      · rw [(exact_floorDiv nonzero).toInt divided, same, mul_comm, Int.mul_fdiv_add_fmod]
  · rw [floorMod, divMod, if_pos zero]
    rfl

/-- The least integer lies one below a multiple of three. -/
theorem mod_leaves_of_least : let least := Int64.minValue
    (Value.int least).int? = some least ∧ (Value.int 3).int? = some 3 ∧ (3 : Int64) ≠ 0 ∧
    ∀ line, EvalM.onLine line ((Value.int least).binary .mod (.int 3)) = pure (.int 1) := by
  intro least
  refine ⟨rfl, rfl, by decide, fun line => ?_⟩
  obtain ⟨rest, leaves, gives, -⟩ :=
    (mod_leaves (a := .int least) (b := .int 3) (m := least) (n := 3) rfl rfl line).1 (by decide)
  have one : (1 : Int64).toInt = rest.toInt :=
    (leaves _).mp ((Integer.leaves_iff (by decide)).mpr (by decide))
  rw [gives, if_neg (by decide), ← Int64.toInt_inj.mp one]

/-- The least integer divided by -1 leaves zero, but `%` does not give it. -/
theorem mod_least_refused : (-1 : Int64) ≠ 0 ∧
    Integer.Leaves Int64.minValue.toInt (-1 : Int64).toInt (0 : Int64).toInt ∧
    (Value.int Int64.minValue).binary .mod (.int (-1)) = .error .overflow ∧
    ¬ ∃ value, (Value.int Int64.minValue).binary .mod (.int (-1)) = .ok value := by
  have refused : (Value.int Int64.minValue).binary .mod (.int (-1)) = .error .overflow := rfl
  refine ⟨by decide, (Integer.leaves_iff (by decide)).mpr (by decide), refused, ?_⟩
  rintro ⟨value, gives⟩
  rw [refused] at gives
  cases gives

end Offside
