import Mathlib.Data.Rat.Floor
import Mathlib.Tactic.Linarith
import Mathlib.Tactic.Positivity
import Mathlib.Tactic.Ring
import Offside.Eval.Integer

/-!
# Arithmetic on words is exact

`Integer.Exact n` says of a result that it is the integer `n`, or an overflow because no word holds `n`.
It holds of division, powers and shifts, though nothing checks some of their steps: the correction of a
quotient does not wrap around (`toInt_corrected`), and squaring does not report an overflow before the
power itself is one (`powTimes_eq`).
-/

namespace Offside

namespace Integer

/-- Whether a word holds the integer. -/
def Fits (n : Int) : Prop := -0x8000000000000000 ≤ n ∧ n < 0x8000000000000000

instance : DecidablePred Fits := fun _ => inferInstanceAs (Decidable (_ ∧ _))

/-- The result is the integer, or an overflow if no word holds it. -/
inductive Exact (n : Int) : Except Fault Int64 → Prop
  | held {word : Int64} : word.toInt = n → Exact n (.ok word)
  | overflow : ¬ Fits n → Exact n (.error .overflow)

theorem fits_toInt (word : Int64) : Fits word.toInt := ⟨word.le_toInt, word.toInt_lt⟩

theorem toInt_ofInt {n : Int} (fits : Fits n) : (Int64.ofInt n).toInt = n :=
  Int64.toInt_ofInt_of_le fits.1 fits.2

theorem narrow_of_fits {n : Int} (fits : Fits n) : narrow n = .ok (Int64.ofInt n) := if_pos fits

theorem narrow_of_not_fits {n : Int} (wide : ¬ Fits n) : narrow n = .error .overflow := if_neg wide

theorem narrow_toInt (word : Int64) : narrow word.toInt = .ok word := by
  rw [narrow_of_fits (fits_toInt word), Int64.ofInt_toInt]

theorem toInt_of_narrow {n : Int} {word : Int64} (narrowed : narrow n = .ok word) : word.toInt = n := by
  by_cases fits : Fits n
  · rw [narrow_of_fits fits] at narrowed
    cases narrowed
    exact toInt_ofInt fits
  · rw [narrow_of_not_fits fits] at narrowed
    cases narrowed

theorem wide_of_narrow {n : Int} {fault : Fault} (narrowed : narrow n = .error fault) :
    ¬ Fits n ∧ fault = .overflow := by
  by_cases fits : Fits n
  · rw [narrow_of_fits fits] at narrowed
    cases narrowed
  · rw [narrow_of_not_fits fits] at narrowed
    cases narrowed
    exact ⟨fits, rfl⟩

theorem exact_narrow (n : Int) : Exact n (narrow n) := by
  by_cases fits : Fits n
  · rw [narrow_of_fits fits]
    exact .held (toInt_ofInt fits)
  · rw [narrow_of_not_fits fits]
    exact .overflow fits

theorem bmod_of_fits {n : Int} (fits : Fits n) : n.bmod (2 ^ 64) = n :=
  Int.bmod_eq_of_le fits.1 fits.2

/-! ### Division -/

theorem floor_div (a b : Int) : ⌊(a : ℚ) / b⌋ = a.fdiv b := by
  have positive : ∀ (a : Int) (n : Nat), ⌊(a : ℚ) / (n : Int)⌋ = a.fdiv n := fun a n => by
    rw [Int.cast_natCast, Rat.floor_intCast_div_natCast, Int.fdiv_eq_ediv_of_nonneg _ n.cast_nonneg]
  obtain ⟨n, rfl | rfl⟩ := b.eq_nat_or_neg
  · exact positive a n
  · rw [← Int.neg_fdiv_neg, neg_neg, ← positive, Int.cast_neg, Int.cast_neg, div_neg, neg_div]

theorem tmod_neg_iff {a b : Int} (indivisible : ¬ b ∣ a) : a.tmod b < 0 ↔ a < 0 := by
  have sign := Int.sign_tmod a b
  rw [if_neg indivisible] at sign
  rw [← Int.sign_eq_neg_one_iff_neg, sign, Int.sign_eq_neg_one_iff_neg]

theorem roundsUp_iff {a b : Int64} : roundsUp (a % b) b = true ↔
    ¬ b.toInt ∣ a.toInt ∧ (a.toInt < 0 ↔ 0 ≤ b.toInt) := by
  have zero : a % b = 0 ↔ b.toInt ∣ a.toInt := by
    rw [← Int64.toInt_inj, Int64.toInt_mod, Int.dvd_iff_tmod_eq_zero]
    rfl
  have left : a % b < 0 ↔ a.toInt.tmod b.toInt < 0 := by
    rw [Int64.lt_iff_toInt_lt, Int64.toInt_mod]
    rfl
  have right : b < 0 ↔ b.toInt < 0 := Int64.lt_iff_toInt_lt
  simp only [roundsUp, Bool.and_eq_true, bne_iff_ne, ne_eq, decide_eq_decide, zero, left, right]
  refine and_congr_right fun indivisible => ?_
  rw [tmod_neg_iff indivisible, ← not_lt]
  exact not_iff.trans (not_iff_comm.trans Iff.comm)

/-- The words' own division rounds toward zero, which is down unless it is corrected. -/
theorem fdiv_eq (a b : Int64) (nonzero : b ≠ 0) : a.toInt.fdiv b.toInt =
    if roundsUp (a % b) b then a.toInt.tdiv b.toInt - 1 else a.toInt.tdiv b.toInt := by
  have nonzero : b.toInt ≠ 0 := fun zero => nonzero (Int64.toInt_inj.mp zero)
  rw [Int.fdiv_eq_tdiv]
  by_cases up : roundsUp (a % b) b = true
  · obtain ⟨indivisible, sides⟩ := roundsUp_iff.mp up
    rw [if_pos up, if_neg indivisible]
    by_cases below : a.toInt < 0
    · rw [if_neg (not_le.mpr below), if_pos (sides.mp below),
        Int.sign_eq_one_of_pos (lt_of_le_of_ne (sides.mp below) nonzero.symm)]
    · rw [if_pos (not_lt.mp below), if_neg (fun le => below (sides.mpr le))]
  · rw [if_neg up]
    by_cases divisible : b.toInt ∣ a.toInt
    · rw [if_pos divisible, Int.sub_zero]
    · have sides : ¬ (a.toInt < 0 ↔ 0 ≤ b.toInt) :=
        fun sides => up (roundsUp_iff.mpr ⟨divisible, sides⟩)
      rw [if_neg divisible]
      by_cases below : a.toInt < 0
      · have neg : b.toInt < 0 := not_le.mp fun le => sides (iff_of_true below le)
        rw [if_neg (not_le.mpr below), if_neg (not_le.mpr neg), Int.sign_eq_neg_one_of_neg neg]
        omega
      · have nonneg : 0 ≤ b.toInt := not_lt.mp fun lt => sides (iff_of_false below (not_le.mpr lt))
        rw [if_pos (not_lt.mp below), if_pos nonneg, Int.sub_zero]

variable {a b : Int64}

/-- A divisor other than 1 and -1 at least halves the dividend. -/
theorem natAbs_tdiv_le (wide : b.toInt.natAbs ≠ 1) :
    (a.toInt.tdiv b.toInt).natAbs ≤ 0x4000000000000000 := by
  have fits := fits_toInt a
  unfold Fits at fits
  rw [Int.natAbs_tdiv]
  show a.toInt.natAbs / b.toInt.natAbs ≤ 0x4000000000000000
  rcases Nat.eq_zero_or_pos b.toInt.natAbs with zero | positive
  · rw [zero, Nat.div_zero]
    exact Nat.zero_le _
  · calc
      a.toInt.natAbs / b.toInt.natAbs ≤ a.toInt.natAbs / 2 :=
        Nat.div_le_div_left (by omega) (by decide)
      _ ≤ 0x4000000000000000 := by omega

/-- A quotient is corrected only if the divisor is at least two away from zero. -/
theorem small_of_roundsUp (up : roundsUp (a % b) b = true) :
    (a.toInt.tdiv b.toInt).natAbs ≤ 0x4000000000000000 := by
  obtain ⟨indivisible, -⟩ := roundsUp_iff.mp up
  exact natAbs_tdiv_le fun one => indivisible (Int.isUnit_iff_natAbs_eq.mpr one).dvd

/-- The correction of quotient and rest does not wrap around. -/
theorem toInt_corrected {quotient : Int64} (divided : quotient.toInt = a.toInt.tdiv b.toInt)
    (up : roundsUp (a % b) b = true) :
    (quotient - 1).toInt = quotient.toInt - 1 ∧ (a % b + b).toInt = (a % b).toInt + b.toInt := by
  have small := small_of_roundsUp up
  obtain ⟨indivisible, sides⟩ := roundsUp_iff.mp up
  have one : (1 : Int64).toInt = 1 := rfl
  have fits := fits_toInt b
  have fits' := fits_toInt (a % b)
  rw [Int64.toInt_mod] at fits'
  have below := tmod_neg_iff indivisible
  constructor
  · rw [Int64.toInt_sub, one]
    exact bmod_of_fits (by unfold Fits; omega)
  · rw [Int64.toInt_add, Int64.toInt_mod]
    refine bmod_of_fits ?_
    unfold Fits at fits fits' ⊢
    omega

theorem divMod_of_narrow (nonzero : b ≠ 0) {quotient : Int64}
    (narrowed : narrow (a.toInt.tdiv b.toInt) = .ok quotient) : divMod a b =
      .ok (if roundsUp (a % b) b then (quotient - 1, a % b + b) else (quotient, a % b)) := by
  rw [divMod, if_neg nonzero, narrowed]
  rfl

theorem exact_floorDiv (nonzero : b ≠ 0) : Exact (a.toInt.fdiv b.toInt) (floorDiv a b) := by
  rw [floorDiv, fdiv_eq a b nonzero]
  cases narrowed : narrow (a.toInt.tdiv b.toInt) with
  | ok quotient =>
    have divided := toInt_of_narrow narrowed
    rw [divMod_of_narrow nonzero narrowed]
    by_cases up : roundsUp (a % b) b = true
    · rw [if_pos up, if_pos up, ← divided, ← (toInt_corrected divided up).1]
      exact .held rfl
    · rw [if_neg up, if_neg up]
      exact .held divided
  | error fault =>
    obtain ⟨wide, rfl⟩ := wide_of_narrow narrowed
    have exactly : ¬ roundsUp (a % b) b = true := by
      intro up
      have small := small_of_roundsUp up
      unfold Fits at wide
      omega
    rw [divMod, if_neg nonzero, narrowed, if_neg exactly]
    exact .overflow wide

/-! ### Powers -/

theorem natAbs_le_of_fits {n : Int} (fits : Fits n) : n.natAbs ≤ 2 ^ 63 := by
  unfold Fits at fits
  omega

theorem lt_natAbs_of_not_fits {n : Int} (wide : ¬ Fits n) : 2 ^ 63 ≤ n.natAbs := by
  unfold Fits at wide
  omega

/-- A base whose square is too large has only powers that are too large. -/
theorem wide_of_square {base result : Int} {exponent : Nat} (nonzero : result ≠ 0)
    (wide : ¬ Fits (base * base)) (two : 2 ≤ exponent) : ¬ Fits (result * base ^ exponent) := by
  intro fits
  have bound := natAbs_le_of_fits fits
  have square := lt_natAbs_of_not_fits wide
  rw [Int.natAbs_mul] at square
  -- The largest word that the square of an integer equals is not the first that is too large.
  have large : 3037000500 ≤ base.natAbs := by
    by_contra small
    have : base.natAbs * base.natAbs ≤ 3037000499 * 3037000499 := Nat.mul_le_mul (by omega) (by omega)
    omega
  have : 3037000500 ^ 2 ≤ result.natAbs * base.natAbs ^ exponent := calc
    3037000500 ^ 2 ≤ base.natAbs ^ 2 := Nat.pow_le_pow_left large 2
    _ ≤ base.natAbs ^ exponent := Nat.pow_le_pow_right (by omega) two
    _ ≤ result.natAbs * base.natAbs ^ exponent := Nat.le_mul_of_pos_left _ (Int.natAbs_pos.mpr nonzero)
  rw [Int.natAbs_mul, Int.natAbs_pow] at bound
  omega

theorem pow_of_small {base : Int} (small : base.natAbs ≤ 1) {exponent : Nat} (odd : exponent % 2 = 1) :
    base ^ exponent = base := by
  have unit : base = 0 ∨ base = 1 ∨ base = -1 := by omega
  rcases unit with rfl | rfl | rfl
  · exact zero_pow (by omega)
  · exact one_pow _
  · exact Odd.neg_one_pow (Nat.odd_iff.mpr odd)

/-- A product that is too large stays so if it is multiplied by an even power of its factor. -/
theorem wide_of_product {base result : Int} {exponent : Nat} (wide : ¬ Fits (result * base))
    (odd : exponent % 2 = 1) : ¬ Fits (result * base ^ exponent) := by
  by_cases small : base.natAbs ≤ 1
  · rwa [pow_of_small small odd]
  · by_cases one : exponent = 1
    · rwa [one, pow_one]
    · intro fits
      have bound := natAbs_le_of_fits fits
      have product := lt_natAbs_of_not_fits wide
      obtain ⟨more, rfl⟩ := Nat.exists_eq_add_of_le' (by omega : 1 ≤ exponent)
      have : 2 ^ 63 * 2 ≤ (result * base).natAbs * base.natAbs ^ more :=
        Nat.mul_le_mul product (calc
          2 ≤ base.natAbs := by omega
          _ = base.natAbs ^ 1 := (pow_one _).symm
          _ ≤ base.natAbs ^ more := Nat.pow_le_pow_right (by omega) (by omega))
      rw [← Int.natAbs_pow, ← Int.natAbs_mul, mul_assoc, ← pow_succ'] at this
      omega

/-- Squaring reports an overflow only if the power itself does not fit. -/
theorem powTimes_eq {base result : Int64} {exponent : Nat} (zero : result.toInt = 0 → base.toInt = 0) :
    powTimes base result exponent = narrow (result.toInt * base.toInt ^ exponent) := by
  induction exponent using Nat.strong_induction_on generalizing base result with
  | _ exponent ih =>
    rw [powTimes]
    split
    · next none => rw [none, pow_zero, mul_one, narrow_toInt]
    split
    · next one =>
      rw [one, pow_one]
      rfl
    next none one =>
    have nonzero : ¬ Fits (base.toInt * base.toInt) → result.toInt ≠ 0 := by
      intro wide none
      rw [zero none] at wide
      exact wide (by decide)
    -- What is left after the factor that makes the exponent even.
    have further : ∀ product : Int64, (product.toInt = 0 → base.toInt = 0) →
        product.toInt * (base.toInt * base.toInt) ^ (exponent / 2) =
          result.toInt * base.toInt ^ exponent →
        (do
          let square ← mul base base
          powTimes square product (exponent / 2)) = narrow (result.toInt * base.toInt ^ exponent) := by
      intro product zero' same
      cases squared : mul base base with
      | ok square =>
        have toInt : square.toInt = base.toInt * base.toInt := toInt_of_narrow squared
        rw [← same, ← toInt]
        apply ih (exponent / 2) (by omega)
        intro none
        rw [toInt, zero' none, mul_zero]
      | error fault =>
        obtain ⟨wide, rfl⟩ := wide_of_narrow squared
        rw [narrow_of_not_fits (wide_of_square (nonzero wide) wide (by omega))]
        rfl
    have halves : exponent = 2 * (exponent / 2) + exponent % 2 := (Nat.div_add_mod _ _).symm
    by_cases odd : exponent % 2 = 1
    · rw [if_pos odd]
      cases multiplied : mul result base with
      | ok product =>
        have toInt : product.toInt = result.toInt * base.toInt := toInt_of_narrow multiplied
        apply further product
        · intro none
          rw [toInt] at none
          exact (mul_eq_zero.mp none).elim zero id
        · nth_rewrite 2 [halves]
          rw [toInt, odd, pow_succ, pow_mul, pow_two]
          ring
      | error fault =>
        obtain ⟨wide, rfl⟩ := wide_of_narrow multiplied
        rw [narrow_of_not_fits (wide_of_product wide odd)]
        rfl
    · rw [if_neg odd]
      apply further result zero
      nth_rewrite 2 [halves]
      rw [Nat.mod_two_not_eq_one.mp odd, add_zero, pow_mul, pow_two]

theorem exact_pow {base exponent : Int64} (nonneg : 0 ≤ exponent.toInt) :
    Exact (base.toInt ^ exponent.toInt.toNat) (pow base exponent) := by
  have limit : exponent < 0x100000000 ↔ exponent.toInt < 0x100000000 := Int64.lt_iff_toInt_lt
  rw [pow]
  split
  · rw [powTimes_eq fun none => absurd none (by decide)]
    have one : (1 : Int64).toInt = 1 := rfl
    rw [one, one_mul]
    exact exact_narrow _
  next large =>
  rw [limit] at large
  obtain ⟨n, same⟩ := Int.eq_ofNat_of_zero_le nonneg
  rw [same, Int.toNat_natCast]
  split
  · next unit =>
    rcases unit with rfl | rfl
    · exact .held (zero_pow (by omega)).symm
    · exact .held (one_pow n).symm
  next other =>
  have mod : (exponent % 2).toInt = (n % 2 : Nat) := by
    rw [Int64.toInt_mod, same]
    exact Int.ofNat_tmod n 2 |>.symm
  split
  · next minus =>
    subst minus
    have even : exponent % 2 = 0 ↔ Even n := by
      rw [← Int64.toInt_inj, mod, Nat.even_iff]
      exact Int.natCast_eq_zero
    refine .held ?_
    by_cases isEven : Even n
    · rw [if_pos (even.mpr isEven)]
      exact isEven.neg_one_pow.symm
    · rw [if_neg (mt even.mp isEven)]
      exact (Nat.not_even_iff_odd.mp isEven).neg_one_pow.symm
  · next notMinus =>
    have two : 2 ≤ base.toInt.natAbs := by
      have unlike : ∀ word : Int64, base ≠ word → base.toInt ≠ word.toInt :=
        fun word different same => different (Int64.toInt_inj.mp same)
      have zero : base.toInt ≠ 0 := unlike 0 fun same => other (.inl same)
      have one : base.toInt ≠ 1 := unlike 1 fun same => other (.inr same)
      have minusOne : base.toInt ≠ -1 := unlike (-1) notMinus
      omega
    refine .overflow fun fits => ?_
    have bound := natAbs_le_of_fits fits
    have : 2 ^ 64 ≤ base.toInt.natAbs ^ n := calc
      2 ^ 64 ≤ 2 ^ n := Nat.pow_le_pow_right (by decide) (by omega)
      _ ≤ base.toInt.natAbs ^ n := Nat.pow_le_pow_left two n
    rw [Int.natAbs_pow] at bound
    omega

/-! ### Shifts -/

theorem toInt_shiftRight (a : Int64) {count : Nat} (small : count < 64) :
    (a >>> Int64.ofNat count).toInt = a.toInt / 2 ^ count := by
  have same : ∀ count : Fin 64, ((Int64.ofNat count).toBitVec.smod 64).toNat = count := by
    decide
  have shifted : (a >>> Int64.ofNat count).toInt =
      (a.toBitVec.sshiftRight' ((Int64.ofNat count).toBitVec.smod 64)).toInt := by
    rw [← Int64.toBitVec_shiftRight]
    rfl
  rw [shifted, BitVec.toInt_sshiftRight', same ⟨count, small⟩, Int.shiftRight_eq_div_pow]
  push_cast
  rfl

/-- Past 64 places only the sign is left. -/
theorem ediv_of_large (a : Int64) {count : Nat} (large : 64 ≤ count) :
    a.toInt / 2 ^ count = if a < 0 then -1 else 0 := by
  have fits := fits_toInt a
  have left : a < 0 ↔ a.toInt < 0 := Int64.lt_iff_toInt_lt
  have wide : (2 : Int) ^ 64 ≤ 2 ^ count := pow_le_pow_right₀ (by decide) large
  unfold Fits at fits
  by_cases below : a.toInt < 0
  · rw [if_pos (left.mpr below)]
    exact Int.ediv_eq_neg_one_of_neg_of_le below (by omega)
  · rw [if_neg (mt left.mp below)]
    exact Int.ediv_eq_zero_of_lt (not_lt.mp below) (by omega)

theorem exact_shiftRight {a count : Int64} (nonneg : 0 ≤ count.toInt) :
    Exact (a.toInt / 2 ^ count.toInt.toNat) (shiftRight a count) := by
  have notBelow : ¬ count < 0 := by
    rw [Int64.lt_iff_toInt_lt]
    exact not_lt.mpr nonneg
  rw [shiftRight, shiftCount, if_neg notBelow]
  show Exact _ (if 64 ≤ min count.toInt.toNat 0xffffffff then .ok (if a < 0 then -1 else 0)
    else .ok (a >>> Int64.ofNat (min count.toInt.toNat 0xffffffff)))
  by_cases large : 64 ≤ count.toInt.toNat
  · rw [if_pos (le_min large (by decide)), ediv_of_large a large]
    refine .held ?_
    split <;> rfl
  · rw [Nat.min_eq_left (by omega), if_neg large]
    exact .held (toInt_shiftRight a (by omega))

theorem exact_not (a : Int64) : Exact (-a.toInt - 1) (.ok (~~~a)) := by
  have fits := fits_toInt a
  refine .held ?_
  rw [Int64.toInt_not, bmod_of_fits]
  unfold Fits at fits ⊢
  omega

theorem exact_abs (a : Int64) : Exact |a.toInt| (abs a) := by
  rw [Int.abs_eq_natAbs]
  exact exact_narrow _

end Integer

end Offside
