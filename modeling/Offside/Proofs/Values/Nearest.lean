import Offside.Proofs.Values.Floats

/-!
# The float nearest to an integer

`Binary64.nearest` rounds an integer to 53 significant bits, from the middle to the even one.
`amount?_ofInt` says that this is what the conversion to a float stands for, by whichever of its ways it
takes.
-/

namespace Offside.Binary64

open Float.Model Float.Model.UnpackedFloat

/-! ### Rounding to the nearest -/

/-- The integer nearest to `a / d`, and the even one of two. -/
def nearestQuotient (a d : Nat) : Nat :=
  if 2 * (a % d) < d then a / d
  else if 2 * (a % d) = d then a / d + a / d % 2
  else a / d + 1

theorem nearestQuotient_one (a : Nat) : nearestQuotient a 1 = a := by
  rw [nearestQuotient, Nat.mod_one, if_pos (by decide), Nat.div_one]

theorem nearestQuotient_mul (a d : Nat) {c : Nat} (positive : 0 < c) :
    nearestQuotient (a * c) (d * c) = nearestQuotient a d := by
  have less : 2 * (a % d) * c < d * c ↔ 2 * (a % d) < d := Nat.mul_lt_mul_right positive
  have same : 2 * (a % d) * c = d * c ↔ 2 * (a % d) = d := Nat.mul_left_inj positive.ne'
  rw [nearestQuotient, Nat.mul_div_mul_right _ _ positive, Nat.mul_mod_mul_right, ← mul_assoc]
  simp only [less, same]
  rfl

theorem le_nearestQuotient (a d : Nat) : a / d ≤ nearestQuotient a d := by
  rw [nearestQuotient]
  split
  · exact le_rfl
  split <;> omega

theorem nearestQuotient_le (a d : Nat) : nearestQuotient a d ≤ a / d + 1 := by
  rw [nearestQuotient]
  split
  · omega
  split <;> omega

theorem nearestQuotient_mono (d : Nat) : Monotone (nearestQuotient · d) := fun a b le => by
  show nearestQuotient a d ≤ nearestQuotient b d
  have quotients : a / d ≤ b / d := Nat.div_le_div_right le
  rcases quotients.lt_or_eq with less | same
  · exact (nearestQuotient_le a d).trans (Nat.le_trans less (le_nearestQuotient b d))
  · have rests : a % d ≤ b % d := by
      have first := Nat.div_add_mod a d
      have second := Nat.div_add_mod b d
      rw [same] at first
      omega
    rw [nearestQuotient, nearestQuotient, same]
    split_ifs <;> omega

/-- The bits shifted out of a quotient are told by one that says whether they are at least a half, and
one that says whether they are neither nothing nor a half. -/
theorem shifted_quotient (a k : Nat) {d : Nat} (positive : 0 < d) :
    ExtendedMantissa.ofMantissaAndAccuracy (a / d) (accuracyOfFraction (a % d) d) >>> k =
      ⟨a / (d * 2 ^ k), decide (d * 2 ^ k ≤ 2 * (a % (d * 2 ^ k))),
        decide (a % (d * 2 ^ k) ≠ 0 ∧ 2 * (a % (d * 2 ^ k)) ≠ d * 2 ^ k)⟩ := by
  induction k with
  | zero =>
    show ExtendedMantissa.ofMantissaAndAccuracy (a / d) (accuracyOfFraction (a % d) d) = _
    rw [pow_zero, mul_one, accuracyOfFraction]
    rcases Nat.eq_zero_or_pos (a % d) with none | some
    · rw [if_pos none, none]
      simp [ExtendedMantissa.ofMantissaAndAccuracy, positive.ne']
    · rw [if_neg some.ne']
      rcases lt_trichotomy (2 * (a % d)) d with less | tie | more
      · rw [compare_lt_iff_lt.mpr less]
        simp [ExtendedMantissa.ofMantissaAndAccuracy, some.ne', less, less.ne]
      · rw [compare_eq_iff_eq.mpr tie]
        simp [ExtendedMantissa.ofMantissaAndAccuracy, tie]
      · rw [compare_gt_iff_gt.mpr more]
        simp [ExtendedMantissa.ofMantissaAndAccuracy, some.ne', more.le, more.ne']
  | succ k ih =>
    have width : 0 < d * 2 ^ k := Nat.mul_pos positive (Nat.two_pow_pos k)
    have below : a % (d * 2 ^ k) < d * 2 ^ k := Nat.mod_lt a width
    have rest : a % (d * 2 ^ (k + 1)) =
        a % (d * 2 ^ k) + d * 2 ^ k * (a / (d * 2 ^ k) % 2) := by
      rw [pow_succ, ← mul_assoc, Nat.mod_mul]
    show (ExtendedMantissa.ofMantissaAndAccuracy (a / d) (accuracyOfFraction (a % d) d) >>> k
      ).shiftRightOne = _
    rw [ih, ExtendedMantissa.shiftRightOne, rest, Nat.div_div_eq_div_mul, mul_assoc, ← pow_succ]
    -- The lowest bit left becomes the first of those shifted out.
    rcases Nat.mod_two_eq_zero_or_one (a / (d * 2 ^ k)) with even | odd
    · rw [even, pow_succ, ← mul_assoc]
      congr 1
      · exact (decide_eq_false (by omega)).symm
      · rw [← Bool.decide_or, decide_eq_decide]
        omega
    · rw [odd, pow_succ, ← mul_assoc]
      congr 1
      · exact (decide_eq_true (by omega)).symm
      · rw [← Bool.decide_or, decide_eq_decide]
        omega

/-- Which of its neighbours a shifted quotient goes to. -/
theorem roundedMantissa_quotient (a k : Nat) {d : Nat} (positive : 0 < d) :
    (ExtendedMantissa.ofMantissaAndAccuracy (a / d) (accuracyOfFraction (a % d) d) >>> k
      ).roundedMantissa = nearestQuotient a (d * 2 ^ k) := by
  rw [shifted_quotient a k positive, nearestQuotient]
  rcases lt_trichotomy (2 * (a % (d * 2 ^ k))) (d * 2 ^ k) with less | tie | more
  · rw [if_pos less, decide_eq_false (not_le.mpr less)]
    cases decide (a % (d * 2 ^ k) ≠ 0 ∧ 2 * (a % (d * 2 ^ k)) ≠ d * 2 ^ k) <;> rfl
  · rw [if_neg tie.not_lt, if_pos tie, decide_eq_true tie.ge, decide_eq_false fun apart => apart.2 tie]
    rfl
  · rw [if_neg more.not_gt, if_neg more.ne', decide_eq_true more.le,
      decide_eq_true ⟨by omega, more.ne'⟩]
    rfl

theorem roundedMantissa_shifted (m k : Nat) :
    (ExtendedMantissa.ofMantissaAndAccuracy m .exact >>> k).roundedMantissa =
      nearestQuotient m (2 ^ k) := by
  have whole := roundedMantissa_quotient m k one_pos
  rwa [Nat.div_one, Nat.mod_one, one_mul] at whole

/-! ### Rounding an integer -/

/-- A positive integer at the scale that gives it 53 bits, rounded. -/
def significand (n : Nat) : Nat := nearestQuotient (n * 2 ^ 52) (2 ^ n.log2)

variable {n : Nat}

theorem le_significand (positive : 0 < n) : 2 ^ 52 ≤ significand n := by
  refine le_trans ?_ (le_nearestQuotient _ _)
  rw [Nat.le_div_iff_mul_le (Nat.two_pow_pos _), mul_comm]
  exact Nat.mul_le_mul_right _ (Nat.log2_self_le positive.ne')

theorem significand_le (n : Nat) : significand n ≤ 2 ^ 53 := by
  refine (nearestQuotient_le _ _).trans ?_
  rw [Nat.succ_le_iff, Nat.div_lt_iff_lt_mul (Nat.two_pow_pos _)]
  calc
    n * 2 ^ 52 < 2 ^ (n.log2 + 1) * 2 ^ 52 := Nat.mul_lt_mul_of_pos_right Nat.lt_log2_self (by decide)
    _ = 2 ^ 53 * 2 ^ n.log2 := by ring

/-- The float nearest to a positive integer. Rounding up may take one bit more than there is. -/
def nearestTo (s : Sign) (n : Nat) (positive : 0 < n) : UnpackedFloat :=
  if significand n < 2 ^ 53 then
    .finite s (significand n) (n.log2 - 52) (Nat.lt_of_lt_of_le (by decide) (le_significand positive))
  else .finite s (2 ^ 52) (n.log2 - 51) (by decide)

theorem shiftToTargetExponent_eq {m k : Nat} {e : Int} {accuracy : Accuracy}
    (places : (max ((m.log2 : Int) + 1 + e - 53) (-1074) - e).toNat = k) :
    shiftToTargetExponent Format.binary64 m e accuracy =
      (ExtendedMantissa.ofMantissaAndAccuracy m accuracy >>> k, e + k) := by
  subst places
  rfl

theorem log2_mul_two_pow (positive : 0 < n) (j : Nat) : (n * 2 ^ j).log2 = n.log2 + j := by
  have power : 0 < 2 ^ j := Nat.two_pow_pos j
  refine (Nat.log2_eq_iff (Nat.mul_pos positive power).ne').mpr ⟨?_, ?_⟩
  · rw [pow_add]
    exact Nat.mul_le_mul_right _ (Nat.log2_self_le positive.ne')
  · rw [add_right_comm, pow_add]
    exact Nat.mul_lt_mul_of_pos_right Nat.lt_log2_self power

/-- However an integer is scaled, the same number is rounded. -/
theorem nearestQuotient_scaled {j k : Nat} (total : n.log2 + j = 52 + k) :
    nearestQuotient (n * 2 ^ j) (2 ^ k) = significand n := by
  rcases Nat.le_total 52 j with large | small
  · obtain ⟨i, rfl⟩ := Nat.exists_eq_add_of_le large
    rw [show k = n.log2 + i by omega, pow_add, pow_add, ← mul_assoc,
      nearestQuotient_mul _ _ (Nat.two_pow_pos i), significand]
  · obtain ⟨i, same⟩ := Nat.exists_eq_add_of_le small
    rw [significand, same, show n.log2 = k + i by omega, pow_add, pow_add, ← mul_assoc,
      nearestQuotient_mul _ _ (Nat.two_pow_pos i)]

/-- A rounded significand is shifted once more only if rounding up gave it one bit too many. -/
theorem shiftToTargetExponent_rounded {m : Nat} {e : Int} (low : -1074 ≤ e)
    (full : 2 ^ 52 ≤ m ∨ e = -1074) (bound : m ≤ 2 ^ 53) :
    shiftToTargetExponent Format.binary64 m e .exact =
      if m < 2 ^ 53 then (⟨m, false, false⟩, e) else (⟨2 ^ 52, false, false⟩, e + 1) := by
  split
  · next short =>
    have places : (max ((m.log2 : Int) + 1 + e - 53) (-1074) - e).toNat = 0 := by
      rcases Nat.eq_zero_or_pos m with rfl | positive
      · rw [Nat.log2_zero]
        omega
      · have bits := (Nat.log2_lt positive.ne').mpr short
        omega
    rw [shiftToTargetExponent_eq places, Int.natCast_zero, add_zero]
    rfl
  · next long =>
    rw [show m = 2 ^ 53 by omega, shiftToTargetExponent_eq (k := 1) (by rw [Nat.log2_two_pow]; omega)]
    rfl

/-- However an integer is scaled before, it is rounded to the same float. -/
theorem roundWithAccuracy_eq (s : Sign) {j : Nat} (positive : 0 < n) (enough : 52 ≤ n.log2 + j) :
    roundWithAccuracy Format.binary64 s (n * 2 ^ j) (-j) .exact = nearestTo s n positive := by
  obtain ⟨k, total⟩ := Nat.exists_eq_add_of_le enough
  have bits := log2_mul_two_pow positive j
  have exponent : -(j : Int) + k = n.log2 - 52 := by omega
  rw [roundWithAccuracy, shiftToTargetExponent_eq (k := k) (by rw [bits]; omega), exponent]
  simp only [roundedMantissa_shifted, nearestQuotient_scaled total,
    shiftToTargetExponent_rounded (show -1074 ≤ (n.log2 : Int) - 52 by omega)
      (.inl (le_significand positive)) (significand_le n)]
  by_cases short : significand n < 2 ^ 53
  · have nonzero : significand n ≠ 0 := by
      have := le_significand positive
      omega
    simp only [if_pos short, dif_neg nonzero, nearestTo]
  · simp only [if_neg short, nearestTo]
    rw [dif_neg (by decide)]
    congr 1
    omega

/-! ### What the nearest float stands for -/

/-- A natural number rounded to 53 significant bits. -/
def nearestNat (n : Nat) : Nat :=
  let places := n.log2 - 52
  nearestQuotient n (2 ^ places) * 2 ^ places

/-- An integer rounded to 53 significant bits, to the nearest and from the middle to the even one. -/
def nearest (n : Int) : Int := n.sign * nearestNat n.natAbs

theorem scaled_significand (n : Nat) : scaled (significand n) (n.log2 - 52) = nearestNat n := by
  rw [nearestNat]
  rcases Nat.le_total 52 n.log2 with large | small
  · obtain ⟨i, same⟩ := Nat.exists_eq_add_of_le large
    have rounded := nearestQuotient_scaled (n := n) (j := 0) (k := i) same
    rw [pow_zero, mul_one] at rounded
    rw [scaled, show n.log2 - 52 = i by omega, show (n.log2 : Int) - 52 = i by omega, rounded]
    push_cast
    rw [zpow_natCast]
  · obtain ⟨j, same⟩ := Nat.exists_eq_add_of_le small
    have rounded := nearestQuotient_scaled (n := n) (j := j) (k := 0) same.symm
    rw [pow_zero, nearestQuotient_one] at rounded
    rw [scaled, ← rounded, show n.log2 - 52 = 0 by omega, show (n.log2 : Int) - 52 = -j by omega,
      pow_zero, nearestQuotient_one, mul_one]
    push_cast
    rw [zpow_neg, zpow_natCast, mul_assoc, mul_inv_cancel₀ (by positivity), mul_one]

theorem amountOf?_nearestTo (s : Sign) (positive : 0 < n) :
    amountOf? (nearestTo s n positive) = some (.ofRat (s.apply (nearestNat n) : Int)) := by
  have same := scaled_significand n
  have carried : ¬ significand n < 2 ^ 53 →
      scaled (2 ^ 52) (n.log2 - 51) = scaled (significand n) (n.log2 - 52) := fun long => by
    have top : significand n = 2 ^ 53 := Nat.le_antisymm (significand_le n) (not_lt.mp long)
    rw [top, scaled, scaled, show (n.log2 : Int) - 51 = n.log2 - 52 + 1 by omega,
      zpow_add_one₀ two_ne_zero]
    push_cast
    ring
  rw [nearestTo]
  split
  · cases s <;> simp only [amountOf?, same, Sign.apply] <;> push_cast <;> rfl
  · next long =>
    cases s <;> simp only [amountOf?, carried long, same, Sign.apply] <;> push_cast <;> rfl

theorem canonical_nearestTo (s : Sign) (positive : 0 < n) (small : n < 2 ^ 128) :
    Canonical (nearestTo s n positive) := by
  have bits := (Nat.log2_lt positive.ne').mpr small
  have full := le_significand positive
  rw [nearestTo]
  split
  · next short => exact ⟨short, by omega, by omega, .inl full⟩
  · exact ⟨by decide, by omega, by omega, .inl (by decide)⟩

/-! ### The order -/

theorem nearestNat_le (n : Nat) : nearestNat n ≤ 2 ^ (n.log2 + 1) := by
  have total : n.log2 + 1 = n.log2 + 1 - (n.log2 - 52) + (n.log2 - 52) := by omega
  have quotient : n / 2 ^ (n.log2 - 52) < 2 ^ (n.log2 + 1 - (n.log2 - 52)) := by
    rw [Nat.div_lt_iff_lt_mul (Nat.two_pow_pos _), ← pow_add, ← total]
    exact Nat.lt_log2_self
  calc
    nearestNat n ≤ 2 ^ (n.log2 + 1 - (n.log2 - 52)) * 2 ^ (n.log2 - 52) :=
      Nat.mul_le_mul_right _ ((nearestQuotient_le _ _).trans quotient)
    _ = 2 ^ (n.log2 + 1) := by rw [← pow_add, ← total]

theorem le_nearestNat (positive : 0 < n) : 2 ^ n.log2 ≤ nearestNat n := by
  have total : n.log2 = n.log2 - (n.log2 - 52) + (n.log2 - 52) := by omega
  have quotient : 2 ^ (n.log2 - (n.log2 - 52)) ≤ n / 2 ^ (n.log2 - 52) := by
    rw [Nat.le_div_iff_mul_le (Nat.two_pow_pos _), ← pow_add, ← total]
    exact Nat.log2_self_le positive.ne'
  calc
    2 ^ n.log2 = 2 ^ (n.log2 - (n.log2 - 52)) * 2 ^ (n.log2 - 52) := by rw [← pow_add, ← total]
    _ ≤ nearestNat n := Nat.mul_le_mul_right _ (quotient.trans (le_nearestQuotient _ _))

/-- Numbers of one length round to multiples of one power, and others to either side of a power. -/
theorem nearestNat_mono : Monotone nearestNat := fun m n le => by
  rcases Nat.eq_zero_or_pos m with rfl | positive
  · exact Nat.zero_le _
  have positive' : 0 < n := by omega
  have lengths : m.log2 ≤ n.log2 :=
    (Nat.le_log2 positive'.ne').mpr ((Nat.log2_self_le positive.ne').trans le)
  rcases lengths.lt_or_eq with shorter | same
  · calc
      nearestNat m ≤ 2 ^ (m.log2 + 1) := nearestNat_le m
      _ ≤ 2 ^ n.log2 := Nat.pow_le_pow_right two_pos shorter
      _ ≤ nearestNat n := le_nearestNat positive'
  · rw [nearestNat, nearestNat, same]
    exact Nat.mul_le_mul_right _ (nearestQuotient_mono _ le)

theorem nearest_natCast (n : Nat) : nearest n = nearestNat n := by
  rcases Nat.eq_zero_or_pos n with rfl | positive
  · rfl
  · rw [nearest, Int.natAbs_natCast, Int.sign_natCast_of_ne_zero positive.ne', one_mul]

theorem nearest_neg (n : Int) : nearest (-n) = -nearest n := by
  rw [nearest, nearest, Int.natAbs_neg, Int.sign_neg, neg_mul]

theorem nearest_mono : Monotone nearest := fun m n le => by
  obtain ⟨j, rfl | rfl⟩ := m.eq_nat_or_neg <;> obtain ⟨k, rfl | rfl⟩ := n.eq_nat_or_neg <;>
    simp only [nearest_neg, nearest_natCast]
  · exact Int.ofNat_le.mpr (nearestNat_mono (Int.ofNat_le.mp le))
  · have zero : j = 0 := by omega
    have zero' : k = 0 := by omega
    rw [zero, zero']
    rfl
  · omega
  · exact neg_le_neg (Int.ofNat_le.mpr (nearestNat_mono (Int.ofNat_le.mp (neg_le_neg_iff.mp le))))

/-- An integer of at most 53 bits is itself a float. -/
theorem nearest_of_short {n : Int} (short : n.natAbs ≤ 2 ^ 53) : nearest n = n := by
  have same : nearestNat n.natAbs = n.natAbs := by
    rcases Nat.lt_or_ge n.natAbs (2 ^ 53) with below | above
    · have bits : n.natAbs.log2 - 52 = 0 := by
        rcases Nat.eq_zero_or_pos n.natAbs with zero | positive
        · rw [zero]
          rfl
        · have := (Nat.log2_lt positive.ne').mpr below
          omega
      rw [nearestNat, bits, pow_zero, nearestQuotient_one, mul_one]
    · rw [Nat.le_antisymm short above]
      decide
  rw [nearest, same, Int.sign_mul_natAbs]

/-- Only beyond 53 bits do two integers share their nearest float. -/
theorem long_of_nearest_eq {m n : Int} (same : nearest m = nearest n) (apart : m ≠ n) :
    2 ^ 53 ≤ m.natAbs := by
  by_contra short
  rw [nearest_of_short (not_le.mp short).le] at same
  rcases Nat.le_total n.natAbs (2 ^ 53) with short' | long
  · exact apart (same.trans (nearest_of_short short'))
  rcases Int.le_total 0 n with nonneg | nonpos
  · have above : nearest (2 ^ 53) ≤ nearest n := nearest_mono (by omega)
    rw [nearest_of_short (n := 2 ^ 53) (by decide)] at above
    omega
  · have below : nearest n ≤ nearest (-2 ^ 53) := nearest_mono (by omega)
    rw [nearest_of_short (n := -2 ^ 53) (by decide)] at below
    omega

/-! ### The conversion -/

/-- One, as the conversion multiplies with it. -/
theorem unpack_one : (Float.ofBits 0x3FF0000000000000).toModel.unpack =
    .finite .positive (2 ^ 52) (-52) (by decide) := by
  rfl

/-- A number of at most 53 bits is scaled up to 53. -/
theorem ofInt_short (positive : 0 < n) (short : n < 2 ^ 53) :
    UnpackedFloat.ofInt Format.binary64 n = nearestTo .positive n positive := by
  have bits := (Nat.log2_lt positive.ne').mpr short
  have above : compare (n : Int) 0 = .gt := compare_gt_iff_gt.mpr (Int.natCast_pos.mpr positive)
  have places : (0 - max ((n.log2 : Int) + 1 + 0 - 53) (-1074)).toNat = 52 - n.log2 := by omega
  rw [UnpackedFloat.ofInt, UnpackedFloat.normalize, above]
  show roundWithAccuracy Format.binary64 .positive
    (n <<< (0 - max ((n.log2 : Int) + 1 + 0 - 53) (-1074)).toNat)
    (0 - ((0 - max ((n.log2 : Int) + 1 + 0 - 53) (-1074)).toNat : Int)) .exact = _
  rw [places, Nat.shiftLeft_eq, zero_sub, roundWithAccuracy_eq _ positive (by omega)]

theorem nearestTo_of_short (s : Sign) (positive : 0 < n) (short : n < 2 ^ 53) :
    nearestTo s n positive =
      .finite s (n * 2 ^ (52 - n.log2)) (n.log2 - 52) (Nat.mul_pos positive (Nat.two_pow_pos _)) := by
  have bits := (Nat.log2_lt positive.ne').mpr short
  have whole : significand n = n * 2 ^ (52 - n.log2) := by
    rw [← nearestQuotient_scaled (n := n) (j := 52 - n.log2) (k := 0) (by omega), pow_zero,
      nearestQuotient_one]
  have below : significand n < 2 ^ 53 := by
    rw [whole]
    calc
      n * 2 ^ (52 - n.log2) < 2 ^ (n.log2 + 1) * 2 ^ (52 - n.log2) :=
        Nat.mul_lt_mul_of_pos_right Nat.lt_log2_self (Nat.two_pow_pos _)
      _ = 2 ^ 53 := by rw [← pow_add, show n.log2 + 1 + (52 - n.log2) = 53 by omega]
  rw [nearestTo, if_pos below]
  congr 1

theorem mul_finite {m e f} (s t : Sign) (positive : 0 < n) (positive' : 0 < m) :
    UnpackedFloat.mul Format.binary64 (.finite s n e positive) (.finite t m f positive') =
      roundWithAccuracy Format.binary64 (s * t) (n * m) (e + f) .exact := by
  rfl

/-- Up to 53 bits the conversion goes through a machine word, and multiplies with one. -/
theorem ofNat_short (positive : 0 < n) (short : n < 2 ^ 53) :
    Float.ofNat n = .ofModel (.pack (nearestTo .positive n positive)) := by
  have word : n.toUInt64.toNat = n := UInt64.toNat_ofNat_of_lt' (show n < 2 ^ 64 by omega)
  have bits := (Nat.log2_lt positive.ne').mpr short
  have first : UnpackedFloat.ofUInt64 Format.binary64 n.toUInt64 = nearestTo .positive n positive := by
    rw [UnpackedFloat.ofUInt64, UnpackedFloat.ofNat, word, ofInt_short positive short]
  have exponent : (n.log2 : Int) - 52 + -52 = -(104 - n.log2 : Nat) := by omega
  show Float.ofScientific n false 0 = _
  rw [Float.ofScientific, dif_pos ⟨short, by decide⟩]
  show Float.ofModel (.pack (UnpackedFloat.mul Format.binary64
    (Float.Model.pack (UnpackedFloat.ofUInt64 Format.binary64 n.toUInt64)).unpack
    (Float.ofBits 0x3FF0000000000000).toModel.unpack)) = _
  rw [first, unpack_pack (canonical_nearestTo _ positive (by omega)), unpack_one,
    nearestTo_of_short _ positive short, mul_finite, exponent, mul_assoc, ← pow_add,
    show 52 - n.log2 + 52 = 104 - n.log2 by omega]
  have again := roundWithAccuracy_eq (j := 104 - n.log2) .positive positive (by omega)
  exact congrArg (Float.ofModel <| .pack ·) (again.trans (nearestTo_of_short _ positive short))

theorem ofScientific_eq (positive : 0 < n) :
    UnpackedFloat.ofScientific Format.binary64 n 0 = nearestTo .positive n positive := by
  have limit : ¬ (0 : Int) < -((2 ^ Format.binary64.exponentBits : Int) + n.log2) := by
    have : (0 : Int) ≤ 2 ^ Format.binary64.exponentBits := by decide
    omega
  rw [UnpackedFloat.ofScientific, dif_neg positive.ne', if_neg (by decide), if_neg limit,
    if_pos (by decide), mul_finite, Nat.shiftLeft_eq, Int.toNat_zero, pow_zero, mul_one, add_zero]
  exact roundWithAccuracy_eq _ positive (Nat.le_add_left_of_le (by decide))

/-- Beyond 53 bits the conversion shifts the number first. -/
theorem ofNat_long (long : 2 ^ 53 ≤ n) :
    Float.ofNat n = .ofModel (.pack (nearestTo .positive n (by omega))) := by
  show Float.ofScientific n false 0 = _
  rw [Float.ofScientific, dif_neg (by omega)]
  exact congrArg (Float.ofModel <| .pack ·) (ofScientific_eq _)

theorem ofNat_eq (positive : 0 < n) :
    Float.ofNat n = .ofModel (.pack (nearestTo .positive n positive)) := by
  rcases Nat.lt_or_ge n (2 ^ 53) with short | long
  · exact ofNat_short positive short
  · exact ofNat_long long

theorem neg_nearestTo (positive : 0 < n) :
    (nearestTo .positive n positive).neg = nearestTo .negative n positive := by
  rw [nearestTo, nearestTo]
  split <;> rfl

/-- Converting an integer gives the float that stands for the integer rounded. -/
theorem amount?_ofInt {n : Int} (small : n.natAbs < 2 ^ 64) :
    amount? (Float.ofInt n) = some (.ofRat (nearest n : Int)) := by
  rcases n with n | n
  · rcases Nat.eq_zero_or_pos n with rfl | positive
    · rfl
    · have whole := canonical_nearestTo .positive positive (Nat.lt_trans small (by decide))
      show amount? (Float.ofNat n) = _
      rw [ofNat_eq positive]
      show amountOf? (Float.Model.pack (nearestTo .positive n positive)).unpack = _
      rw [unpack_pack whole, amountOf?_nearestTo, nearest, Int.ofNat_eq_natCast,
        Int.sign_natCast_of_ne_zero positive.ne', one_mul]
      rfl
  · have positive : 0 < n + 1 := n.succ_pos
    have whole := canonical_nearestTo .positive positive (Nat.lt_trans small (by decide))
    have whole' := canonical_nearestTo .negative positive (Nat.lt_trans small (by decide))
    show amount? (Float.neg (Float.ofNat (n + 1))) = _
    rw [ofNat_eq positive]
    show amountOf? (Float.Model.pack
      (Float.Model.pack (nearestTo .positive (n + 1) positive)).unpack.neg).unpack = _
    rw [unpack_pack whole, neg_nearestTo, unpack_pack whole', amountOf?_nearestTo, nearest,
      Int.sign_negSucc, neg_one_mul]
    rfl

end Offside.Binary64
