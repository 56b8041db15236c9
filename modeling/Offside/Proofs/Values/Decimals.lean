import Offside.Decimal.Shortest
import Offside.Proofs.Values.Rounding

/-!
# Decimals as floats

Whichever way a decimal takes to a float, it comes to the nearest one (`toFloat_eq`). So the decimals of
one number are read as one float (`toFloat_congr`), and the digits that `shortest` finds for a float are
read back as it (`toFloat_shortest`).
-/

namespace Offside.Decimal

open Binary64 Float.Model Float.Model.UnpackedFloat

variable {m : Nat} {e : Int}

/-! ### Floats with all their bits -/

/-- A positive float with 53 bits that stands for a natural number. -/
def Represents (f : UnpackedFloat) (n : Nat) : Prop :=
  ∃ m e positive, f = .finite .positive m e positive ∧ 2 ^ 52 ≤ m ∧ scaled m e = n

theorem represents_nearestTo {n : Nat} (positive : 0 < n) (short : significand n < 2 ^ 53)
    (same : significand n * 2 ^ n.log2 = n * 2 ^ 52) :
    Represents (nearestTo .positive n positive) n := by
  refine ⟨_, _, _, if_pos short, le_significand positive, ?_⟩
  have whole : (significand n : ℚ) * 2 ^ n.log2 = n * 2 ^ 52 := by exact_mod_cast same
  rw [scaled, zpow_sub₀ two_ne_zero, zpow_natCast, ← mul_div_assoc, whole]
  norm_num

theorem represents_of_short {n : Nat} (positive : 0 < n) (short : n < 2 ^ 53) :
    Represents (nearestTo .positive n positive) n := by
  have below := (Nat.log2_lt positive.ne').mpr short
  refine ⟨_, _, _, nearestTo_of_short .positive positive short, ?_, ?_⟩
  · calc
      2 ^ 52 = 2 ^ n.log2 * 2 ^ (52 - n.log2) := by rw [← pow_add]; congr 1; omega
      _ ≤ n * 2 ^ (52 - n.log2) := Nat.mul_le_mul_right _ (Nat.log2_self_le positive.ne')
  · rw [scaled, show (n.log2 : Int) - 52 = -(52 - n.log2 : Nat) by omega, zpow_neg, zpow_natCast]
    push_cast
    field_simp

/-- The powers of ten up to the twenty-second are floats themselves. -/
theorem power_eq : ∀ k : Fin 23, (Float.exactlyRepresentablePowersOfTen[k]).toModel =
    Float.Model.pack (nearestTo .positive (10 ^ k.val) (Nat.pow_pos (by decide))) := by
  decide

theorem power_exact : ∀ k : Fin 23, significand (10 ^ k.val) < 2 ^ 53 ∧
    significand (10 ^ k.val) * 2 ^ (10 ^ k.val).log2 = 10 ^ k.val * 2 ^ 52 := by
  decide

theorem represents_power {k : Nat} (le : k ≤ 22) (lt : k < Float.exactlyRepresentablePowersOfTen.size) :
    Represents Float.exactlyRepresentablePowersOfTen[k].toModel.unpack (10 ^ k) := by
  have positive : 0 < 10 ^ k := Nat.pow_pos (by decide)
  have small : 10 ^ k < 2 ^ 128 :=
    (Nat.pow_le_pow_right (by decide) le).trans_lt (by decide)
  have packed : Float.exactlyRepresentablePowersOfTen[k].toModel =
      Float.Model.pack (nearestTo .positive (10 ^ k) positive) := power_eq ⟨k, Nat.lt_succ_of_le le⟩
  obtain ⟨short, same⟩ := power_exact ⟨k, Nat.lt_succ_of_le le⟩
  rw [packed, unpack_pack (canonical_nearestTo _ positive small)]
  exact represents_nearestTo positive short same

theorem mul_represents {f g : UnpackedFloat} {n k : Nat} (first : Represents f n) (second : Represents g k) :
    UnpackedFloat.mul Format.binary64 f g = rounded .positive (n * k) := by
  obtain ⟨m, e, positive, rfl, full, same⟩ := first
  obtain ⟨m', e', positive', rfl, full', same'⟩ := second
  have size : (2 : ℚ) ^ (e + e' + 52) ≤ scaled m e * scaled m' e' := by
    have bits : (2 : ℚ) ^ (52 : Int) ≤ m := by exact_mod_cast full
    have some : (1 : ℚ) ≤ m' := by exact_mod_cast positive'
    calc
      (2 : ℚ) ^ (e + e' + 52) = 2 ^ (52 : Int) * 2 ^ e * (1 * 2 ^ e') := by
        rw [zpow_add₀ two_ne_zero, zpow_add₀ two_ne_zero]
        ring
      _ ≤ scaled m e * scaled m' e' := by
        unfold scaled
        gcongr
  rw [mul_rounded _ _ positive positive' (le_place size), same, same']
  rfl

theorem div_represents {f g : UnpackedFloat} {n k : Nat} (first : Represents f n) (second : Represents g k) :
    UnpackedFloat.div Format.binary64 f g = rounded .positive (n / k) := by
  obtain ⟨m, e, positive, rfl, full, same⟩ := first
  obtain ⟨m', e', positive', rfl, full', same'⟩ := second
  rw [div_rounded _ _ positive positive', same, same']
  rfl

theorem unpack_word (positive : 0 < m) (short : m < 2 ^ 53) :
    (m.toUInt64.toFloat).toModel.unpack = nearestTo .positive m positive := by
  have word : m.toUInt64.toNat = m := UInt64.toNat_ofNat_of_lt' (show m < 2 ^ 64 by omega)
  have first : UnpackedFloat.ofUInt64 Format.binary64 m.toUInt64 = nearestTo .positive m positive := by
    rw [UnpackedFloat.ofUInt64, UnpackedFloat.ofNat, word, ofInt_short positive short]
  show (Float.Model.pack (UnpackedFloat.ofUInt64 Format.binary64 m.toUInt64)).unpack = _
  rw [first, unpack_pack (canonical_nearestTo _ positive (by omega))]

/-! ### The ways to a float -/

/-- Short digits and a small power are floats, and their product or quotient is rounded. -/
theorem ofScientific_short (positive : 0 < m) (short : m < 2 ^ 53) (small : e.natAbs ≤ 22) :
    Float.ofScientific m (e < 0) e.natAbs = ofUnpacked (rounded .positive (m * 10 ^ e)) := by
  have first := represents_of_short positive short
  rw [← unpack_word positive short] at first
  rw [Float.ofScientific, dif_pos ⟨short, small⟩]
  have second := represents_power small (Nat.lt_succ_of_le small)
  rcases lt_or_ge e 0 with below | above
  · have value : (m : ℚ) / (10 ^ e.natAbs : Nat) = m * 10 ^ e := by
      rw [show e = -(e.natAbs : Int) by omega, zpow_neg, zpow_natCast, Int.natAbs_neg, Int.natAbs_natCast,
        div_eq_mul_inv]
      push_cast
      rfl
    have quotient := div_represents first second
    rw [value] at quotient
    rw [decide_eq_true below, ← quotient]
    rfl
  · have value : (m : ℚ) * (10 ^ e.natAbs : Nat) = m * 10 ^ e := by
      rw [show e = (e.natAbs : Int) by omega, zpow_natCast, Int.natAbs_natCast]
      push_cast
      rfl
    have product := mul_represents first second
    rw [value] at product
    rw [decide_eq_false (not_lt.mpr above), ← product]
    rfl

theorem ofScientific_model (positive : 0 < m) (low : -(2048 + (m.log2 : Int)) ≤ e) (high : e ≤ 2048) :
    UnpackedFloat.ofScientific Format.binary64 m e = rounded .positive (m * 10 ^ e) := by
  have above : ¬ e > 2 ^ Format.binary64.exponentBits := by
    show ¬ (2048 : Int) < e
    omega
  have below : ¬ e < -((2 ^ Format.binary64.exponentBits : Int) + m.log2) := by
    show ¬ e < -((2048 : Int) + m.log2)
    omega
  rw [UnpackedFloat.ofScientific, dif_neg positive.ne', if_neg above, if_neg below]
  split
  · next nonneg =>
    have first : scaled (m <<< Format.binary64.mantissaBits) (-Format.binary64.mantissaBits) = m := by
      show scaled (m <<< 53) (-53) = m
      rw [scaled, Nat.shiftLeft_eq, zpow_neg]
      push_cast
      field_simp
    have second : scaled (10 ^ e.toNat) 0 = 10 ^ e := by
      rw [scaled, zpow_zero, mul_one, ← Int.toNat_of_nonneg nonneg, zpow_natCast, Int.toNat_natCast]
      push_cast
      rfl
    have size : (2 : ℚ) ^ (-53 + 52 : Int) ≤ m * 10 ^ e := by
      have digits : (1 : ℚ) ≤ m := by exact_mod_cast positive
      have power : (1 : ℚ) ≤ 10 ^ e := one_le_zpow₀ (by norm_num) nonneg
      have one : (1 : ℚ) * 1 ≤ m * 10 ^ e := mul_le_mul digits power zero_le_one (by positivity)
      exact le_trans (by norm_num) one
    rw [mul_rounded, first, second]
    · rfl
    · rw [first, second]
      exact le_place size
  · next negative =>
    have value : scaled m 0 / scaled (10 ^ (-e).toNat) 0 = m * 10 ^ e := by
      have same : e = -((-e).toNat : Int) := by omega
      rw [scaled, scaled, zpow_zero, mul_one, mul_one, div_eq_mul_inv]
      nth_rewrite 2 [same]
      rw [zpow_neg, zpow_natCast]
      push_cast
      rfl
    rw [div_rounded, value]
    rfl

theorem ofScientific_eq (positive : 0 < m) (low : -(2048 + (m.log2 : Int)) ≤ e) (high : e ≤ 2048) :
    Float.ofScientific m (e < 0) e.natAbs = ofUnpacked (rounded .positive (m * 10 ^ e)) := by
  by_cases short : m < 2 ^ 53 ∧ e.natAbs ≤ 22
  · exact ofScientific_short positive short.1 short.2
  · have signed : (if (decide (e < 0)) = true then Int.negOfNat e.natAbs else Int.ofNat e.natAbs) = e := by
      simp only [decide_eq_true_eq, Int.negOfNat_eq, Int.ofNat_eq_natCast]
      omega
    rw [Float.ofScientific, dif_neg short]
    simp only [signed]
    exact congrArg (Float.ofModel <| .pack ·) (ofScientific_model positive low high)

theorem two_pow_le_ten_pow {j k : Nat} (le : j ≤ 3 * k) : (2 : ℚ) ^ j ≤ 10 ^ k := by
  calc
    (2 : ℚ) ^ j ≤ 2 ^ (3 * k) := pow_le_pow_right₀ one_le_two le
    _ = 8 ^ k := by rw [pow_mul]; norm_num
    _ ≤ 10 ^ k := by gcongr; norm_num

theorem small_of_exponent {m : Nat} {e : Int} (low : (m.log2 : Int) + e < -400) :
    (m : ℚ) * 10 ^ e < 2 ^ (-1075 : Int) := by
  have bound : (m : ℚ) < 2 * 10 ^ m.log2 := by
    have bits : (2 : Nat) ^ m.log2 ≤ 10 ^ m.log2 := Nat.pow_le_pow_left (by decide) _
    have top := Nat.lt_log2_self (n := m)
    have : m < 2 * 10 ^ m.log2 := by omega
    exact_mod_cast this
  have far : (2 : ℚ) * 2 ^ 1075 ≤ 10 ^ 401 := by
    rw [← pow_succ']
    exact two_pow_le_ten_pow (by decide)
  calc
    (m : ℚ) * 10 ^ e < 2 * 10 ^ m.log2 * 10 ^ e := mul_lt_mul_of_pos_right bound (by positivity)
    _ = 2 * 10 ^ (m.log2 + e : Int) := by rw [mul_assoc, zpow_add₀ (by norm_num), zpow_natCast]
    _ ≤ 2 * 10 ^ (-401 : Int) := by
      gcongr
      · norm_num
      · omega
    _ ≤ 2 ^ (-1075 : Int) := by
      rw [zpow_neg, zpow_neg, ← div_eq_mul_inv, ← one_div, div_le_div_iff₀ (by positivity)
        (by positivity), one_mul]
      exact far

theorem large_of_exponent {m : Nat} (positive : 0 < m) {e : Int} (high : 400 ≤ e) :
    2 ^ (1024 : Int) ≤ (m : ℚ) * 10 ^ e := by
  calc
    (2 : ℚ) ^ (1024 : Int) ≤ 1 * 10 ^ (400 : Int) := by
      rw [one_mul]
      exact_mod_cast two_pow_le_ten_pow (j := 1024) (k := 400) (by decide)
    _ ≤ m * 10 ^ e := by
      gcongr
      · exact_mod_cast positive
      · norm_num

/-- The float of a decimal is the one nearest to it. -/
theorem toFloat_eq (positive : 0 < m) (e : Int) :
    toFloat m e = ofUnpacked (rounded .positive (m * 10 ^ e)) := by
  rw [toFloat]
  split
  · next out =>
    have low := out.resolve_left positive.ne'
    rw [rounded_of_small _ (by positivity) (small_of_exponent (by omega))]
    rfl
  next within =>
  split
  · next high =>
    exact congrArg Float.ofModel (pack_rounded_of_large _ (large_of_exponent positive (by omega))).symm
  · exact ofScientific_eq positive (by omega) (by omega)

/-- Decimals of one number are read as one float. -/
theorem toFloat_congr {n : Nat} {f : Int} (same : (m : ℚ) * 10 ^ e = n * 10 ^ f) :
    toFloat m e = toFloat n f := by
  have power : ∀ k : Int, (10 : ℚ) ^ k ≠ 0 := fun k => by positivity
  rcases Nat.eq_zero_or_pos m with rfl | positive
  · have none : n = 0 := by
      rw [Nat.cast_zero, zero_mul, eq_comm, mul_eq_zero] at same
      exact Nat.cast_eq_zero.mp (same.resolve_right (power f))
    rw [none, toFloat, toFloat, if_pos (.inl rfl), if_pos (.inl rfl)]
  · have some : 0 < n := by
      rw [Nat.pos_iff_ne_zero]
      rintro rfl
      rw [Nat.cast_zero, zero_mul, mul_eq_zero] at same
      exact positive.ne' (Nat.cast_eq_zero.mp (same.resolve_right (power e)))
    rw [toFloat_eq positive, toFloat_eq some, same]

/-! ### Shortest digits -/

theorem ofUnpacked_unpack (x : Float) : ofUnpacked x.toModel.unpack = x :=
  Float.ofBits_toBits x

variable {x : Float} {positive : 0 < m}

/-- A decimal of the exact number is read as the float. -/
theorem toFloat_of_exact (unpacked : x.toModel.unpack = .finite .positive m e positive) {n : Nat} {f : Int}
    (some : 0 < n) (same : (n : ℚ) * 10 ^ f = scaled m e) : toFloat n f = x := by
  have canonical := canonical_unpack x.toModel
  rw [unpacked] at canonical
  rw [toFloat_eq some, same, rounded_scaled _ canonical, ← unpacked, ofUnpacked_unpack]

theorem exactly_toFloat (unpacked : x.toModel.unpack = .finite .positive m e positive) :
    (exactly m e).toFloat = x := by
  rw [exactly]
  split
  · next nonneg =>
    refine toFloat_of_exact unpacked (Nat.mul_pos positive (Nat.two_pow_pos _)) ?_
    rw [zpow_zero, mul_one, scaled, Nat.pow_eq]
    nth_rewrite 2 [← Int.toNat_of_nonneg nonneg]
    rw [zpow_natCast]
    push_cast
    rfl
  · next negative =>
    refine toFloat_of_exact unpacked (Nat.mul_pos positive (Nat.pow_pos (by decide))) ?_
    obtain ⟨k, rfl⟩ : ∃ k : Nat, e = -k := ⟨(-e).toNat, by omega⟩
    rw [scaled, Nat.pow_eq, neg_neg, Int.toNat_natCast, zpow_neg, zpow_neg, zpow_natCast, zpow_natCast,
      show (10 : ℚ) = 5 * 2 by norm_num, mul_pow]
    push_cast
    field_simp

theorem eq_of_beq_positive (unpacked : x.toModel.unpack = .finite .positive m e positive) {y : Float}
    (same : (y == x) = true) : y = x := by
  have zero : (0 : Float).toModel.unpack = .zero .positive := by rfl
  have zero' : (-0 : Float).toModel.unpack = .zero .negative := by rfl
  obtain ⟨-, -, same | ⟨-, rfl⟩ | ⟨-, rfl⟩⟩ := Float.beq_iff_ne_nan_and_eq.mp same
  · exact same
  · rw [zero'] at unpacked
    cases unpacked
  · rw [zero] at unpacked
    cases unpacked

theorem search_toFloat (unpacked : x.toModel.unpack = .finite .positive m e positive) (k : Int)
    (tries : Nat) : (search x m e k tries).toFloat = x := by
  induction tries generalizing k with
  | zero => exact exactly_toFloat unpacked
  | succ tries ih =>
    rw [search]
    split
    · next found given =>
      have same := List.find?_some (p := fun s : Scientific => s.toFloat == x) given
      exact eq_of_beq_positive unpacked same
    · exact ih (k - 1)

theorem unpack_abs (x : Float) : x.abs.toModel.unpack = x.toModel.unpack.abs := by
  have canonical := canonical_unpack x.toModel
  refine unpack_pack ?_
  cases known : x.toModel.unpack with
  | finite s m e _ =>
    rw [known] at canonical
    exact canonical
  | _ => trivial

/-- The digits that are found for a positive float are read back as it. -/
theorem toFloat_shortest (unpacked : x.toModel.unpack = .finite .positive m e positive) :
    (shortest x).toFloat = x ∧ 0 < (shortest x).digits := by
  have magnitude : x.abs.toModel.unpack = .finite .positive m e positive := by
    rw [unpack_abs, unpacked]
    rfl
  have same : x.abs = x := by rw [← ofUnpacked_unpack x.abs, magnitude, ← unpacked, ofUnpacked_unpack]
  have read : (shortest x).toFloat = x := by
    unfold shortest
    rw [magnitude, same]
    exact search_toFloat unpacked _ _
  refine ⟨read, Nat.pos_iff_ne_zero.mpr fun none => ?_⟩
  rw [Scientific.toFloat, none, toFloat, if_pos (.inl rfl)] at read
  have zero : (0.0 : Float).toModel.unpack = .zero .positive := by rfl
  rw [← read, zero] at unpacked
  cases unpacked

end Offside.Decimal
