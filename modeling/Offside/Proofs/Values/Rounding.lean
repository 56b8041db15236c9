import Offside.Proofs.Values.Nearest

/-!
# The float nearest to a rational

`Binary64.rounded` takes a positive rational at the place of the last bit that a float of its size has,
and rounds it there to the nearest, from the middle to the even one. What the operations of the model
compute from a quotient and its rest, or from two floats, is this float of the exact result:
`roundWithAccuracy_quotient`, `mul_rounded` and `div_rounded`.
-/

namespace Offside.Binary64

open Float.Model Float.Model.UnpackedFloat

/-! ### Rounding to a natural number -/

theorem nearestQuotient_congr {a b c d : Nat} (positive : 0 < d) (positive' : 0 < c)
    (same : a * c = b * d) : nearestQuotient a d = nearestQuotient b c := by
  rw [← nearestQuotient_mul a d positive', same, mul_comm d c, nearestQuotient_mul b c positive]

/-- The natural number nearest to a rational, the even one of two. -/
def halfEven (q : ℚ) : Nat := nearestQuotient q.num.toNat q.den

theorem num_toNat_eq {q : ℚ} (nonneg : 0 ≤ q) : (q.num.toNat : ℚ) = q * q.den := by
  have whole : (q.num.toNat : Int) = q.num := Int.toNat_of_nonneg (Rat.num_nonneg.mpr nonneg)
  rw [Rat.mul_den_eq_num]
  exact_mod_cast whole

theorem halfEven_div (a : Nat) {d : Nat} (positive : 0 < d) :
    halfEven ((a : ℚ) / d) = nearestQuotient a d := by
  have exact' := num_toNat_eq (q := (a : ℚ) / d) (by positivity)
  apply nearestQuotient_congr (Rat.den_pos _) positive
  have nonzero : (d : ℚ) ≠ 0 := Nat.cast_ne_zero.mpr positive.ne'
  have same : (((a : ℚ) / d).num.toNat : ℚ) * d = a * ((a : ℚ) / d).den := by
    rw [exact']
    field_simp
  exact_mod_cast same

theorem halfEven_natCast (n : Nat) : halfEven n = n := by
  rw [← div_one (n : ℚ), ← Nat.cast_one, halfEven_div n one_pos, nearestQuotient_one]

theorem le_halfEven {n : Nat} {q : ℚ} (le : (n : ℚ) ≤ q) : n ≤ halfEven q := by
  have exact' := num_toNat_eq (n.cast_nonneg.trans le)
  refine le_trans ?_ (le_nearestQuotient _ _)
  rw [Nat.le_div_iff_mul_le q.den_pos]
  have scaled : (n : ℚ) * q.den ≤ q.num.toNat := by
    rw [exact']
    exact mul_le_mul_of_nonneg_right le (by positivity)
  exact_mod_cast scaled

theorem halfEven_le {n : Nat} {q : ℚ} (nonneg : 0 ≤ q) (lt : q < n) : halfEven q ≤ n := by
  have exact' := num_toNat_eq nonneg
  refine (nearestQuotient_le _ _).trans ?_
  rw [Nat.succ_le_iff, Nat.div_lt_iff_lt_mul q.den_pos]
  have scaled : (q.num.toNat : ℚ) < n * q.den := by
    rw [exact']
    exact mul_lt_mul_of_pos_right lt (by exact_mod_cast q.den_pos)
  exact_mod_cast scaled

theorem halfEven_of_lt_half {q : ℚ} (nonneg : 0 ≤ q) (lt : 2 * q < 1) : halfEven q = 0 := by
  have exact' := num_toNat_eq nonneg
  have below : 2 * q.num.toNat < q.den := by
    have scaled : 2 * (q.num.toNat : ℚ) < q.den := by
      rw [exact', ← mul_assoc]
      exact mul_lt_of_lt_one_left (by exact_mod_cast q.den_pos) lt
    exact_mod_cast scaled
  rw [halfEven, nearestQuotient, Nat.mod_eq_of_lt (by omega), if_pos below,
    Nat.div_eq_of_lt (by omega)]

/-! ### Rounding to a float -/

/-- The place of the last bit that a float of this size has. -/
def place (v : ℚ) : Int := max (Int.log 2 v - 52) (-1074)

/-- The leading bit of a full mantissa is a mantissa itself. -/
theorem leading_pos : 0 < 2 ^ 52 := by decide

/-- The float nearest to a positive rational. Rounding up may take one bit more than there is, and what
is too small becomes zero. -/
def rounded (s : Sign) (v : ℚ) : UnpackedFloat :=
  if positive : 0 < halfEven (v / 2 ^ place v) then
    if halfEven (v / 2 ^ place v) < 2 ^ 53 then
      .finite s (halfEven (v / 2 ^ place v)) (place v) positive
    else .finite s (2 ^ 52) (place v + 1) leading_pos
  else .zero s

variable {v : ℚ}

theorem low_place (v : ℚ) : -1074 ≤ place v := le_max_right _ _

theorem log_eq {k : Int} (low : 2 ^ k ≤ v) (high : v < 2 ^ (k + 1)) : Int.log 2 v = k := by
  have positive : 0 < v := lt_of_lt_of_le (by positivity) low
  have above := (Int.zpow_le_iff_le_log one_lt_two positive).mp (by exact_mod_cast low)
  have below := (Int.lt_zpow_iff_log_lt one_lt_two positive).mp (by exact_mod_cast high)
  omega

/-- The leading bit of a number is that of its integer part. -/
theorem log_of_floor {n : Nat} {q : ℚ} (positive : 0 < n) (low : n ≤ q) (high : q < n + 1) (e : Int) :
    Int.log 2 (q * 2 ^ e) = n.log2 + e := by
  have power : (0 : ℚ) < 2 ^ e := by positivity
  apply log_eq
  · have bits : (2 : ℚ) ^ n.log2 ≤ n := by exact_mod_cast Nat.log2_self_le positive.ne'
    rw [zpow_add₀ two_ne_zero, zpow_natCast]
    exact mul_le_mul_of_nonneg_right (bits.trans low) power.le
  · have bits : (n : ℚ) + 1 ≤ 2 ^ ((n.log2 : Int) + 1) := by
      rw [← Nat.cast_succ n.log2, zpow_natCast]
      exact_mod_cast Nat.lt_log2_self
    rw [add_right_comm, zpow_add₀ two_ne_zero]
    exact mul_lt_mul_of_pos_right (high.trans_le bits) power

theorem le_place {k : Int} (le : 2 ^ (k + 52) ≤ v) : k ≤ place v := by
  have positive : 0 < v := lt_of_lt_of_le (by positivity) le
  have above := (Int.zpow_le_iff_le_log one_lt_two positive).mp (by exact_mod_cast le)
  exact le_max_of_le_left (by omega)

theorem lt_two_zpow_place (v : ℚ) : v < 2 ^ (place v + 53) := by
  have below := Int.lt_zpow_succ_log_self (b := 2) one_lt_two v
  refine lt_of_lt_of_le (by exact_mod_cast below) (zpow_le_zpow_right₀ one_le_two ?_)
  have := le_max_left (Int.log 2 v - 52) (-1074)
  unfold place
  omega

theorem two_zpow_place_le (positive : 0 < v) : 2 ^ (place v + 52) ≤ v ∨ place v = -1074 := by
  rcases le_total (-1074) (Int.log 2 v - 52) with normal | low
  · left
    have above := Int.zpow_log_le_self (b := 2) one_lt_two positive
    rw [place, max_eq_left normal, sub_add_cancel]
    exact_mod_cast above
  · exact .inr (max_eq_right low)

theorem halfEven_place_le (positive : 0 < v) : halfEven (v / 2 ^ place v) ≤ 2 ^ 53 := by
  apply halfEven_le (by positivity)
  have top : ((2 ^ 53 : Nat) : ℚ) = 2 ^ (53 : Int) := by norm_num
  rw [div_lt_iff₀ (by positivity), top, ← zpow_add₀ two_ne_zero, add_comm]
  exact lt_two_zpow_place v

theorem le_halfEven_place (positive : 0 < v) :
    2 ^ 52 ≤ halfEven (v / 2 ^ place v) ∨ place v = -1074 := by
  refine (two_zpow_place_le positive).imp_left fun le => le_halfEven ?_
  have bottom : ((2 ^ 52 : Nat) : ℚ) = 2 ^ (52 : Int) := by norm_num
  rw [le_div_iff₀ (by positivity), bottom, ← zpow_add₀ two_ne_zero, add_comm]
  exact le

/-- The place of a quotient, as it is computed from its integer part. -/
theorem place_quotient {a d : Nat} {e : Int} (positive : 0 < a) (positive' : 0 < d)
    (fine : e ≤ place (a / d * 2 ^ e)) :
    max (((a / d : Nat).log2 : Int) + 1 + e - 53) (-1074) = place (a / d * 2 ^ e) := by
  have power : (0 : ℚ) < 2 ^ e := by positivity
  rcases Nat.eq_zero_or_pos (a / d) with none | some
  · -- The quotient is less than one, so the place of the last bit is the lowest there is.
    have below : (a : ℚ) / d * 2 ^ e < 2 ^ e := by
      refine mul_lt_of_lt_one_left power ((div_lt_one (by positivity)).mpr ?_)
      exact_mod_cast (Nat.div_eq_zero_iff_lt positive').mp none
    have log : Int.log 2 ((a : ℚ) / d * 2 ^ e) < e :=
      (Int.lt_zpow_iff_log_lt one_lt_two (by positivity)).mp (by exact_mod_cast below)
    rw [none, Nat.log2_zero]
    unfold place at fine ⊢
    omega
  · have low : ((a / d : Nat) : ℚ) ≤ a / d := Nat.cast_div_le
    have high : (a : ℚ) / d < (a / d : Nat) + 1 := by
      rw [div_lt_iff₀ (by positivity), ← Nat.cast_succ]
      exact_mod_cast (Nat.lt_mul_div_succ a positive').trans_eq (mul_comm d _)
    rw [place, log_of_floor some low high]
    congr 1
    omega

/-- A quotient is rounded to the float nearest to it, if its integer part has enough bits. -/
theorem roundWithAccuracy_quotient (s : Sign) {a d : Nat} {e : Int} (positive : 0 < a)
    (positive' : 0 < d) (fine : e ≤ place (a / d * 2 ^ e)) :
    roundWithAccuracy Format.binary64 s (a / d) e (accuracyOfFraction (a % d) d) =
      rounded s (a / d * 2 ^ e) := by
  have size := place_quotient positive positive' fine
  have above : (0 : ℚ) < a / d * 2 ^ e := by positivity
  have low := low_place ((a : ℚ) / d * 2 ^ e)
  have bound := halfEven_place_le above
  have full := le_halfEven_place above
  obtain ⟨k, same⟩ := Int.le.dest fine
  have number : nearestQuotient a (d * 2 ^ k) =
      halfEven ((a : ℚ) / d * 2 ^ e / 2 ^ place (a / d * 2 ^ e)) := by
    rw [← halfEven_div a (Nat.mul_pos positive' (Nat.two_pow_pos k)), ← same,
      zpow_add₀ two_ne_zero, zpow_natCast]
    congr 1
    push_cast
    have power : (2 : ℚ) ^ e ≠ 0 := by positivity
    field_simp
  rw [roundWithAccuracy, shiftToTargetExponent_eq (k := k) (by omega), same]
  simp only [roundedMantissa_quotient a k positive', number,
    shiftToTargetExponent_rounded low full bound]
  rw [rounded]
  by_cases short : halfEven ((a : ℚ) / d * 2 ^ e / 2 ^ place (a / d * 2 ^ e)) < 2 ^ 53
  · rcases Nat.eq_zero_or_pos (halfEven ((a : ℚ) / d * 2 ^ e / 2 ^ place (a / d * 2 ^ e))) with
      none | some
    · simp only [if_pos short, dif_pos none, dif_neg none.not_gt]
    · simp only [if_pos short, dif_neg some.ne', dif_pos some]
  · have some : 0 < halfEven ((a : ℚ) / d * 2 ^ e / 2 ^ place (a / d * 2 ^ e)) := by omega
    simp only [if_neg short, dif_pos some]
    rfl

/-! ### Operations -/

/-- A product with enough bits is rounded to the float nearest to it. -/
theorem mul_rounded (s t : Sign) {m n : Nat} {e f : Int} (positive : 0 < m) (positive' : 0 < n)
    (fine : e + f ≤ place (scaled m e * scaled n f)) :
    UnpackedFloat.mul Format.binary64 (.finite s m e positive) (.finite t n f positive') =
      rounded (s * t) (scaled m e * scaled n f) := by
  have product : ((m * n : Nat) : ℚ) / (1 : Nat) * 2 ^ (e + f) = scaled m e * scaled n f := by
    rw [scaled, scaled, zpow_add₀ two_ne_zero]
    push_cast
    ring
  rw [← product] at fine ⊢
  rw [← roundWithAccuracy_quotient _ (Nat.mul_pos positive positive') one_pos fine, Nat.div_one,
    Nat.mod_one]
  rfl

theorem le_scaled_div {m n : Nat} (positive : 0 < m) (positive' : 0 < n) (e f : Int) :
    2 ^ ((m.log2 : Int) + e - n.log2 - f - 1) ≤ scaled m e / scaled n f := by
  rw [le_div_iff₀ (scaled_pos positive' f)]
  have low : (2 : ℚ) ^ (m.log2 : Int) ≤ m := by
    rw [zpow_natCast]
    exact_mod_cast Nat.log2_self_le positive.ne'
  have high : (n : ℚ) ≤ 2 ^ ((n.log2 : Int) + 1) := by
    rw [← Nat.cast_succ, zpow_natCast]
    exact_mod_cast Nat.lt_log2_self.le
  calc
    (2 : ℚ) ^ ((m.log2 : Int) + e - n.log2 - f - 1) * (n * 2 ^ f) ≤
        2 ^ ((m.log2 : Int) + e - n.log2 - f - 1) * (2 ^ ((n.log2 : Int) + 1) * 2 ^ f) := by gcongr
    _ = 2 ^ (m.log2 : Int) * 2 ^ e := by
      rw [← zpow_add₀ two_ne_zero, ← zpow_add₀ two_ne_zero, ← zpow_add₀ two_ne_zero]
      congr 1
      ring
    _ ≤ scaled m e := mul_le_mul_of_nonneg_right low (by positivity)

/-- A quotient of floats is rounded to the float nearest to it. -/
theorem div_rounded (s t : Sign) {m n : Nat} {e f : Int} (positive : 0 < m) (positive' : 0 < n) :
    UnpackedFloat.div Format.binary64 (.finite s m e positive) (.finite t n f positive') =
      rounded (s / t) (scaled m e / scaled n f) := by
  let least := min (e - f) (max ((m.log2 : Int) + 1 + e - (n.log2 + 1 + f) - 53) (-1074))
  obtain ⟨k, same⟩ := Int.le.dest (min_le_left (e - f) (max ((m.log2 : Int) + 1 + e -
    (n.log2 + 1 + f) - 53) (-1074)))
  have places : (e - f - least).toNat = k := by
    show (e - f - min (e - f) (max ((m.log2 : Int) + 1 + e - (n.log2 + 1 + f) - 53) (-1074))).toNat = k
    omega
  have quotient : ((m * 2 ^ k : Nat) : ℚ) / n * 2 ^ least = scaled m e / scaled n f := by
    have nonzero : (n : ℚ) ≠ 0 := Nat.cast_ne_zero.mpr positive'.ne'
    have power : (2 : ℚ) ^ f ≠ 0 := by positivity
    have total : (2 : ℚ) ^ k * 2 ^ least * 2 ^ f = 2 ^ e := by
      rw [← zpow_natCast, ← zpow_add₀ two_ne_zero, ← zpow_add₀ two_ne_zero]
      congr 1
      show (k : Int) + min (e - f) _ + f = e
      omega
    rw [scaled, scaled, ← total]
    push_cast
    field_simp
  have fine : least ≤ place (scaled m e / scaled n f) := by
    refine (min_le_right _ _).trans (max_le ?_ (low_place _))
    apply le_place
    convert le_scaled_div positive positive' e f using 2
    ring
  show roundWithAccuracy Format.binary64 (s / t) (m <<< (e - f - least).toNat / n) least
    (accuracyOfFraction (m <<< (e - f - least).toNat % n) n) = _
  rw [← quotient] at fine ⊢
  rw [places, Nat.shiftLeft_eq,
    roundWithAccuracy_quotient _ (Nat.mul_pos positive (Nat.two_pow_pos k)) positive' fine]

/-! ### Floats and what is out of range -/

theorem log_scaled {m : Nat} (positive : 0 < m) (e : Int) :
    Int.log 2 (scaled m e) = m.log2 + e := log_of_floor positive le_rfl (lt_add_one _) e

theorem place_scaled {m : Nat} {e : Int} (positive : 0 < m) (short : m < 2 ^ 53) (low : -1074 ≤ e)
    (full : 2 ^ 52 ≤ m ∨ e = -1074) : place (scaled m e) = e := by
  have below := (Nat.log2_lt positive.ne').mpr short
  rw [place, log_scaled positive]
  rcases full with full | rfl
  · have above := (Nat.le_log2 positive.ne').mpr full
    omega
  · omega

/-- A float is the nearest to itself. -/
theorem rounded_scaled (s : Sign) {m : Nat} {e : Int} {positive : 0 < m}
    (canonical : Canonical (.finite s m e positive)) : rounded s (scaled m e) = .finite s m e positive := by
  obtain ⟨short, low, -, full⟩ := canonical
  have number : halfEven (scaled m e / 2 ^ e) = m := by
    rw [scaled, mul_div_cancel_right₀ _ (by positivity), halfEven_natCast]
  rw [rounded, place_scaled positive short low full]
  simp only [number, dif_pos positive, if_pos short]

/-- What is less than half the least float becomes zero. -/
theorem rounded_of_small (s : Sign) {v : ℚ} (positive : 0 < v) (small : v < 2 ^ (-1075 : Int)) :
    rounded s v = .zero s := by
  have log : Int.log 2 v < -1075 :=
    (Int.lt_zpow_iff_log_lt one_lt_two positive).mp (by exact_mod_cast small)
  have lowest : place v = -1074 := by
    unfold place
    omega
  have half : 2 * (v / 2 ^ (-1074 : Int)) < 1 := by
    rw [← mul_div_assoc, div_lt_one (by positivity)]
    calc
      2 * v < 2 * 2 ^ (-1075 : Int) := by gcongr
      _ = 2 ^ (-1074 : Int) := by rw [← zpow_one_add₀ two_ne_zero]; rfl
  rw [rounded, lowest, dif_neg]
  rw [halfEven_of_lt_half (by positivity) half]
  exact lt_irrefl 0

/-- What is too large is packed as infinity. -/
theorem pack_rounded_of_large (s : Sign) {v : ℚ} (large : 2 ^ (1024 : Int) ≤ v) :
    Float.Model.pack (rounded s v) = Float.Model.pack (.infinity s) := by
  have far : 972 ≤ place v := le_place large
  have above : 0 < halfEven (v / 2 ^ place v) := by
    have := (le_halfEven_place (lt_of_lt_of_le (by positivity) large)).resolve_right (by omega)
    omega
  have packs : ∀ {m : Nat} {e : Int} (positive : 0 < m), 972 ≤ e →
      Float.Model.pack (.finite s m e positive) = Float.Model.pack (.infinity s) := by
    intro m e positive high
    have biased : 2048 ≤ (e + (1023 : Nat) + (52 : Nat)).toNat + 1 := by omega
    unfold Float.Model.pack
    congr 2
    exact if_pos biased
  rw [rounded, dif_pos above]
  split
  · exact packs above far
  · exact packs (by decide) (by omega)

end Offside.Binary64
