import Mathlib
import Offside.Decimal.Binary64

/-!
# What floats stand for

`Binary64.amount?` is the number or the infinity that a float stands for. Packing keeps the canonical
forms (`unpack_pack`), and between these the comparison of floats, exponent first, is the comparison of
the amounts (`compare_amountOf?`). So floats other than the one that is no number are in a linear order,
with the two zeros as one.
-/

namespace Offside.Binary64

open Float.Model Float.Model.UnpackedFloat

/-! ### Amounts -/

/-- A number or one of the two infinities, in their order. -/
abbrev Amount := WithBot (WithTop ℚ)

namespace Amount

def ofRat (q : ℚ) : Amount := (q : WithTop ℚ)

variable {p q : ℚ}

theorem ofRat_lt_ofRat : ofRat p < ofRat q ↔ p < q := WithBot.coe_lt_coe.trans WithTop.coe_lt_coe

theorem ofRat_le_ofRat : ofRat p ≤ ofRat q ↔ p ≤ q := WithBot.coe_le_coe.trans WithTop.coe_le_coe

theorem ofRat_inj : ofRat p = ofRat q ↔ p = q := WithBot.coe_inj.trans WithTop.coe_inj

theorem bot_lt_ofRat : ⊥ < ofRat q := WithBot.bot_lt_coe _

theorem ofRat_lt_top : ofRat q < ⊤ := WithBot.coe_lt_coe.mpr (WithTop.coe_lt_top q)

theorem compare_ofRat (p q : ℚ) : compare (ofRat p) (ofRat q) = compare p q := by
  have mono : StrictMono ofRat := fun _ _ => ofRat_lt_ofRat.mpr
  rw [← cmp_eq_compare, ← cmp_eq_compare, mono.cmp_map_eq]

end Amount

/-- The number that a significand and an exponent spell. -/
def scaled (m : Nat) (e : Int) : ℚ := m * 2 ^ e

theorem scaled_pos {m : Nat} (positive : 0 < m) (e : Int) : 0 < scaled m e := by
  unfold scaled
  positivity

/-- What an unpacked float stands for, nothing if it is no number. -/
def amountOf? : UnpackedFloat → Option Amount
  | .notANumber => none
  | .infinity .negative => some ⊥
  | .infinity .positive => some ⊤
  | .zero _ => some (.ofRat 0)
  | .finite .negative m e _ => some (.ofRat (-scaled m e))
  | .finite .positive m e _ => some (.ofRat (scaled m e))

/-- What a float stands for, nothing if it is no number. -/
def amount? (x : Float) : Option Amount := amountOf? x.toModel.unpack

theorem amount?_zero : amount? 0.0 = some (.ofRat 0) := by
  have unpacked : (0.0 : Float).toModel.unpack = .zero .positive := by rfl
  rw [amount?, unpacked]
  rfl

/-! ### Canonical forms -/

/-- A significand has 53 bits, the first of which is set unless the exponent is the least one. -/
def Canonical : UnpackedFloat → Prop
  | .finite _ m e _ => m < 2 ^ 53 ∧ -1074 ≤ e ∧ e ≤ 971 ∧ (2 ^ 52 ≤ m ∨ e = -1074)
  | _ => True

theorem bias_eq : Format.binary64.exponentBias = 1023 := rfl

theorem toNat_implicit {w : Nat} (v : BitVec w) : (1#1 ++ v).toNat = 2 ^ w + v.toNat := by
  rw [BitVec.toNat_append, ← Nat.shiftLeft_add_eq_or_of_lt v.isLt, Nat.shiftLeft_eq, BitVec.toNat_one,
    one_mul]
  exact Nat.one_pos

theorem canonical_unpack (x : Float.Model) : Canonical x.unpack := by
  have exponent : (@unpackExponent Format.binary64 x.toBits.toBitVec).toNat < 2 ^ 11 :=
    BitVec.isLt _
  have rest : (@unpackMantissa Format.binary64 x.toBits.toBitVec).toNat < 2 ^ 52 :=
    BitVec.isLt _
  rw [Float.Model.unpack, UnpackedFloat.unpack]
  simp only [bias_eq]
  split
  · split <;> trivial
  next ordinary =>
  split
  · next lowest =>
    split
    · trivial
    · rw [lowest]
      exact ⟨by omega, by decide, by decide, .inr rfl⟩
  · next normal =>
    have whole := toNat_implicit (@unpackMantissa Format.binary64 x.toBits.toBitVec)
    simp only [← BitVec.toNat_inj] at ordinary normal
    change ¬ _ = 2047 at ordinary
    change ¬ _ = 0 at normal
    change _ = 2 ^ 52 + _ at whole
    exact ⟨by omega, by omega, by omega, .inl (by omega)⟩

/-- With the least exponent all bits of the significand are written out. -/
theorem unpack_low (s : Sign) {m : Nat} (positive : 0 < m) (short : m < 2 ^ 52) :
    unpack Format.binary64 (packComponents Format.binary64 s 0#_ (BitVec.ofNat _ m)) =
      .finite s m (-1074) positive := by
  have same : (BitVec.ofNat 52 m).toNat = m := by
    rw [BitVec.toNat_ofNat, Nat.mod_eq_of_lt short]
  have nonzero : BitVec.ofNat 52 m ≠ 0#52 := by
    rw [ne_eq, ← BitVec.toNat_inj, same]
    exact positive.ne'
  rw [UnpackedFloat.unpack]
  simp only [unpackMantissa_packComponents, unpackExponent_packComponents, unpackSign_packComponents,
    Sign.ofBitVec_toBitVec]
  rw [if_neg (by decide), if_pos trivial, dif_neg nonzero]
  simp only [same]
  rfl

/-- With another exponent the first bit of the significand is not written. -/
theorem unpack_normal (s : Sign) {m e : Nat} (positive : 0 < m) (short : m < 2 ^ 53)
    (full : 2 ^ 52 ≤ m) (low : 0 < e) (high : e < 2047) :
    unpack Format.binary64 (packComponents Format.binary64 s (BitVec.ofNat _ e) (BitVec.ofNat _ m)) =
      .finite s m (e - 1075) positive := by
  have exponent : (BitVec.ofNat 11 e).toNat = e := by
    rw [BitVec.toNat_ofNat, Nat.mod_eq_of_lt (by omega)]
  have mantissa : (1#1 ++ BitVec.ofNat 52 m).toNat = m := by
    rw [toNat_implicit, BitVec.toNat_ofNat]
    omega
  have ordinary : BitVec.ofNat 11 e ≠ -1#11 := by
    rw [ne_eq, ← BitVec.toNat_inj, exponent]
    exact high.ne
  have normal : BitVec.ofNat 11 e ≠ 0#11 := by
    rw [ne_eq, ← BitVec.toNat_inj, exponent]
    exact low.ne'
  rw [UnpackedFloat.unpack]
  simp only [unpackMantissa_packComponents, unpackExponent_packComponents, unpackSign_packComponents,
    Sign.ofBitVec_toBitVec]
  rw [if_neg ordinary, if_neg normal]
  simp only [mantissa, exponent]
  rfl

/-- Packing loses nothing of a canonical form. -/
theorem unpack_pack {f : UnpackedFloat} (canonical : Canonical f) : (Float.Model.pack f).unpack = f := by
  cases f with
  | notANumber => rfl
  | infinity s => cases s <;> rfl
  | zero s => cases s <;> rfl
  | finite s m e positive =>
    obtain ⟨short, low, high, full⟩ := canonical
    have biased : (e + Format.binary64.exponentBias +
        Format.binary64.mantissaBitsWithoutImplicit).toNat = (e + 1075).toNat := by
      rw [add_assoc]
      rfl
    show UnpackedFloat.unpack Format.binary64 (UnpackedFloat.pack Format.binary64 _) = _
    rw [UnpackedFloat.pack]
    simp only [biased]
    rw [if_neg (show ¬ 2048 ≤ _ by omega)]
    by_cases long : 2 ^ 52 ≤ m
    · have bits : m.log2 + 1 = Format.binary64.mantissaBits := by
        rw [(Nat.log2_eq_iff positive.ne').mpr ⟨long, short⟩]
        rfl
      rw [if_pos bits, unpack_normal s positive short long (by omega) (by omega)]
      congr 1
      omega
    · have bits : ¬ m.log2 + 1 = Format.binary64.mantissaBits := by
        have := (Nat.log2_lt positive.ne').mpr (not_le.mp long)
        change ¬ _ = 53
        omega
      rw [if_neg bits, unpack_low s positive (not_le.mp long)]
      congr 1
      exact (full.resolve_left long).symm

/-! ### Comparison -/

theorem scaled_lt_of_exponent {m n : Nat} {e f : Int} (short : m < 2 ^ 53) (full : 2 ^ 52 ≤ n)
    (lower : e < f) : scaled m e < scaled n f := by
  have power : (0 : ℚ) < 2 ^ e := by positivity
  calc
    scaled m e < 2 ^ 53 * 2 ^ e := mul_lt_mul_of_pos_right (by exact_mod_cast short) power
    _ = 2 ^ 52 * 2 ^ (e + 1) := by rw [zpow_add_one₀ two_ne_zero]; ring
    _ ≤ scaled n f := mul_le_mul (by exact_mod_cast full) (zpow_le_zpow_right₀ one_le_two lower)
      (by positivity) (by positivity)

theorem scaled_strictMono (e : Int) : StrictMono (scaled · e) := fun m n less => by
  have power : (0 : ℚ) < 2 ^ e := by positivity
  exact mul_lt_mul_of_pos_right (Nat.cast_lt.mpr less) power

/-- The exponents decide first, and the significands between equal exponents. -/
theorem compare_scaled {m n : Nat} {e f : Int} (short : m < 2 ^ 53) (short' : n < 2 ^ 53)
    (low : -1074 ≤ e) (low' : -1074 ≤ f) (full : 2 ^ 52 ≤ m ∨ e = -1074)
    (full' : 2 ^ 52 ≤ n ∨ f = -1074) :
    (compare e f).then (compare m n) = compare (scaled m e) (scaled n f) := by
  rcases lt_trichotomy e f with lower | rfl | higher
  · have less := scaled_lt_of_exponent short (full'.resolve_right (by omega)) lower
    rw [compare_lt_iff_lt.mpr lower, compare_lt_iff_lt.mpr less]
    rfl
  · have same := (scaled_strictMono e).cmp_map_eq m n
    rw [cmp_eq_compare, cmp_eq_compare] at same
    rw [compare_eq_iff_eq.mpr rfl, same]
    rfl
  · have greater := scaled_lt_of_exponent short' (full.resolve_right (by omega)) higher
    rw [compare_gt_iff_gt.mpr higher, compare_gt_iff_gt.mpr greater]
    rfl

theorem compare_neg (p q : ℚ) : compare (-p) (-q) = (compare p q).swap := by
  have anti : StrictAnti (fun p : ℚ => -p) := fun _ _ => neg_lt_neg
  have same := anti.cmp_map_eq p q
  rw [cmp_eq_compare, cmp_eq_compare] at same
  exact same.trans Std.OrientedOrd.eq_swap

/-- How two amounts compare, if there are two. -/
def order? (a b : Option Amount) : Option Ordering := Option.map₂ compare a b

variable {p q : Amount}

theorem order?_of_lt (less : p < q) : order? (some p) (some q) = some .lt :=
  congrArg some (compare_lt_iff_lt.mpr less)

theorem order?_of_gt (greater : q < p) : order? (some p) (some q) = some .gt :=
  congrArg some (compare_gt_iff_gt.mpr greater)

theorem order?_self (p : Amount) : order? (some p) (some p) = some .eq :=
  congrArg some (compare_eq_iff_eq.mpr rfl)

theorem order?_swap (a b : Option Amount) : order? b a = (order? a b).map .swap := by
  cases a <;> cases b <;> try rfl
  exact congrArg some Std.OrientedOrd.eq_swap

theorem order?_eq_none_iff {a b : Option Amount} : order? a b = none ↔ a = none ∨ b = none :=
  Option.map₂_eq_none_iff

theorem order?_eq_some_eq_iff {a b : Option Amount} :
    order? a b = some .eq ↔ a = b ∧ a ≠ none := by
  cases a with
  | none => exact iff_of_false nofun fun absent => absent.2 rfl
  | some p =>
    cases b with
    | none => exact iff_of_false nofun nofun
    | some q =>
      refine (Option.some_inj.trans compare_eq_iff_eq).trans ?_
      exact ⟨fun same => ⟨congrArg some same, nofun⟩, fun same => Option.some_inj.mp same.1⟩

theorem order?_eq_some_lt_iff {a b : Option Amount} :
    order? a b = some .lt ↔ ∃ p q, a = some p ∧ b = some q ∧ p < q := by
  rw [order?, Option.map₂_eq_some_iff]
  simp only [compare_lt_iff_lt]
  rfl

open Amount

/-- Two finite floats other than zero are compared by sign, exponent and significand. -/
theorem compare_finite {s t : Sign} {m n : Nat} {e f : Int} {positive : 0 < m} {positive' : 0 < n}
    (canonical : Canonical (.finite s m e positive)) (canonical' : Canonical (.finite t n f positive')) :
    UnpackedFloat.compare (.finite s m e positive) (.finite t n f positive') =
      order? (amountOf? (.finite s m e positive)) (amountOf? (.finite t n f positive')) := by
  obtain ⟨short, low, -, full⟩ := canonical
  obtain ⟨short', low', -, full'⟩ := canonical'
  have above := scaled_pos positive e
  have above' := scaled_pos positive' f
  have magnitudes := compare_scaled short short' low low' full full'
  cases s with
  | negative =>
    cases t with
    | negative =>
      refine congrArg some ?_
      rw [magnitudes, compare_ofRat, compare_neg]
    | positive => exact (order?_of_lt (ofRat_lt_ofRat.mpr ((neg_neg_of_pos above).trans above'))).symm
  | positive =>
    cases t with
    | negative => exact (order?_of_gt (ofRat_lt_ofRat.mpr ((neg_neg_of_pos above').trans above))).symm
    | positive =>
      refine congrArg some ?_
      rw [magnitudes, compare_ofRat]

theorem compare_zero {s t : Sign} {n : Nat} {f : Int} {positive : 0 < n} :
    UnpackedFloat.compare (.zero s) (.finite t n f positive) =
      order? (amountOf? (.zero s)) (amountOf? (.finite t n f positive)) := by
  have above := scaled_pos positive f
  cases t with
  | negative => exact (order?_of_gt (ofRat_lt_ofRat.mpr (neg_neg_of_pos above))).symm
  | positive => exact (order?_of_lt (ofRat_lt_ofRat.mpr above)).symm

/-- An infinity lies beyond everything finite. -/
theorem compare_infinity (s : Sign) (g : UnpackedFloat) :
    UnpackedFloat.compare (.infinity s) g = order? (amountOf? (.infinity s)) (amountOf? g) := by
  cases g with
  | notANumber => cases s <;> rfl
  | infinity t =>
    cases s with
    | negative =>
      cases t with
      | negative => exact (order?_self _).symm
      | positive => exact (order?_of_lt bot_lt_top).symm
    | positive =>
      cases t with
      | negative => exact (order?_of_gt bot_lt_top).symm
      | positive => exact (order?_self _).symm
  | zero t =>
    cases s with
    | negative => exact (order?_of_lt bot_lt_ofRat).symm
    | positive => exact (order?_of_gt ofRat_lt_top).symm
  | finite t n f _ =>
    cases s with
    | negative => cases t <;> exact (order?_of_lt bot_lt_ofRat).symm
    | positive => cases t <;> exact (order?_of_gt ofRat_lt_top).symm

theorem compare_swap (f g : UnpackedFloat) : g.compare f = (f.compare g).map .swap := by
  -- Only between two finite floats of one sign do the numbers decide.
  rcases f with ⟨_ | _⟩ | _ | _ | ⟨_ | _, m, e, _⟩ <;>
    rcases g with ⟨_ | _⟩ | _ | _ | ⟨_ | _, n, f, _⟩ <;> try rfl
  all_goals
    refine congrArg some ?_
    rw [Std.OrientedOrd.eq_swap (a := f), Std.OrientedOrd.eq_swap (a := n), ← Ordering.swap_then]

theorem compare_amountOf? {f g : UnpackedFloat} (canonical : Canonical f) (canonical' : Canonical g) :
    f.compare g = order? (amountOf? f) (amountOf? g) := by
  cases f with
  | notANumber => rfl
  | infinity s => exact compare_infinity s g
  | zero s =>
    cases g with
    | notANumber => rfl
    | infinity t => rw [compare_swap, compare_infinity, ← order?_swap]
    | zero t => exact (order?_self _).symm
    | finite t n f _ => exact compare_zero
  | finite s m e _ =>
    cases g with
    | notANumber => cases s <;> rfl
    | infinity t => rw [compare_swap, compare_infinity, ← order?_swap]
    | zero t => rw [compare_swap, compare_zero, ← order?_swap]
    | finite t n f _ => exact compare_finite canonical canonical'

/-! ### The order of floats -/

variable {x y : Float}

/-- Whether the first float is less, equal or greater, by what the two stand for. -/
def compare? (x y : Float) : Option Ordering := order? (amount? x) (amount? y)

theorem compare_unpack (x y : Float) : x.toModel.unpack.compare y.toModel.unpack = compare? x y :=
  compare_amountOf? (canonical_unpack _) (canonical_unpack _)

theorem decide_lt (x y : Float) : decide (x < y) = (compare? x y == some .lt) := by
  rw [← compare_unpack]
  show decide (decide (_ = true) = true) = _
  rw [Bool.decide_eq_true, Bool.decide_eq_true]
  rfl

theorem beq_eq (x y : Float) : (x == y) = (compare? x y == some .eq) := by
  rw [← compare_unpack]
  rfl

theorem isNaN_iff : x.isNaN = true ↔ amount? x = none := by
  show x.toModel.unpack.isNaN = true ↔ amountOf? x.toModel.unpack = none
  cases x.toModel.unpack with
  | notANumber => exact iff_of_true rfl rfl
  | infinity s => cases s <;> exact iff_of_false nofun nofun
  | zero s => exact iff_of_false nofun nofun
  | finite s m e _ => cases s <;> exact iff_of_false nofun nofun

end Offside.Binary64
