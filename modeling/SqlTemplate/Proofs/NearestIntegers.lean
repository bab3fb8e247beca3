import Mathlib
import SqlTemplate.Proofs.Magnitudes

/-!
# Integers as binary64 numbers

The binary64 number for an integer of 64 bits is the nearest integer that 53 bits can hold, and of
two equally near ones that with an even mantissa. So integers that are compared as binary64 numbers
are in the order of what they are rounded to: rounding keeps the order, but not what is different
different.

## Main definitions

* `Decimal.nearestInteger` : an integer rounded to 53 bits.
* `Decimal.IsShort` : a natural number that 53 bits can hold.
* `Decimal.Denotes` : an unpacked number has the value of an integer.

## Main results

* `Decimal.dist_nearestNat_le` : no number of 53 bits is nearer than the one rounded to.
* `Decimal.nearestInteger_le` : rounding keeps the order.
* `Decimal.Denotes.compare_eq` : unpacked numbers are in the order of their values.
* `Decimal.denotes_ofInt` : the binary64 number for an integer of 64 bits.
-/

namespace SqlTemplate.Decimal

open Float.Model (Format UnpackedFloat totalExponent)
open Float.Model.UnpackedFloat

/-! ### Rounding to 53 bits -/

/-- The multiples of `2 ^ k` that make up `n`, rounded to the nearest number of them, and to the
even one of two that are equally near. -/
def halfEven (n k : Nat) : Nat :=
  if 2 * (n % 2 ^ k) < 2 ^ k ∨ 2 * (n % 2 ^ k) = 2 ^ k ∧ n / 2 ^ k % 2 = 0 then n / 2 ^ k
  else n / 2 ^ k + 1

variable {n k : Nat}

theorem le_halfEven (n k : Nat) : n / 2 ^ k ≤ halfEven n k ∧ halfEven n k ≤ n / 2 ^ k + 1 := by
  rw [halfEven]
  split <;> omega

theorem halfEven_mul (n i k : Nat) : halfEven (n * 2 ^ i) (i + k) = halfEven n k := by
  have hpos : 0 < 2 ^ i := Nat.two_pow_pos i
  have hpow : 2 ^ (i + k) = 2 ^ i * 2 ^ k := Nat.pow_add 2 i k
  have hdiv : n * 2 ^ i / (2 ^ i * 2 ^ k) = n / 2 ^ k := by
    rw [Nat.mul_comm n, Nat.mul_div_mul_left _ _ hpos]
  have hmod : n * 2 ^ i % (2 ^ i * 2 ^ k) = 2 ^ i * (n % 2 ^ k) := by
    rw [Nat.mul_comm n, Nat.mul_mod_mul_left]
  simp only [halfEven, hpow, hdiv, hmod, Nat.mul_left_comm 2 (2 ^ i), Nat.mul_lt_mul_left hpos,
    Nat.mul_right_inj hpos.ne']

theorem halfEven_zero (n : Nat) : halfEven n 0 = n := by
  have hmod : n % 2 ^ 0 = 0 := Nat.mod_one n
  rw [halfEven, hmod, if_pos (Or.inl (by decide)), Nat.pow_zero, Nat.div_one]

/-- No multiple is nearer. -/
theorem dist_halfEven_le (n k t : Nat) :
    ((n : Int) - (halfEven n k * 2 ^ k : Nat)).natAbs ≤ ((n : Int) - (t * 2 ^ k : Nat)).natAbs := by
  have hsum : 2 ^ k * (n / 2 ^ k) + n % 2 ^ k = n := Nat.div_add_mod n (2 ^ k)
  have hmod : n % 2 ^ k < 2 ^ k := Nat.mod_lt n (Nat.two_pow_pos k)
  have hnext : (n / 2 ^ k + 1) * 2 ^ k = 2 ^ k * (n / 2 ^ k) + 2 ^ k := by
    rw [Nat.add_mul, Nat.one_mul, Nat.mul_comm]
  have hsame : n / 2 ^ k * 2 ^ k = 2 ^ k * (n / 2 ^ k) := Nat.mul_comm _ _
  have hnear : 2 * ((n : Int) - (halfEven n k * 2 ^ k : Nat)).natAbs ≤ 2 ^ k := by
    rw [halfEven]
    split
    · rw [hsame]
      omega
    · rw [hnext]
      omega
  rcases Nat.lt_trichotomy t (halfEven n k) with hlt | rfl | hgt
  · have hstep := Nat.mul_le_mul_right (2 ^ k) hlt
    rw [Nat.succ_mul] at hstep
    omega
  · exact Nat.le_refl _
  · have hstep := Nat.mul_le_mul_right (2 ^ k) hgt
    rw [Nat.succ_mul] at hstep
    omega

/-- A natural number in 53 bits: rounded to a multiple of the power of two that makes it short. -/
def nearestNat (n : Nat) : Nat :=
  halfEven n (n.log2 - 52) * 2 ^ (n.log2 - 52)

/-- The integer of 53 bits and a sign that is nearest to an integer. -/
def nearestInteger (n : Int) : Int :=
  n.sign * nearestNat n.natAbs

/-- A natural number has 53 bits, apart from zeros behind them. -/
def IsShort (n : Nat) : Prop :=
  ∃ m k, m < 2 ^ 53 ∧ n = m * 2 ^ k

theorem nearestNat_of_lt (hn : n < 2 ^ 53) : nearestNat n = n := by
  have hlog : n.log2 - 52 = 0 :=
    Nat.sub_eq_zero_of_le (Nat.le_of_lt_succ (log2_lt_of_lt_two_pow hn))
  rw [nearestNat, hlog, halfEven_zero, Nat.pow_zero, Nat.mul_one]

theorem isShort_nearestNat (n : Nat) : IsShort (nearestNat n) := by
  have hlt : n / 2 ^ (n.log2 - 52) < 2 ^ 53 := div_pow_lt n (by omega)
  have hle := (le_halfEven n (n.log2 - 52)).2
  rcases Nat.lt_or_ge (halfEven n (n.log2 - 52)) (2 ^ 53) with hshort | hlong
  · exact ⟨_, _, hshort, rfl⟩
  · have hfull : halfEven n (n.log2 - 52) = 2 ^ 53 := by omega
    refine ⟨1, 53 + (n.log2 - 52), by decide, ?_⟩
    rw [nearestNat, hfull, Nat.one_mul, Nat.pow_add]

/-- No number of 53 bits is nearer. -/
theorem dist_nearestNat_le (n : Nat) {r : Nat} (hr : IsShort r) :
    ((n : Int) - nearestNat n).natAbs ≤ ((n : Int) - r).natAbs := by
  by_cases hsmall : n < 2 ^ 53
  · rw [nearestNat_of_lt hsmall, Int.sub_self]
    exact Nat.zero_le _
  have hn : n ≠ 0 := by omega
  have hlog : 53 ≤ n.log2 := (Nat.le_log2 hn).2 (Nat.le_of_not_lt hsmall)
  obtain ⟨m, k, hm, rfl⟩ := hr
  rcases Nat.lt_or_ge k (n.log2 - 52) with hk | hk
  · -- Such a number is below the highest power of two in `n`, which is a multiple itself.
    have hhalf : m * 2 ^ k < 2 ^ 52 * 2 ^ (n.log2 - 52) :=
      calc m * 2 ^ k < 2 ^ 53 * 2 ^ k := Nat.mul_lt_mul_of_pos_right hm (Nat.two_pow_pos k)
        _ = 2 ^ (52 + (k + 1)) := by rw [← Nat.pow_add]; congr 1; omega
        _ ≤ 2 ^ (52 + (n.log2 - 52)) := Nat.pow_le_pow_right (by decide) (by omega)
        _ = 2 ^ 52 * 2 ^ (n.log2 - 52) := Nat.pow_add ..
    have hlow : 2 ^ 52 * 2 ^ (n.log2 - 52) ≤ n :=
      calc 2 ^ 52 * 2 ^ (n.log2 - 52) = 2 ^ n.log2 := by rw [← Nat.pow_add]; congr 1; omega
        _ ≤ n := Nat.log2_self_le hn
    have hmultiple := dist_halfEven_le n (n.log2 - 52) (2 ^ 52)
    rw [nearestNat]
    omega
  · have hmultiple : m * 2 ^ k = m * 2 ^ (k - (n.log2 - 52)) * 2 ^ (n.log2 - 52) := by
      rw [Nat.mul_assoc, ← Nat.pow_add, Nat.sub_add_cancel hk]
    rw [hmultiple]
    exact dist_halfEven_le n (n.log2 - 52) _

/-- Rounding keeps the order, as of two numbers of 53 bits each is the nearer to its own. -/
theorem nearestNat_le {n n' : Nat} (h : n ≤ n') : nearestNat n ≤ nearestNat n' := by
  rcases Nat.eq_or_lt_of_le h with rfl | hlt
  · exact Nat.le_refl _
  · have hfirst := dist_nearestNat_le n (isShort_nearestNat n')
    have hsecond := dist_nearestNat_le n' (isShort_nearestNat n)
    omega

theorem nearestInteger_natCast (n : Nat) : nearestInteger n = nearestNat n := by
  rcases Nat.eq_zero_or_pos n with rfl | hn
  · rfl
  · rw [nearestInteger, Int.natAbs_natCast, Int.sign_natCast_of_ne_zero hn.ne', Int.one_mul]

theorem nearestInteger_neg (n : Int) : nearestInteger (-n) = -nearestInteger n := by
  rw [nearestInteger, nearestInteger, Int.sign_neg, Int.natAbs_neg, Int.neg_mul]

theorem nearestInteger_le {a b : Int} (h : a ≤ b) : nearestInteger a ≤ nearestInteger b := by
  have hnonneg (n : Nat) : 0 ≤ nearestInteger n := by
    rw [nearestInteger_natCast]
    exact Int.natCast_nonneg _
  obtain ⟨m, rfl | rfl⟩ := a.eq_nat_or_neg <;> obtain ⟨n, rfl | rfl⟩ := b.eq_nat_or_neg
  · rw [nearestInteger_natCast, nearestInteger_natCast]
    exact Int.ofNat_le.2 (nearestNat_le (Int.ofNat_le.1 h))
  · obtain ⟨rfl, rfl⟩ : m = 0 ∧ n = 0 := by omega
    exact Int.le_refl _
  · rw [nearestInteger_neg]
    have hm := hnonneg m
    have hn := hnonneg n
    omega
  · rw [nearestInteger_neg, nearestInteger_neg, nearestInteger_natCast, nearestInteger_natCast]
    exact Int.neg_le_neg (Int.ofNat_le.2 (nearestNat_le (by omega)))

/-! ### Values of unpacked numbers -/

/-- An unpacked number has the value of an integer: it is a zero, or a mantissa of 53 bits at its
exponent. Of a short integer the exponent is negative, down to 52 places behind the point. -/
inductive Denotes : UnpackedFloat → Int → Prop
  | zero (s : Sign) : Denotes (.zero s) 0
  | finite (s : Sign) {m k n : Nat} (hpos : 0 < m) (hlow : 2 ^ 52 ≤ m) (hm : m < 2 ^ 53)
      (h : m * 2 ^ k = n * 2 ^ 52) : Denotes (.finite s m (k - 52) hpos) (s.apply n)

variable {x y : UnpackedFloat} {a b : Int}

theorem Denotes.neg (h : Denotes x a) : Denotes x.neg (-a) := by
  cases h with
  | zero s => exact .zero (-s)
  | @finite s m k n hpos hlow hm h =>
    have hsign : -s.apply n = (-s).apply n := by
      cases s with
      | negative => exact Int.neg_neg _
      | positive => rfl
    rw [hsign]
    exact .finite (-s) hpos hlow hm h

/-- The bits of an integer bound the exponent of its mantissa. -/
theorem exponent_lt {s : Sign} {m k n top : Nat} (hlow : 2 ^ 52 ≤ m)
    (h : m * 2 ^ k = n * 2 ^ 52) (hn : (s.apply n).natAbs < 2 ^ top) : k < top := by
  rw [natAbs_apply, Int.natAbs_natCast] at hn
  refine (Nat.pow_lt_pow_iff_right (by decide : 1 < 2)).1 ?_
  have hle := Nat.mul_le_mul_right (2 ^ k) hlow
  omega

theorem Denotes.atMost (h : Denotes x a) (ha : a.natAbs < 2 ^ 65) : AtMost 14 x := by
  cases h with
  | zero s => exact .zero s
  | finite s hpos hlow hm h =>
    have hk := exponent_lt hlow h ha
    exact .finite s hpos hm (by omega)

/-! ### Comparing -/

theorem compare_congr {α β : Type} [LinearOrder α] [LinearOrder β] {p q : α} {r t : β}
    (hlt : p < q ↔ r < t) (hgt : q < p ↔ t < r) : compare p q = compare r t := by
  rcases lt_trichotomy p q with h | rfl | h
  · rw [compare_lt_iff_lt.2 h, compare_lt_iff_lt.2 (hlt.1 h)]
  · have heq : r = t := le_antisymm (not_lt.1 fun h => lt_irrefl p (hgt.2 h))
      (not_lt.1 fun h => lt_irrefl p (hlt.2 h))
    rw [compare_eq_iff_eq.2 rfl, compare_eq_iff_eq.2 heq]
  · rw [compare_gt_iff_gt.2 h, compare_gt_iff_gt.2 (hgt.1 h)]

/-- Of two mantissas with all their bits the exponents decide first. -/
theorem mantissa_lt {m₁ m₂ k₁ k₂ : Nat} (hm₁ : m₁ < 2 ^ 53) (hlow₂ : 2 ^ 52 ≤ m₂) (hk : k₁ < k₂) :
    m₁ * 2 ^ k₁ < m₂ * 2 ^ k₂ :=
  calc m₁ * 2 ^ k₁ < 2 ^ 53 * 2 ^ k₁ := Nat.mul_lt_mul_of_pos_right hm₁ (Nat.two_pow_pos k₁)
    _ = 2 ^ (52 + (k₁ + 1)) := by rw [← Nat.pow_add]; congr 1; omega
    _ ≤ 2 ^ (52 + k₂) := Nat.pow_le_pow_right (by decide) (by omega)
    _ = 2 ^ 52 * 2 ^ k₂ := Nat.pow_add ..
    _ ≤ m₂ * 2 ^ k₂ := Nat.mul_le_mul_right _ hlow₂

theorem compare_mantissas {m₁ m₂ k₁ k₂ : Nat} (hlow₁ : 2 ^ 52 ≤ m₁) (hm₁ : m₁ < 2 ^ 53)
    (hlow₂ : 2 ^ 52 ≤ m₂) (hm₂ : m₂ < 2 ^ 53) :
    (compare (k₁ - 52 : Int) (k₂ - 52)).then (compare m₁ m₂) =
      compare (m₁ * 2 ^ k₁) (m₂ * 2 ^ k₂) := by
  rcases Nat.lt_trichotomy k₁ k₂ with hk | rfl | hk
  · rw [compare_lt_iff_lt.2 (by omega : (k₁ - 52 : Int) < k₂ - 52),
      compare_lt_iff_lt.2 (mantissa_lt hm₁ hlow₂ hk)]
    rfl
  · have hpos := Nat.two_pow_pos k₁
    rw [compare_eq_iff_eq.2 rfl, Ordering.eq_then]
    exact compare_congr (Nat.mul_lt_mul_right hpos).symm (Nat.mul_lt_mul_right hpos).symm
  · rw [compare_gt_iff_gt.2 (by omega : (k₂ - 52 : Int) < k₁ - 52),
      compare_gt_iff_gt.2 (mantissa_lt hm₂ hlow₁ hk)]
    rfl

/-- Numbers that stand for integers are in the order of these. -/
theorem Denotes.compare_eq (hx : Denotes x a) (hy : Denotes y b) :
    x.compare y = some (compare a b) := by
  have hpositive {m k n : Nat} (hpos : 0 < m) (h : m * 2 ^ k = n * 2 ^ 52) : 0 < n := by
    have hproduct := Nat.mul_pos hpos (Nat.two_pow_pos k)
    omega
  cases hx with
  | zero s =>
    cases hy with
    | zero t => rfl
    | @finite t m k n hpos hlow hm h =>
      have hn := hpositive hpos h
      cases t with
      | negative => exact congrArg some (compare_gt_iff_gt.2 (by change -(n : Int) < 0; omega)).symm
      | positive => exact congrArg some (compare_lt_iff_lt.2 (by change 0 < (n : Int); omega)).symm
  | @finite s m k n hpos hlow hm h =>
    have hn := hpositive hpos h
    cases hy with
    | zero t =>
      cases s with
      | negative => exact congrArg some (compare_lt_iff_lt.2 (by change -(n : Int) < 0; omega)).symm
      | positive => exact congrArg some (compare_gt_iff_gt.2 (by change 0 < (n : Int); omega)).symm
    | @finite t m' k' n' hpos' hlow' hm' h' =>
      have hn' := hpositive hpos' h'
      have hmagnitudes : (compare (k - 52 : Int) (k' - 52)).then (compare m m') = compare n n' := by
        rw [compare_mantissas hlow hm hlow' hm', h, h']
        exact compare_congr (by omega) (by omega)
      cases s with
      | negative =>
        cases t with
        | negative =>
          rw [UnpackedFloat.compare, hmagnitudes, ← Std.OrientedCmp.eq_swap]
          have hlt : n' < n ↔ -(n : Int) < -n' := by omega
          have hgt : n < n' ↔ -(n' : Int) < -n := by omega
          exact congrArg some (compare_congr hlt hgt)
        | positive =>
          have hlt : -(n : Int) < n' := by omega
          exact congrArg some (compare_lt_iff_lt.2 hlt).symm
      | positive =>
        cases t with
        | negative =>
          have hgt : -(n' : Int) < n := by omega
          exact congrArg some (compare_gt_iff_gt.2 hgt).symm
        | positive =>
          rw [UnpackedFloat.compare, hmagnitudes]
          exact congrArg some (compare_congr Int.ofNat_lt.symm Int.ofNat_lt.symm)

/-! ### Rounding of unpacked numbers -/

theorem shiftRight_succ (m k : Nat) :
    ExtendedMantissa.mk m false false >>> (k + 1) =
      ⟨m / 2 ^ (k + 1), m / 2 ^ k % 2 != 0, m % 2 ^ k != 0⟩ := by
  induction k with
  | zero =>
    change ExtendedMantissa.mk (m / 2) (m % 2 != 0) false = _
    rw [Nat.pow_zero, Nat.div_one, Nat.mod_one]
    rfl
  | succ k ih =>
    change ExtendedMantissa.shiftRightOne (ExtendedMantissa.mk m false false >>> (k + 1)) = _
    have hsticky : (m / 2 ^ k % 2 != 0 || m % 2 ^ k != 0) = (m % 2 ^ (k + 1) != 0) := by
      have hpos := Nat.two_pow_pos k
      rw [Nat.mod_pow_succ, Bool.eq_iff_iff]
      simp
      omega
    rw [ih, ExtendedMantissa.shiftRightOne, hsticky, Nat.div_div_eq_div_mul, ← Nat.pow_succ]

/-- The bits that are shifted out decide how the mantissa is rounded. -/
theorem roundedMantissa_shiftRight (m k : Nat) :
    (ExtendedMantissa.mk m false false >>> k).roundedMantissa = halfEven m k := by
  cases k with
  | zero => exact (halfEven_zero m).symm
  | succ k =>
    have hpos := Nat.two_pow_pos k
    have hlt : m % 2 ^ k < 2 ^ k := Nat.mod_lt m hpos
    have hpow : 2 ^ (k + 1) = 2 * 2 ^ k := Nat.pow_succ'
    rw [shiftRight_succ, halfEven, Nat.mod_pow_succ]
    generalize m / 2 ^ (k + 1) = q
    rcases Nat.mod_two_eq_zero_or_one (m / 2 ^ k) with hbit | hbit
    · rw [hbit, Nat.mul_zero, Nat.add_zero, if_pos (Or.inl (by omega))]
      rcases hsticky : (m % 2 ^ k != 0) with _ | _ <;> rfl
    · rw [hbit, Nat.mul_one]
      by_cases hzero : m % 2 ^ k = 0
      · have heven : ExtendedMantissa.roundedMantissa ⟨q, 1 != 0, 0 != 0⟩ = q + q % 2 := rfl
        rw [hzero, heven]
        split <;> omega
      · rw [bne_iff_ne.2 hzero, if_neg (by omega)]
        rfl

theorem log2_mul_two_pow {m : Nat} (hm : m ≠ 0) (k : Nat) : (m * 2 ^ k).log2 = m.log2 + k := by
  rw [Nat.log2_eq_iff (Nat.mul_ne_zero hm (Nat.two_pow_pos k).ne'), Nat.pow_add,
    Nat.add_right_comm, Nat.pow_add]
  exact ⟨Nat.mul_le_mul_right _ (Nat.log2_self_le hm),
    Nat.mul_lt_mul_of_pos_right Nat.lt_log2_self (Nat.two_pow_pos k)⟩

/-- Once it is rounded, a mantissa is shifted no further, unless it has become a power of two of one
bit more. -/
theorem shiftToTargetExponent_rounded {m : Nat} {e : Int} (hlow : 2 ^ 52 ≤ m) (hm : m < 2 ^ 53)
    (he : -1074 ≤ e) :
    shiftToTargetExponent Format.binary64 m e .exact = (⟨m, false, false⟩, e) := by
  have hlog : m.log2 = 52 := (Nat.log2_eq_iff (by omega)).2 ⟨hlow, hm⟩
  have hshift : (max (totalExponent m e - 53) (-1074) - e).toNat = 0 := by
    rw [totalExponent, hlog]
    omega
  rw [shiftToTargetExponent, shiftToExponent, targetExponent_eq, hshift]
  exact Prod.ext rfl (Int.add_zero e)

theorem shiftToTargetExponent_carried {e : Int} (he : -1074 ≤ e) :
    shiftToTargetExponent Format.binary64 (2 ^ 53) e .exact = (⟨2 ^ 52, false, false⟩, e + 1) := by
  have hshift : (max (totalExponent (2 ^ 53) e - 53) (-1074) - e).toNat = 1 := by
    rw [totalExponent, Nat.log2_two_pow]
    omega
  rw [shiftToTargetExponent, shiftToExponent, targetExponent_eq, hshift]
  rfl

/-- A natural number with enough bits behind the point is rounded to its nearest one of 53 bits. -/
theorem denotes_roundWithAccuracy (s : Sign) {n i : Nat} (hn : n ≠ 0) (hi : 52 ≤ n.log2 + i) :
    Denotes (roundWithAccuracy Format.binary64 s (n * 2 ^ i) (-i) .exact)
      (s.apply (nearestNat n)) := by
  have hlog := log2_mul_two_pow hn i
  have hfirst : shiftToTargetExponent Format.binary64 (n * 2 ^ i) (-i) .exact =
      (ExtendedMantissa.mk (n * 2 ^ i) false false >>> (n.log2 + i - 52), (n.log2 : Int) - 52) := by
    have hshift : (max (totalExponent (n * 2 ^ i) (-i) - 53) (-1074) - -(i : Int)).toNat =
        n.log2 + i - 52 := by
      rw [totalExponent, hlog]
      omega
    rw [shiftToTargetExponent, shiftToExponent, targetExponent_eq, hshift]
    exact Prod.ext rfl (by dsimp only; omega)
  have hvalue : halfEven (n * 2 ^ i) (n.log2 + i - 52) * 2 ^ n.log2 = nearestNat n * 2 ^ 52 := by
    rcases Nat.le_total 52 n.log2 with hlong | hshort
    · have hshift : n.log2 + i - 52 = i + (n.log2 - 52) := by omega
      rw [hshift, halfEven_mul, nearestNat, Nat.mul_assoc, ← Nat.pow_add, Nat.sub_add_cancel hlong]
    · have hsplit : n * 2 ^ i = n * 2 ^ (52 - n.log2) * 2 ^ (n.log2 + i - 52) := by
        rw [Nat.mul_assoc, ← Nat.pow_add]
        congr 2
        omega
      have hexact := halfEven_mul (n * 2 ^ (52 - n.log2)) (n.log2 + i - 52) 0
      rw [Nat.add_zero, halfEven_zero] at hexact
      rw [hsplit, hexact, Nat.mul_assoc, ← Nat.pow_add, Nat.sub_add_cancel hshort,
        nearestNat_of_lt ((Nat.log2_lt hn).1 (by omega))]
  have hbounds := le_halfEven (n * 2 ^ i) (n.log2 + i - 52)
  have hhigh : n * 2 ^ i / 2 ^ (n.log2 + i - 52) < 2 ^ 53 := div_pow_lt _ (by omega)
  have hlow : 2 ^ 52 ≤ n * 2 ^ i / 2 ^ (n.log2 + i - 52) := by
    have hself := Nat.log2_self_le (Nat.mul_ne_zero hn (Nat.two_pow_pos i).ne')
    rw [hlog] at hself
    rw [Nat.le_div_iff_mul_le (Nat.two_pow_pos _), ← Nat.pow_add, Nat.add_sub_cancel' hi]
    exact hself
  rw [roundWithAccuracy, hfirst]
  dsimp only
  rw [roundedMantissa_shiftRight]
  generalize halfEven (n * 2 ^ i) (n.log2 + i - 52) = r at hvalue hbounds ⊢
  rcases Nat.lt_or_ge r (2 ^ 53) with hr | hr
  · rw [shiftToTargetExponent_rounded (by omega) hr (by omega)]
    dsimp only
    rw [dif_neg (by omega)]
    exact .finite s _ (by omega) hr hvalue
  · obtain rfl : r = 2 ^ 53 := by omega
    rw [shiftToTargetExponent_carried (by omega)]
    dsimp only
    rw [dif_neg (by decide)]
    have hnext : (n.log2 : Int) - 52 + 1 = (n.log2 + 1 : Nat) - 52 := by omega
    rw [hnext]
    refine .finite s _ (Nat.le_refl _) (by decide) ?_
    rw [← hvalue, Nat.pow_succ']
    omega

theorem denotes_normalize (n : Nat) :
    Denotes (normalize Format.binary64 n 0 .positive) (nearestNat n) := by
  rcases Nat.eq_zero_or_pos n with rfl | hn
  · exact .zero .positive
  have hpositive : compare (n : Int) 0 = .gt := compare_gt_iff_gt.2 (Int.natCast_pos.2 hn)
  have hshift : (0 - max (totalExponent n 0 - 53) (-1074)).toNat = 52 - n.log2 := by
    rw [totalExponent]
    omega
  rw [UnpackedFloat.normalize, hpositive]
  dsimp only
  rw [UnpackedFloat.round, targetExponent_eq, decreaseExponent, Int.toNat_natCast, hshift]
  dsimp only
  rw [Nat.shiftLeft_eq, Int.zero_sub]
  exact denotes_roundWithAccuracy .positive hn.ne' (by omega)

/-! ### Storing -/

theorem unpackSign_packComponents {format : Format} {s : Sign}
    {exponent : BitVec format.exponentBits}
    {mantissa : BitVec format.mantissaBitsWithoutImplicit} :
    unpackSign (packComponents format s exponent mantissa) = s.toBitVec := by
  refine BitVec.eq_of_getLsbD_eq fun i hi => ?_
  obtain rfl : i = 0 := by omega
  simp [unpackSign, packComponents, BitVec.getLsbD_append, BitVec.getElem_append]

theorem toNat_leading_append {mantissa : BitVec 52} :
    (1#1 ++ mantissa).toNat = 2 ^ 52 + mantissa.toNat := by
  rw [BitVec.toNat_append, ← Nat.shiftLeft_add_eq_or_of_lt mantissa.isLt]
  rfl

theorem unpack_pack_normal (s : Sign) {m : Nat} {e : Int} (hpos : 0 < m) (hlow : 2 ^ 52 ≤ m)
    (hm : m < 2 ^ 53) (he : -1074 ≤ e) (hrange : e ≤ 970) :
    unpack Format.binary64 (pack Format.binary64 (.finite s m e hpos)) = .finite s m e hpos := by
  have hbias : Format.binary64.exponentBias = 1023 := by
    decide
  have hlog : m.log2 + 1 = Format.binary64.mantissaBits := by
    rw [(Nat.log2_eq_iff hpos.ne').2 ⟨hlow, hm⟩]
    rfl
  have hexponent : (BitVec.ofNat 11 (e + (1023 : Nat) + (52 : Nat)).toNat).toNat = e + 1075 := by
    rw [BitVec.toNat_ofNat, Nat.mod_eq_of_lt (by omega)]
    omega
  have hmantissa : (BitVec.ofNat 52 m).toNat = m - 2 ^ 52 := by
    rw [BitVec.toNat_ofNat]
    omega
  simp only [pack, hbias]
  rw [if_neg (by omega), if_pos hlog]
  generalize BitVec.ofNat 11 (e + (1023 : Nat) + (52 : Nat)).toNat = exponent at hexponent ⊢
  have hlast : exponent ≠ -1#11 := by
    rintro rfl
    have : (-1#11).toNat = 2047 := by decide
    omega
  have hfirst : exponent ≠ 0#11 := by
    rintro rfl
    have : (0#11).toNat = 0 := by decide
    omega
  simp only [unpack, unpackExponent_packComponents, unpackMantissa_packComponents,
    unpackSign_packComponents]
  rw [if_neg hlast, if_neg hfirst]
  have hsign : Sign.ofBitVec s.toBitVec = s := by
    cases s <;> rfl
  have hcongr {m' : Nat} {e' : Int} (hm' : m' = m) (he' : e' = e) (hpos' : 0 < m') :
      UnpackedFloat.finite s m' e' hpos' = .finite s m e hpos := by
    subst hm' he'
    rfl
  simp only [hsign, toNat_leading_append, hmantissa, hexponent, hbias]
  exact hcongr (by omega) (by omega) _

/-- A number that stands for an integer stays what it is when it is stored. -/
theorem Denotes.unpack_pack (h : Denotes x a) (ha : a.natAbs < 2 ^ 65) :
    Denotes (unpack Format.binary64 (pack Format.binary64 x)) a := by
  cases h with
  | zero s => cases s <;> exact .zero _
  | @finite s m k n hpos hlow hm h =>
    have hk : k < 65 := exponent_lt hlow h ha
    rw [unpack_pack_normal s hpos hlow hm (by omega) (by omega)]
    exact .finite s hpos hlow hm h

/-! ### Integers of 64 bits -/

theorem nearestNat_lt {n : Nat} (hn : n < 2 ^ 64) : nearestNat n < 2 ^ 65 := by
  have hzero := dist_nearestNat_le n (r := 0) ⟨0, 0, by decide, rfl⟩
  omega

/-- A number is multiplied by one without being changed. -/
theorem Denotes.mul_one (h : Denotes x a) (ha : a.natAbs < 2 ^ 53) :
    Denotes (UnpackedFloat.mul Format.binary64 x (.finite .positive (2 ^ 52) (-52) (by decide)))
      a := by
  cases h with
  | zero s => exact .zero _
  | @finite s m k n hpos hlow hm h =>
    have hshort : n < 2 ^ 53 := by
      rw [natAbs_apply] at ha
      exact ha
    have hn : n ≠ 0 := by
      have hpositive := Nat.mul_pos hpos (Nat.two_pow_pos k)
      omega
    have hk : k < 53 := exponent_lt hlow h ha
    have hproduct : m * 2 ^ 52 = n * 2 ^ (104 - k) := by
      refine Nat.eq_of_mul_eq_mul_right (Nat.two_pow_pos k) ?_
      calc m * 2 ^ 52 * 2 ^ k = m * 2 ^ k * 2 ^ 52 := Nat.mul_right_comm ..
        _ = n * 2 ^ 104 := by rw [h, Nat.mul_assoc, ← Nat.pow_add]
        _ = n * 2 ^ (104 - k) * 2 ^ k := by
          rw [Nat.mul_assoc, ← Nat.pow_add, Nat.sub_add_cancel (by omega)]
    have hexponent : (k : Int) - 52 + -52 = -(104 - k : Nat) := by
      omega
    have hround := denotes_roundWithAccuracy (s * .positive) (i := 104 - k) hn (by omega)
    rw [nearestNat_of_lt hshort] at hround
    rw [UnpackedFloat.mul, hproduct, hexponent]
    cases s <;> exact hround

theorem denotes_ofNat {n : Nat} (hn : n < 2 ^ 64) :
    Denotes (Float.ofNat n).toModel.unpack (nearestNat n) := by
  change Denotes (Float.ofScientific n false 0).toModel.unpack (nearestNat n)
  have hstored {u : UnpackedFloat} (h : Denotes u (nearestNat n)) :
      Denotes (unpack Format.binary64 (pack Format.binary64 u)) (nearestNat n) :=
    h.unpack_pack (nearestNat_lt hn)
  by_cases hsmall : n < 2 ^ 53
  · have hword : Denotes (n.toUInt64.toFloat).toModel.unpack (nearestNat n) := by
      have hnat : n.toUInt64.toNat = n := Nat.mod_eq_of_lt hn
      have hnormalized := denotes_normalize n.toUInt64.toNat
      rw [hnat] at hnormalized
      refine hstored ?_
      change Denotes (UnpackedFloat.normalize Format.binary64 n.toUInt64.toNat 0 .positive) _
      rw [hnat]
      exact hnormalized
    rw [Float.ofScientific, dif_pos ⟨hsmall, by decide⟩]
    rw [nearestNat_of_lt hsmall] at hword ⊢
    have hone : (Float.ofBits 0x3FF0000000000000).toModel.unpack =
        .finite .positive (2 ^ 52) (-52) (by decide) := by
      rfl
    refine Denotes.unpack_pack ?_ (by omega)
    change Denotes (UnpackedFloat.mul Format.binary64 n.toUInt64.toFloat.toModel.unpack
      (Float.ofBits 0x3FF0000000000000).toModel.unpack) n
    rw [hone]
    exact hword.mul_one hsmall
  · rw [Float.ofScientific, dif_neg fun h => hsmall h.1]
    have hbelow : ¬ (0 : Int) < -(2 ^ Format.binary64.exponentBits + n.log2) := by
      change ¬ (0 : Int) < -(2048 + n.log2)
      omega
    have hwidth : Format.binary64.mantissaBits = 53 := by
      decide
    refine hstored ?_
    change Denotes (UnpackedFloat.ofScientific Format.binary64 n 0) (nearestNat n)
    rw [UnpackedFloat.ofScientific, dif_neg (by omega), if_neg (by decide), if_neg hbelow,
      if_pos (Int.le_refl 0), UnpackedFloat.mul]
    simp only [hwidth, Int.toNat_zero, Nat.pow_zero, Nat.mul_one, Int.add_zero]
    rw [Nat.shiftLeft_eq]
    exact denotes_roundWithAccuracy _ (by omega) (by omega)

/-- The binary64 number for an integer of 64 bits is the nearest integer of 53 bits. -/
theorem denotes_ofInt {n : Int} (hn : n.natAbs < 2 ^ 64) :
    Denotes (Float.ofInt n).toModel.unpack (nearestInteger n) := by
  cases n with
  | ofNat n =>
    change Denotes (Float.ofNat n).toModel.unpack (nearestInteger n)
    rw [nearestInteger_natCast]
    exact denotes_ofNat hn
  | negSucc n =>
    change Denotes (unpack Format.binary64 (pack Format.binary64
      (Float.ofNat n.succ).toModel.unpack.neg)) (nearestInteger (-(n.succ : Nat)))
    rw [nearestInteger_neg, nearestInteger_natCast]
    refine (denotes_ofNat hn).neg.unpack_pack ?_
    rw [Int.natAbs_neg]
    exact nearestNat_lt hn

/-- The exponent of the number for an integer of 64 bits. -/
theorem atMost_ofInt {n : Int} (hn : n.natAbs < 2 ^ 64) :
    AtMost 14 (Float.ofInt n).toModel.unpack := by
  refine (denotes_ofInt hn).atMost ?_
  obtain ⟨m, rfl | rfl⟩ := n.eq_nat_or_neg
  · rw [nearestInteger_natCast]
    exact nearestNat_lt hn
  · rw [nearestInteger_neg, nearestInteger_natCast, Int.natAbs_neg]
    exact nearestNat_lt (by omega)

end SqlTemplate.Decimal
