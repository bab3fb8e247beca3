import Mathlib

/-!
# Magnitudes of binary64 numbers

How large the sums and products of binary64 numbers can get. A number is a mantissa of 53 bits at
some exponent, and rounding raises the exponent by one at most, beyond what the bits of the exact
result need. So a bound on the exponents of the operands bounds that of the result, and as long as
this stays in the range of the format the result is finite.

## Main definitions

* `AtMost` : a finite number whose exponent is bounded.

## Main results

* `AtMost.unpack_pack` : a number in the range of the format stays what it is when it is stored.
* `atMost_roundWithAccuracy`, `atMost_round` : the exponent of a number that was rounded.
* `AtMost.add`, `AtMost.sub`, `AtMost.mul` : the exponents of sums, differences and products.
-/

namespace SqlTemplate.Decimal

open Float.Model (Format UnpackedFloat totalExponent)
open Float.Model.UnpackedFloat

/-- A number is finite, with a mantissa of the 53 bits of the format and an exponent up to `top`. -/
inductive AtMost (top : Int) : UnpackedFloat → Prop
  | zero (s : Sign) : AtMost top (.zero s)
  | finite (s : Sign) {m : Nat} {e : Int} (hpos : 0 < m) (hm : m < 2 ^ 53) (he : e ≤ top) :
    AtMost top (.finite s m e hpos)

variable {top : Int} {x y : UnpackedFloat}

theorem AtMost.isFinite (h : AtMost top x) : x.isFinite = true := by
  cases h with
  | zero s | finite s hpos hm he => rfl

theorem AtMost.neg (h : AtMost top x) : AtMost top x.neg := by
  cases h with
  | zero s => exact .zero (-s)
  | finite s hpos hm he => exact .finite (-s) hpos hm he

/-! ### Storing -/

/-- What is stored with an exponent field that is not the last is finite. -/
theorem atMost_unpack_packComponents {s : Sign} {exponent : BitVec 11} {mantissa : BitVec 52}
    (hfinite : exponent.toNat ≤ 2046) (hexponent : (exponent.toNat : Int) ≤ top + 1075)
    (htop : -1074 ≤ top) :
    AtMost top (unpack Format.binary64 (packComponents Format.binary64 s exponent mantissa)) := by
  have hlast : exponent ≠ -1#11 := by
    rintro rfl
    exact absurd hfinite (by decide)
  simp only [unpack, unpackExponent_packComponents, unpackMantissa_packComponents]
  rw [if_neg hlast]
  split
  · split
    · exact .zero _
    · refine .finite _ _ (mantissa.isLt.trans (by decide)) ?_
      rename_i hzero _
      rw [hzero]
      exact htop
  · refine .finite _ _ (BitVec.isLt _) ?_
    change (exponent.toNat : Int) - 1075 ≤ top
    omega

/-- A number whose exponent is in the range of the format is stored with an exponent that is no
higher. -/
theorem AtMost.unpack_pack (h : AtMost top x) (htop : -1074 ≤ top) (hrange : top ≤ 970) :
    AtMost top (unpack Format.binary64 (pack Format.binary64 x)) := by
  cases h with
  | zero s => exact atMost_unpack_packComponents (by decide) (by change (0 : Int) ≤ _; omega) htop
  | @finite s m e hpos hm he =>
    have hbias : Format.binary64.exponentBias = 1023 := by
      decide
    simp only [pack, hbias]
    rw [if_neg (by omega)]
    split
    · have hstored : (BitVec.ofNat 11 (e + (1023 : Nat) + (52 : Nat)).toNat).toNat =
          (e + (1023 : Nat) + (52 : Nat)).toNat := by
        rw [BitVec.toNat_ofNat, Nat.mod_eq_of_lt (by omega)]
      exact atMost_unpack_packComponents (by omega) (by omega) htop
    · exact atMost_unpack_packComponents (by decide) (by change (0 : Int) ≤ _; omega) htop

/-! ### Rounding -/

theorem targetExponent_eq (t : Int) : Format.binary64.targetExponent t = max (t - 53) (-1074) := by
  rw [Format.targetExponent]
  rfl

theorem mantissa_shiftRight (em : ExtendedMantissa) (k : Nat) :
    (em >>> k).mantissa = em.mantissa / 2 ^ k := by
  induction k with
  | zero => exact (Nat.div_one _).symm
  | succ k ih =>
    change (em >>> k).mantissa / 2 = _
    rw [ih, Nat.div_div_eq_div_mul, Nat.pow_succ]

theorem mantissa_ofMantissaAndAccuracy (m : Nat) (accuracy : Accuracy) :
    (ExtendedMantissa.ofMantissaAndAccuracy m accuracy).mantissa = m := by
  rcases accuracy with _ | _ | _ | _ <;> rfl

theorem roundedMantissa_le (em : ExtendedMantissa) : em.roundedMantissa ≤ em.mantissa + 1 := by
  rcases em with ⟨m, _ | _, _ | _⟩ <;>
    simp only [ExtendedMantissa.roundedMantissa, ExtendedMantissa.accuracy,
      Accuracy.roundToNearestEven] <;> omega

theorem log2_lt_of_lt_two_pow {m k : Nat} (h : m < 2 ^ (k + 1)) : m.log2 < k + 1 := by
  rcases Nat.eq_zero_or_pos m with rfl | hm
  · exact Nat.succ_pos k
  · exact (Nat.log2_lt (Nat.ne_of_gt hm)).2 h

theorem log2_shiftLeft_le (m k : Nat) : (m <<< k).log2 ≤ m.log2 + k := by
  have hm : m < 2 ^ (m.log2 + 1) := Nat.lt_log2_self
  have hshift : m <<< k < 2 ^ (m.log2 + k + 1) := by
    rw [Nat.shiftLeft_eq, Nat.add_right_comm, Nat.pow_add]
    exact Nat.mul_lt_mul_of_pos_right hm (Nat.two_pow_pos k)
  exact Nat.le_of_lt_succ (log2_lt_of_lt_two_pow hshift)

/-- A mantissa has 53 bits at its target exponent. -/
theorem div_pow_lt (m : Nat) {k : Nat} (h : m.log2 ≤ 52 + k) : m / 2 ^ k < 2 ^ 53 := by
  rw [Nat.div_lt_iff_lt_mul (Nat.two_pow_pos k), ← Nat.pow_add]
  exact Nat.lt_of_lt_of_le Nat.lt_log2_self (Nat.pow_le_pow_right (by decide) (by omega))

/-- Shifted to its target exponent, a number has a mantissa of 53 bits, and an exponent no higher
than it had, than its bits need or than the lowest of the format. -/
theorem shiftToTargetExponent_le (m : Nat) (e : Int) (accuracy : Accuracy) :
    (shiftToTargetExponent Format.binary64 m e accuracy).1.mantissa < 2 ^ 53 ∧
      (shiftToTargetExponent Format.binary64 m e accuracy).2 =
        max e (max (totalExponent m e - 53) (-1074)) := by
  rw [shiftToTargetExponent, shiftToExponent, targetExponent_eq]
  constructor
  · rw [mantissa_shiftRight, mantissa_ofMantissaAndAccuracy]
    refine div_pow_lt m ?_
    rw [totalExponent]
    omega
  · dsimp only
    omega

/-- The exponent rises above what the bits need by one at most, where the mantissa is rounded to the
next power of two. -/
theorem atMost_roundWithAccuracy (s : Sign) {m : Nat} {e : Int} (accuracy : Accuracy)
    (he : e < top) (hbits : totalExponent m e ≤ top + 52) (htop : -1074 < top) :
    AtMost top (roundWithAccuracy Format.binary64 s m e accuracy) := by
  obtain ⟨hm, he'⟩ := shiftToTargetExponent_le m e accuracy
  rw [roundWithAccuracy]
  generalize shiftToTargetExponent Format.binary64 m e accuracy = first at hm he' ⊢
  obtain ⟨em, e'⟩ := first
  dsimp only at hm he' ⊢
  obtain ⟨hlast, hlast'⟩ := shiftToTargetExponent_le em.roundedMantissa e' .exact
  split
  · exact .zero s
  · refine .finite s _ hlast ?_
    have hrounded : em.roundedMantissa < 2 ^ 54 := by
      have hle := roundedMantissa_le em
      omega
    have hlog := log2_lt_of_lt_two_pow hrounded
    rw [hlast', totalExponent]
    omega

/-- A number is rounded likewise from a lower exponent, where it has bits to spare. -/
theorem atMost_round (s : Sign) {m : Nat} {e : Int} (hbits : totalExponent m e ≤ top + 52)
    (htop : -1074 < top) : AtMost top (UnpackedFloat.round Format.binary64 s m e) := by
  rw [UnpackedFloat.round, targetExponent_eq, decreaseExponent]
  dsimp only
  refine atMost_roundWithAccuracy s .exact (by omega) ?_ htop
  rw [totalExponent] at hbits ⊢
  have hlog := log2_shiftLeft_le m (e - max (totalExponent m e - 53) (-1074)).toNat
  omega

theorem atMost_normalize {n e : Int} {k : Nat} (hn : n.natAbs < 2 ^ (k + 1))
    (hbits : k + 1 + e ≤ top + 52) (htop : -1074 < top) (s : Sign) :
    AtMost top (UnpackedFloat.normalize Format.binary64 n e s) := by
  have hround (t : Sign) {m : Nat} (hm : m ≤ n.natAbs) :
      AtMost top (UnpackedFloat.round Format.binary64 t m e) := by
    refine atMost_round t ?_ htop
    have hlog := log2_lt_of_lt_two_pow (Nat.lt_of_le_of_lt hm hn)
    rw [totalExponent]
    omega
  rw [UnpackedFloat.normalize]
  split
  · exact hround .negative (by omega)
  · exact .zero s
  · exact hround .positive (by omega)

/-! ### Operations -/

theorem natAbs_apply (s : Sign) (n : Int) : (s.apply n).natAbs = n.natAbs := by
  cases s with
  | negative => exact Int.natAbs_neg n
  | positive => rfl

theorem decreaseExponent_lt {m : Nat} {e f : Int} (hm : m < 2 ^ 53) (he : e ≤ top) :
    (decreaseExponent m e f).1 < 2 ^ (53 + (top - f).toNat) := by
  rw [decreaseExponent, Nat.shiftLeft_eq]
  have hpow : 2 ^ (e - f).toNat ≤ 2 ^ (top - f).toNat :=
    Nat.pow_le_pow_right (by decide) (by omega)
  rw [Nat.pow_add]
  exact Nat.mul_lt_mul_of_lt_of_le hm hpow (Nat.two_pow_pos _)

/-- A sum or a difference of two numbers at a common exponent has one bit more than them. -/
theorem atMost_normalize_of_le {m₁ m₂ : Nat} {e₁ e₂ f n : Int} (hm₁ : m₁ < 2 ^ 53)
    (he₁ : e₁ ≤ top) (hm₂ : m₂ < 2 ^ 53) (he₂ : e₂ ≤ top) (hf : f ≤ e₁) (htop : -1074 < top)
    (hn : n.natAbs ≤ (decreaseExponent m₁ e₁ f).1 + (decreaseExponent m₂ e₂ f).1) (s : Sign) :
    AtMost (top + 2) (UnpackedFloat.normalize Format.binary64 n f s) := by
  have hlt₁ := decreaseExponent_lt (f := f) hm₁ he₁
  have hlt₂ := decreaseExponent_lt (f := f) hm₂ he₂
  have hpow : 2 ^ (53 + (top - f).toNat + 1) = 2 * 2 ^ (53 + (top - f).toNat) := by
    rw [Nat.pow_succ, Nat.mul_comm]
  exact atMost_normalize (k := 53 + (top - f).toNat) (by omega) (by omega) (by omega) s

theorem AtMost.add (hx : AtMost top x) (hy : AtMost top y) (htop : -1074 < top) :
    AtMost (top + 2) (UnpackedFloat.add Format.binary64 x y) := by
  have hle : top ≤ top + 2 := by
    omega
  cases hx with
  | zero s =>
    cases hy with
    | zero t =>
      rw [UnpackedFloat.add]
      split <;> exact .zero _
    | finite t hpos hn hf => exact .finite _ hpos hn (hf.trans hle)
  | finite s hpos hm he =>
    cases hy with
    | zero t => exact .finite s hpos hm (he.trans hle)
    | finite t hpos' hn hf =>
      rw [UnpackedFloat.add]
      refine atMost_normalize_of_le hm he hn hf (min_le_left _ _) htop ?_ _
      exact (Int.natAbs_add_le _ _).trans_eq (by rw [natAbs_apply, natAbs_apply]; rfl)

theorem AtMost.sub (hx : AtMost top x) (hy : AtMost top y) (htop : -1074 < top) :
    AtMost (top + 2) (UnpackedFloat.sub Format.binary64 x y) := by
  have hle : top ≤ top + 2 := by
    omega
  cases hx with
  | zero s =>
    cases hy with
    | zero t =>
      rw [UnpackedFloat.sub]
      split <;> exact .zero _
    | finite t hpos hn hf => exact .finite _ hpos hn (hf.trans hle)
  | finite s hpos hm he =>
    cases hy with
    | zero t => exact .finite s hpos hm (he.trans hle)
    | finite t hpos' hn hf =>
      rw [UnpackedFloat.sub]
      refine atMost_normalize_of_le hm he hn hf (min_le_left _ _) htop ?_ _
      exact (Int.natAbs_sub_le _ _).trans_eq (by rw [natAbs_apply, natAbs_apply]; rfl)

theorem AtMost.mul {other : Int} (hx : AtMost top x) (hy : AtMost other y)
    (htop : -1128 < top + other) :
    AtMost (top + other + 54) (UnpackedFloat.mul Format.binary64 x y) := by
  cases hx with
  | zero s =>
    cases hy with
    | zero t | finite t hpos hn hf => exact .zero _
  | @finite s m e hpos hm he =>
    cases hy with
    | zero t => exact .zero _
    | @finite t n f hpos' hn hf =>
      have hproduct : m * n < 2 ^ (105 + 1) := by
        calc m * n < 2 ^ 53 * 2 ^ 53 := Nat.mul_lt_mul_of_lt_of_le hm (Nat.le_of_lt hn) (by decide)
          _ = 2 ^ (105 + 1) := by rw [← Nat.pow_add]
      have hlog := log2_lt_of_lt_two_pow hproduct
      rw [UnpackedFloat.mul]
      refine atMost_roundWithAccuracy _ .exact (by omega) ?_ (by omega)
      rw [totalExponent]
      omega

end SqlTemplate.Decimal
