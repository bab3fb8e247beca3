import Mathlib
import SqlTemplate.Expr.Evaluation
import SqlTemplate.Proofs.NearestIntegers

/-!
# Exact arithmetic of integers

Arithmetic of integers is exact: the result is an integer wherever the exact one has 64 bits, and a
finite binary64 number where it does not. A quotient is truncated toward zero, and a remainder has
the sign of the dividend.

One result is missed. The remainder of the lowest integer by minus one is zero, but the quotient
they have leaves the range, and the remainder is computed in binary64 along with it.

## Main definitions

* `TruncatedDivision` : a quotient and a remainder, by what they are to dividend and divisor.
* `Number.isInteger` : a number is one of the integers of 64 bits.
* `BinaryOp.Exact` : the exact result of an operator on integers.
* `Represents` : an outcome is an integer, or a binary64 number where the integer has not 64 bits.

## Main results

* `TruncatedDivision.eq_tdiv_tmod` : quotient and remainder are determined.
* `isInt64_tdiv` : one quotient of integers of 64 bits is none itself.
* `BinaryOp.onIntegers?_eq` : what an operator has as its integer result.
* `BinaryOp.isFinite_onFloats` : where it has none, its binary64 result is finite.
* `Expr.integer_arithmetic` : arithmetic of integers, with the remainder that is missed.
-/

namespace SqlTemplate

open Text

/-- Quotient and remainder of a division that truncates toward zero: the remainder is smaller than
the divisor in magnitude, and has no sign opposite to that of the dividend. -/
structure TruncatedDivision (a b quotient remainder : Int) : Prop where
  eq : a = b * quotient + remainder
  natAbs_lt : remainder.natAbs < b.natAbs
  sign : 0 ≤ a * remainder

namespace TruncatedDivision

variable {a b q r : Int}

theorem tdiv_tmod (a : Int) (hb : b ≠ 0) : TruncatedDivision a b (a.tdiv b) (a.tmod b) where
  eq := (Int.mul_tdiv_add_tmod a b).symm
  natAbs_lt := by
    rw [Int.natAbs_tmod]
    exact Nat.mod_lt _ (Int.natAbs_pos.2 hb)
  sign := by
    rcases Int.le_total 0 a with ha | ha
    · exact Int.mul_nonneg ha (Int.tmod_nonneg b ha)
    · have hneg := Int.tmod_nonneg b (Int.neg_nonneg_of_nonpos ha)
      rw [Int.neg_tmod] at hneg
      exact Int.mul_nonneg_of_nonpos_of_nonpos ha (by omega)

/-- A remainder is not below zero where the dividend is not, and not above zero otherwise. -/
theorem remainder_sign (h : TruncatedDivision a b q r) : 0 ≤ a ∧ 0 ≤ r ∨ a ≤ 0 ∧ r ≤ 0 := by
  rcases Int.lt_trichotomy a 0 with ha | rfl | ha
  · exact .inr ⟨ha.le, nonpos_of_mul_nonneg_right h.sign ha⟩
  · rcases Int.le_total 0 r with hr | hr
    · exact .inl ⟨Int.le_refl 0, hr⟩
    · exact .inr ⟨Int.le_refl 0, hr⟩
  · exact .inl ⟨ha.le, nonneg_of_mul_nonneg_right h.sign ha⟩

theorem ne_zero (h : TruncatedDivision a b q r) : b ≠ 0 := by
  rintro rfl
  exact absurd h.natAbs_lt (Nat.not_lt_zero _)

theorem eq_tdiv_tmod (h : TruncatedDivision a b q r) : a.tdiv b = q ∧ a.tmod b = r := by
  have hlt := h.natAbs_lt
  have hb := h.ne_zero
  have heq : r + b * q = a := by
    rw [h.eq, Int.add_comm]
  rcases h.remainder_sign with ⟨ha, hr⟩ | ⟨ha, hr⟩
  · exact (Int.tdiv_tmod_unique ha hb).2 ⟨heq, hr, by omega⟩
  · exact (Int.tdiv_tmod_unique' ha hb).2 ⟨heq, by omega, hr⟩

end TruncatedDivision

/-! ### The range of 64 bits -/

variable {a b n : Int}

theorem isInt64_iff : isInt64 n = true ↔ -0x8000000000000000 ≤ n ∧ n < 0x8000000000000000 := by
  rw [isInt64, Bool.and_eq_true, decide_eq_true_iff, decide_eq_true_iff]

/-- A quotient is no larger than its dividend in magnitude, so it can only be the opposite of the
lowest integer, which the lowest integer has by minus one alone. -/
theorem isInt64_tdiv (ha : isInt64 a) (hb : b ≠ 0) :
    isInt64 (a.tdiv b) = true ↔ ¬(a = -0x8000000000000000 ∧ b = -1) := by
  constructor
  · rintro h ⟨rfl, rfl⟩
    exact absurd h (by decide)
  · intro hcorner
    rw [isInt64_iff] at ha ⊢
    by_contra hout
    have hle := Int.natAbs_tdiv_le_natAbs a b
    have hlowest : a = -0x8000000000000000 := by
      omega
    have hquotient : a.tdiv b = 0x8000000000000000 := by
      omega
    have hdivision := TruncatedDivision.tdiv_tmod a hb
    have heq := hdivision.eq
    have hlt := hdivision.natAbs_lt
    have hsign := hdivision.remainder_sign
    rw [hquotient] at heq
    omega

theorem isInt64_tmod (ha : isInt64 a) : isInt64 (a.tmod b) = true := by
  rw [isInt64_iff] at ha ⊢
  have hle : (a.tmod b).natAbs ≤ a.natAbs := by
    rw [Int.natAbs_tmod]
    exact Nat.mod_le _ _
  by_cases hb : b = 0
  · rw [hb, Int.tmod_zero]
    exact ha
  · have hsign := (TruncatedDivision.tdiv_tmod a hb).remainder_sign
    omega

/-! ### Numbers -/

namespace Number

/-- Whether a number is an integer of 64 bits. -/
def isInteger : Number → Bool
  | .int _ => true
  | .float _ => false

theorem exists_of_isInteger {x : Number} (h : x.isInteger = true) : ∃ n, x = .int n := by
  cases x with
  | int n => exact ⟨n, rfl⟩
  | float y => cases h

/-- Of two numbers that are not both integers, the first is none, or else the second. -/
theorem exists_of_not_isInteger {x y : Number}
    (hkind : ¬ (x.isInteger = true ∧ y.isInteger = true)) :
    (∃ f, x = .float f) ∨ ∃ m g, x = .int m ∧ y = .float g := by
  cases x with
  | float f => exact .inl ⟨f, rfl⟩
  | int m =>
    cases y with
    | float g => exact .inr ⟨m, g, rfl, rfl⟩
    | int n => exact absurd ⟨rfl, rfl⟩ hkind

@[simp]
theorem isInteger_ofInteger (n : Int) : (ofInteger n).isInteger = isInt64 n := by
  rw [ofInteger]
  split
  · rename_i h
    exact h.symm
  · rename_i h
    exact (Bool.eq_false_iff.2 h).symm

@[simp]
theorem toFloat_ofInteger (n : Int) : (ofInteger n).toFloat = Float.ofInt n := by
  rw [ofInteger]
  split <;> rfl

end Number

/-! ### Operators -/

/-- An outcome is the integer where this has 64 bits, and a finite binary64 number where not. -/
def Represents (outcome : Except ExprFault Value) (n : Int) : Prop :=
  if isInt64 n then outcome = .ok (.ofInt n)
  else ∃ x : Float, x.isFinite = true ∧ outcome = .ok (.number (.float x))

theorem Value.ofFloat_of_isFinite {x : Float} (h : x.isFinite = true) :
    Value.ofFloat x = .number (.float x) := by
  rw [Value.ofFloat, Number.ofFloat?, if_pos h]

theorem Value.number?_ofInt (ha : isInt64 a) : (Value.ofInt a).number? = some (.int a) :=
  congrArg some (if_pos ha)

namespace BinaryOp

variable {op : BinaryOp}

/-- Whether an operator computes a number. -/
def isArithmetic : BinaryOp → Bool
  | .add | .sub | .mul | .div | .rem => true
  | _ => false

/-- An integer is the exact result of an operator on two others. -/
def Exact (op : BinaryOp) (a b n : Int) : Prop :=
  match op with
  | .add => n = a + b
  | .sub => n = a - b
  | .mul => n = a * b
  | .div => ∃ r, TruncatedDivision a b n r
  | .rem => ∃ q, TruncatedDivision a b q n
  | _ => False

theorem existsUnique_exact (harith : op.isArithmetic) (hzero : op.divides → b ≠ 0) :
    ∃! n, op.Exact a b n := by
  cases op with
  | or | and | eq | ne | lt | le | gt | ge => cases harith
  | add | sub | mul => exact existsUnique_eq
  | div =>
    refine ⟨a.tdiv b, ⟨_, .tdiv_tmod a (hzero rfl)⟩, ?_⟩
    rintro n ⟨r, h⟩
    exact h.eq_tdiv_tmod.1.symm
  | rem =>
    refine ⟨a.tmod b, ⟨_, .tdiv_tmod a (hzero rfl)⟩, ?_⟩
    rintro n ⟨q, h⟩
    exact h.eq_tdiv_tmod.2.symm

/-- The operands are those of the remainder of the lowest integer by minus one. -/
def MissesRemainder (op : BinaryOp) (a b : Int) : Prop :=
  op = .rem ∧ a = -0x8000000000000000 ∧ b = -1

/-- An operator has its exact result as an integer where this has 64 bits, apart from the remainder
that is missed. -/
theorem onIntegers?_eq (h : op.Exact a b n) (ha : isInt64 a) (hmiss : ¬ op.MissesRemainder a b) :
    op.onIntegers? a b = if isInt64 n then some n else none := by
  cases op with
  | or | and | eq | ne | lt | le | gt | ge => cases h
  | add | sub | mul =>
    cases h
    rfl
  | div =>
    obtain ⟨r, h⟩ := h
    obtain ⟨rfl, -⟩ := h.eq_tdiv_tmod
    rfl
  | rem =>
    obtain ⟨q, h⟩ := h
    obtain ⟨-, rfl⟩ := h.eq_tdiv_tmod
    have hquotient : isInt64 (a.tdiv b) = true :=
      (isInt64_tdiv ha h.ne_zero).2 fun hcorner => hmiss ⟨rfl, hcorner⟩
    rw [onIntegers?, onIntegers?.word?, if_pos hquotient, if_pos (isInt64_tmod ha), Option.map_some]

/-- Where the exact result has not 64 bits, the result in binary64 is finite: sums and products are
far below the largest number, and one quotient alone is concerned. -/
theorem isFinite_onFloats (h : op.Exact a b n) (ha : isInt64 a) (hb : isInt64 b)
    (hn : ¬ isInt64 n) : (op.onFloats (Float.ofInt a) (Float.ofInt b)).isFinite = true := by
  have hfloat {n : Int} (hn : isInt64 n) : Decimal.AtMost 14 (Float.ofInt n).toModel.unpack := by
    rw [isInt64_iff] at hn
    exact Decimal.atMost_ofInt (by omega)
  cases op with
  | or | and | eq | ne | lt | le | gt | ge => cases h
  | add =>
    have hsum := (hfloat ha).add (hfloat hb) (by decide)
    exact (hsum.unpack_pack (by decide) (by decide)).isFinite
  | sub =>
    have hdifference := (hfloat ha).sub (hfloat hb) (by decide)
    exact (hdifference.unpack_pack (by decide) (by decide)).isFinite
  | mul =>
    have hproduct := (hfloat ha).mul (hfloat hb) (by decide)
    exact (hproduct.unpack_pack (by decide) (by decide)).isFinite
  | div =>
    obtain ⟨r, h⟩ := h
    obtain ⟨rfl, -⟩ := h.eq_tdiv_tmod
    rw [isInt64_tdiv ha h.ne_zero, not_not] at hn
    obtain ⟨rfl, rfl⟩ := hn
    decide
  | rem =>
    obtain ⟨q, h⟩ := h
    obtain ⟨-, rfl⟩ := h.eq_tdiv_tmod
    exact absurd (isInt64_tmod ha) hn

theorem apply_ofInt (harith : op.isArithmetic) (hzero : op.divides → b ≠ 0) (ha : isInt64 a)
    (hb : isInt64 b) :
    op.apply (.ofInt a) (.ofInt b) =
      match op.onIntegers? a b with
      | some n => .ok (.ofInt n)
      | none => .ok (.ofFloat (op.onFloats (Float.ofInt a) (Float.ofInt b))) := by
  have happly : op.apply (.ofInt a) (.ofInt b) = op.arithmetic (.ofInt a) (.ofInt b) := by
    cases op with
    | or | and | eq | ne | lt | le | gt | ge => cases harith
    | add | sub | mul | div | rem => rfl
  have hdivisor : ¬ (op.divides && b == 0) = true := by
    rw [Bool.and_eq_true, beq_iff_eq]
    exact fun h => hzero h.1 h.2
  rw [happly, arithmetic, Value.number?_ofInt ha, Value.number?_ofInt hb]
  exact if_neg hdivisor

theorem represents_apply (harith : op.isArithmetic) (hzero : op.divides → b ≠ 0)
    (ha : isInt64 a) (hb : isInt64 b) (hmiss : ¬ op.MissesRemainder a b) (h : op.Exact a b n) :
    Represents (op.apply (.ofInt a) (.ofInt b)) n := by
  rw [apply_ofInt harith hzero ha hb, onIntegers?_eq h ha hmiss, Represents]
  split
  · rfl
  · rename_i hn
    have hfinite := isFinite_onFloats h ha hb hn
    exact ⟨_, hfinite, congrArg Except.ok (Value.ofFloat_of_isFinite hfinite)⟩

/-- Minus zero, as the remainder keeps the sign of the dividend in binary64. -/
theorem apply_missed :
    BinaryOp.rem.apply (.ofInt (-0x8000000000000000)) (.ofInt (-1)) =
      .ok (.number (.float (-0.0))) := by
  have hnone : BinaryOp.rem.onIntegers? (-0x8000000000000000) (-1) = none := by
    decide
  have hzero : BinaryOp.rem.onFloats (Float.ofInt (-0x8000000000000000)) (Float.ofInt (-1)) =
      -0.0 := by
    rfl
  have hfinite : (-0.0 : Float).isFinite = true := by
    decide
  rw [apply_ofInt rfl (fun _ => by decide) (by decide) (by decide), hnone]
  dsimp only
  rw [hzero, Value.ofFloat_of_isFinite hfinite]

end BinaryOp

theorem Value.represents_negated (ha : isInt64 a) : Represents (Value.ofInt a).negated (-a) := by
  rw [Value.negated, Value.number?_ofInt ha, Represents]
  dsimp only
  split
  · rfl
  · have hfinite : (-(Float.ofInt a)).isFinite = true := by
      rw [isInt64_iff] at ha
      have hfloat := Decimal.atMost_ofInt (n := a) (by omega)
      exact (hfloat.neg.unpack_pack (by decide) (by decide)).isFinite
    exact ⟨_, hfinite, congrArg Except.ok (Value.ofFloat_of_isFinite hfinite)⟩

/-! ### Expressions -/

namespace Expr

variable {scope : Scope} {left right : Expr}

/-- Apart from `and` and `or`, an operator is applied to the values of both operands. -/
theorem evaluate_strict {op : BinaryOp} {v w : Value} (hand : op ≠ .and) (hor : op ≠ .or)
    (hleft : left.evaluate scope = .ok v) (hright : right.evaluate scope = .ok w) :
    (Expr.binary op left right).evaluate scope = op.apply v w := by
  rw [evaluate, hleft, hright]
  · rfl
  · exact hand
  · exact hor

theorem evaluate_binary {op : BinaryOp} {v w : Value} (harith : op.isArithmetic)
    (hleft : left.evaluate scope = .ok v) (hright : right.evaluate scope = .ok w) :
    (Expr.binary op left right).evaluate scope = op.apply v w := by
  refine evaluate_strict ?_ ?_ hleft hright <;>
    · rintro rfl
      cases harith

theorem evaluate_negate {v : Value} (hleft : left.evaluate scope = .ok v) :
    (Expr.negate left).evaluate scope = v.negated := by
  rw [evaluate, hleft]
  rfl

/-- Arithmetic of two integers of 64 bits has one exact result, and its value is this integer where
it has 64 bits, and a finite binary64 number where not. The remainder of the lowest integer by
minus one alone, which is zero, is the binary64 number of minus zero. -/
theorem integer_arithmetic (ha : isInt64 a) (hb : isInt64 b)
    (hleft : left.evaluate scope = .ok (.ofInt a))
    (hright : right.evaluate scope = .ok (.ofInt b)) :
    (∀ op : BinaryOp, op.isArithmetic → (op.divides → b ≠ 0) →
      ∃ n, (∀ m, op.Exact a b m ↔ m = n) ∧
        (¬ op.MissesRemainder a b → Represents ((binary op left right).evaluate scope) n) ∧
        (op.MissesRemainder a b →
          (binary op left right).evaluate scope = .ok (.number (.float (-0.0))))) ∧
    Represents ((negate left).evaluate scope) (-a) := by
  refine ⟨fun op harith hzero => ?_, ?_⟩
  · obtain ⟨n, hn, hunique⟩ := op.existsUnique_exact (a := a) harith hzero
    refine ⟨n, fun m => ⟨hunique m, fun h => h ▸ hn⟩, fun hmiss => ?_, ?_⟩
    · rw [evaluate_binary harith hleft hright]
      exact BinaryOp.represents_apply harith hzero ha hb hmiss hn
    · rintro ⟨rfl, rfl, rfl⟩
      rw [evaluate_binary harith hleft hright]
      exact BinaryOp.apply_missed
  · rw [evaluate_negate hleft]
    exact Value.represents_negated ha

/-- A scope with two integers. -/
def operands (a b : Int) : Scope where
  resolve? name := if name = "a" then some (.ofInt a) else some (.ofInt b)
  access := .lenient

theorem evaluate_operands (a b : Int) :
    (name "a").evaluate (operands a b) = .ok (.ofInt a) ∧
      (name "b").evaluate (operands a b) = .ok (.ofInt b) :=
  ⟨rfl, rfl⟩

theorem integer_arithmetic_truncates :
    (binary .div (name "a") (name "b")).evaluate (operands (-7) 2) = .ok (.ofInt (-3)) ∧
      (binary .rem (name "a") (name "b")).evaluate (operands (-7) 2) = .ok (.ofInt (-1)) ∧
      (negate (name "a")).evaluate (operands (-7) 2) = .ok (.ofInt 7) := by
  obtain ⟨hleft, hright⟩ := evaluate_operands (-7) 2
  obtain ⟨harith, hneg⟩ := integer_arithmetic (by decide) (by decide) hleft hright
  have hdivision : TruncatedDivision (-7) 2 (-3) (-1) := ⟨by decide, by decide, by decide⟩
  obtain ⟨n, hn, hquotient, -⟩ := harith .div rfl (by decide)
  obtain ⟨m, hm, hremainder, -⟩ := harith .rem rfl (by decide)
  obtain rfl := (hn (-3)).1 ⟨_, hdivision⟩
  obtain rfl := (hm (-1)).1 ⟨_, hdivision⟩
  exact ⟨hquotient (by rintro ⟨h, -⟩; cases h), hremainder (by rintro ⟨-, h, -⟩; cases h), hneg⟩

/-- The remainder of the lowest integer by minus one is no integer, although the exact one has 64
bits. -/
theorem remainder_of_lowest_inexact :
    BinaryOp.rem.Exact (-0x8000000000000000) (-1) 0 ∧ isInt64 0 = true ∧
      (binary .rem (name "a") (name "b")).evaluate (operands (-0x8000000000000000) (-1)) ≠
        .ok (.ofInt 0) := by
  refine ⟨⟨0x8000000000000000, by decide, by decide, by decide⟩, by decide, fun h => ?_⟩
  obtain ⟨hleft, hright⟩ := evaluate_operands (-0x8000000000000000) (-1)
  rw [evaluate_binary rfl hleft hright, BinaryOp.apply_missed] at h
  cases h

end Expr

end SqlTemplate
