import Mathlib
import SqlTemplate.Proofs.ExactIntegers

/-!
# Division by zero

A division by zero fails where both operands are integers of 64 bits, or texts that write such. It
goes unnoticed where one of them is a binary64 number: the quotient is infinite or not a number, the
remainder is not a number, and as a value each of these is null.

## Main definitions

* `Number.IsZero` : the integer zero, and the two zeros of binary64.

## Main results

* `Decimal.isFinite_div_zero`, `Decimal.isFinite_remainder_zero` : nothing finite comes of a
  division by zero.
* `Expr.division_by_zero` : which divisions by zero fail, and what the others come to.
-/

namespace SqlTemplate

open Text
open Float.Model (UnpackedFloat)

namespace Decimal

variable {x y : Float}

/-- Both zeros equal the positive one, and nothing else does. -/
theorem exists_unpack_of_beq_zero (h : (y == 0.0) = true) :
    ∃ sign, y.toModel.unpack = .zero sign := by
  have hzero : (0.0 : Float).toModel.unpack = .zero .positive := by
    rfl
  change UnpackedFloat.beq y.toModel.unpack (0.0 : Float).toModel.unpack = true at h
  rw [hzero, UnpackedFloat.beq] at h
  generalize y.toModel.unpack = u at h
  match u with
  | .zero sign => exact ⟨sign, rfl⟩
  | .infinity .positive | .infinity .negative | .notANumber | .finite .positive m e hpos
  | .finite .negative m e hpos => cases h

theorem isFinite_pack_infinity (sign : UnpackedFloat.Sign) :
    (Float.Model.pack (.infinity sign)).isFinite = false := by
  cases sign <;> decide

theorem isFinite_pack_notANumber : (Float.Model.pack .notANumber).isFinite = false := by
  decide

theorem isFinite_div_zero (hy : (y == 0.0) = true) : (x / y).isFinite = false := by
  obtain ⟨sign, hzero⟩ := exists_unpack_of_beq_zero hy
  change (Float.Model.pack
    (UnpackedFloat.div Float.Model.Format.binary64 x.toModel.unpack y.toModel.unpack)).isFinite =
      false
  rw [hzero]
  cases x.toModel.unpack with
  | notANumber | zero => exact isFinite_pack_notANumber
  | infinity | finite => exact isFinite_pack_infinity _

theorem isFinite_remainder_zero (hy : (y == 0.0) = true) : (remainder x y).isFinite = false := by
  obtain ⟨sign, hzero⟩ := exists_unpack_of_beq_zero hy
  have hnone : remainder x y = 0.0 / 0.0 := by
    rw [remainder, hzero]
    cases x.toModel.unpack with
    | notANumber | zero | infinity | finite => rfl
  rw [hnone]
  exact isFinite_div_zero (by decide)

end Decimal

namespace Number

/-- A number is zero: as an integer, or as a binary64 number of either sign. -/
def IsZero : Number → Prop
  | .int n => n = 0
  | .float x => (x == 0.0) = true

theorem IsZero.toFloat {b : Number} (h : b.IsZero) : (b.toFloat == 0.0) = true := by
  cases b with
  | int n =>
    obtain rfl : n = 0 := h
    decide
  | float y => exact h

end Number

theorem Value.ofFloat_of_not_isFinite {x : Float} (h : x.isFinite = false) :
    Value.ofFloat x = .null := by
  rw [Value.ofFloat, Number.ofFloat?, h]
  rfl

namespace BinaryOp

variable {op : BinaryOp} {v w : Value} {a b : Number}

theorem ofFloat_onFloats_of_isZero (hop : op.divides) (hb : b.IsZero) :
    Value.ofFloat (op.onFloats a.toFloat b.toFloat) = .null := by
  apply Value.ofFloat_of_not_isFinite
  cases op with
  | or | and | eq | ne | lt | le | gt | ge | add | sub | mul => cases hop
  | div => exact Decimal.isFinite_div_zero hb.toFloat
  | rem => exact Decimal.isFinite_remainder_zero hb.toFloat

theorem isArithmetic_of_divides (hop : op.divides) : op.isArithmetic := by
  cases op with
  | or | and | eq | ne | lt | le | gt | ge | add | sub | mul => cases hop
  | div | rem => rfl

theorem apply_of_divides (hop : op.divides) : op.apply v w = op.arithmetic v w := by
  cases op with
  | or | and | eq | ne | lt | le | gt | ge | add | sub | mul => cases hop
  | div | rem => rfl

/-- Operands of which one is no integer are divided as binary64 numbers. -/
theorem apply_of_not_isInteger (hop : op.divides) (ha : v.number? = some a)
    (hb : w.number? = some b) (hkind : ¬ (a.isInteger = true ∧ b.isInteger = true)) :
    op.apply v w = .ok (.ofFloat (op.onFloats a.toFloat b.toFloat)) := by
  rw [apply_of_divides hop, arithmetic, ha, hb]
  obtain ⟨f, rfl⟩ | ⟨m, g, rfl, rfl⟩ := Number.exists_of_not_isInteger hkind <;> rfl

theorem apply_eq_divisionByZero_iff (hop : op.divides) (ha : v.number? = some a)
    (hb : w.number? = some b) :
    op.apply v w = .error .divisionByZero ↔
      a.isInteger = true ∧ b.isInteger = true ∧ b.IsZero := by
  by_cases hkind : a.isInteger = true ∧ b.isInteger = true
  · obtain ⟨m, rfl⟩ := Number.exists_of_isInteger hkind.1
    obtain ⟨n, rfl⟩ := Number.exists_of_isInteger hkind.2
    rw [apply_of_divides hop, arithmetic, ha, hb]
    dsimp only
    by_cases hn : n = 0
    · rw [if_pos (by rw [hop, hn]; rfl)]
      exact iff_of_true rfl ⟨rfl, rfl, hn⟩
    · rw [if_neg (by simp [hn])]
      refine iff_of_false (fun h => ?_) fun h => hn h.2.2
      split at h <;> cases h
  · rw [apply_of_not_isInteger hop ha hb hkind]
    refine iff_of_false (fun h => ?_) fun h => hkind ⟨h.1, h.2.1⟩
    cases h

end BinaryOp

namespace Expr

variable {scope : Scope} {left right : Expr}

/-- A division fails for its zero divisor exactly where both operands are or write integers of 64
bits. A division by zero in which one of them is a binary64 number, or writes one, has the value
null. -/
theorem division_by_zero {op : BinaryOp} {v w : Value} {a b : Number} (hop : op.divides)
    (hleft : left.evaluate scope = .ok v) (hright : right.evaluate scope = .ok w)
    (ha : v.number? = some a) (hb : w.number? = some b) :
    ((binary op left right).evaluate scope = .error .divisionByZero ↔
        a.isInteger = true ∧ b.isInteger = true ∧ b.IsZero) ∧
      (b.IsZero → ¬ (a.isInteger = true ∧ b.isInteger = true) →
        (binary op left right).evaluate scope = .ok .null) := by
  rw [evaluate_binary (BinaryOp.isArithmetic_of_divides hop) hleft hright]
  refine ⟨BinaryOp.apply_eq_divisionByZero_iff hop ha hb, fun hzero hkind => ?_⟩
  rw [BinaryOp.apply_of_not_isInteger hop ha hb hkind,
    BinaryOp.ofFloat_onFloats_of_isZero hop hzero]

theorem division_by_zero_of_texts :
    (binary .rem (literal (.string "10")) (literal (.string " 0 "))).evaluate (operands 0 0) =
        .error .divisionByZero ∧
      (binary .div (literal (.string "10")) (literal (.string "-0.0"))).evaluate (operands 0 0) =
        .ok .null := by
  have hten : (Value.string "10").number? = some (.int 10) := by
    decide
  have hinteger : (Value.string " 0 ").number? = some (.int 0) := by
    decide
  have hfloat : (Value.string "-0.0").number? = some (.float (-0.0)) := by
    decide
  have hzero : (Number.float (-0.0)).IsZero := by
    change ((-0.0 : Float) == 0.0) = true
    decide
  exact ⟨(division_by_zero rfl rfl rfl hten hinteger).1.2 ⟨rfl, rfl, rfl⟩,
    (division_by_zero rfl rfl rfl hten hfloat).2 hzero nofun⟩

/-- One is divided by the zero of binary64 without a failure, and the value is null. -/
theorem float_zero_divides :
    (binary .div (literal (.ofInt 1)) (literal (.number (.float 0.0)))).evaluate (operands 0 0) ≠
      .error .divisionByZero := by
  have hnull : (binary .div (literal (.ofInt 1)) (literal (.number (.float 0.0)))).evaluate
      (operands 0 0) = .ok .null := by
    rw [evaluate_binary rfl rfl rfl]
    exact congrArg Except.ok (Value.ofFloat_of_not_isFinite (Decimal.isFinite_div_zero (by decide)))
  rw [hnull]
  exact nofun

end Expr

end SqlTemplate
